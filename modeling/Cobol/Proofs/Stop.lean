import Cobol.Proofs.Statement
import Cobol.Proofs.Trace
import Cobol.Proofs.Visit

/-!
# Stopping is final

`STOP RUN` and `GOBACK` clear the run flag and nothing else, and the flag is looked at in three
places: by a block before its next statement, by `PERFORM … TIMES` before its next pass, and by
`PERFORM … UNTIL` before its next test. That this is enough, at every depth, is a fact about the
chain of moments: a moment needs a running state, so nothing follows one that stops the run
(`Chained.last`), and nothing else stops it (`Chained.exists_stops`).

`StopIsFinal` collects what this means for the moments and the outcome of a run. For the two loops
the same is said of their passes (`timesStarts_last`, `untilStarts_last`).

## Shape decisions

* The flag is a part of the state, and stopping is a state without it. So a run that was stopped
  before it began is no special case.
* Passes of loops are told by the states in which they start (`timesStarts`, `untilStarts`). A pass
  that stops the run is the last one, and what the loop leaves is what this pass leaves.
-/

namespace Cobol

open Text

/-! ### Which statements stop a run -/

namespace Action

/-- A statement asks for a stop exactly if its verb is `STOP RUN` or `GOBACK`. -/
theorem ofText_eq_stop_iff {t : Text} :
    ofText (trim t) = .stop ↔
      Verb.ofStatement t = .stopRun ∨ Verb.ofStatement t = .goBack := by
  constructor
  · intro h
    have hverb : Verb.ofStatement t ∈ verbs .stop := ofStatement_mem_verbs h nofun
    simpa [verbs] using hverb
  · intro h
    have hne : trim t ≠ [] := Verb.trim_ne_nil (by rcases h with h | h <;> rw [h] <;> decide)
    rcases h with h | h <;> simp [ofText, hne, h]

end Action

/-- A moment stops the run exactly if the verb of its statement says so. -/
theorem Moment.stops_iff {allowance : Nat} {text : Text} {s : State} :
    Moment.Stops ⟨allowance, .statement text, s⟩ ↔
      Verb.ofStatement text = .stopRun ∨ Verb.ofStatement text = .goBack := by
  rw [← Action.ofText_eq_stop_iff]
  constructor
  · rintro ⟨_, ⟨⟩, h⟩
    exact h
  · exact fun h ↦ ⟨text, rfl, h⟩

/-- What a statement that stops the run does: it clears the flag, and leaves a note. -/
theorem Moment.own_of_stops {m : Machine} {allowance : Nat} {text : Text} {s : State}
    (h : Moment.Stops ⟨allowance, .statement text, s⟩) :
    Moment.own m ⟨allowance, .statement text, s⟩ =
      (({ s with running := false } : State).note (.stopped (trim text))).done := by
  obtain ⟨_, ⟨⟩, h⟩ := h
  unfold Moment.own
  dsimp only
  rw [h]
  rfl

/-- A moment behind which the run has stopped is one that stops it. -/
theorem Moment.stops_of_own {m : Machine} {moment : Moment} (hs : moment.state.running = true)
    (hstop : (moment.own m).state.running = false) : moment.Stops := by
  by_contra hgoes
  rw [Moment.running_own hgoes, hs] at hstop
  cases hstop

/-! ### Stops in a chain -/

namespace Chained

variable {m : Machine} {s : State} {ms : List Moment} {o : Outcome}

/-- Every moment has a running state. -/
theorem running (h : Chained m s ms o) : ∀ moment ∈ ms, moment.state.running = true := by
  induction h with
  | done | limit => exact nofun
  | fault hs => exact List.forall_mem_singleton.2 hs
  | step hs _ _ ih => exact List.forall_mem_cons.2 ⟨hs, ih⟩

/-- Nothing is done from a stopped state on. -/
theorem eq_done_of_stopped (h : Chained m s ms o) (hs : s.running = false) :
    ms = [] ∧ o = s.done := by
  cases h with
  | done => exact ⟨rfl, rfl⟩
  | limit hrun | fault hrun | step hrun =>
    rw [hs] at hrun
    cases hrun

/-- Nothing follows a moment that leaves the run stopped, and the run ends where it ends. -/
theorem last {before after : List Moment} {moment : Moment}
    (h : Chained m s (before ++ moment :: after) o)
    (hstop : (moment.own m).state.running = false) : after = [] ∧ o = moment.own m := by
  induction before generalizing s with
  | nil =>
    cases h with
    | fault => exact ⟨rfl, rfl⟩
    | step hs hfault hrest =>
      obtain ⟨hafter, ho⟩ := hrest.eq_done_of_stopped hstop
      exact ⟨hafter, by rw [ho, State.done, ← hfault]⟩
  | cons first before ih =>
    generalize hms : (first :: before) ++ moment :: after = ms at h
    cases h with
    | done | limit => cases hms
    | fault => simp at hms
    | step hs hfault hrest =>
      obtain ⟨rfl, rfl⟩ := List.cons.inj hms
      exact ih hrest

/-- A run that ends stopped was stopped by its last moment. -/
theorem exists_stops (h : Chained m s ms o) (hs : s.running = true)
    (ho : o.state.running = false) :
    ∃ before moment, ms = before ++ [moment] ∧ moment.Stops := by
  induction h with
  | done | limit => exact nomatch hs.symm.trans ho
  | @fault moment fault hrun hfault => exact ⟨[], moment, rfl, Moment.stops_of_own hrun ho⟩
  | @step moment rest o hrun hfault hrest ih =>
    cases hown : (moment.own m).state.running with
    | true =>
      obtain ⟨before, last, rfl, hlast⟩ := ih hown ho
      exact ⟨moment :: before, last, rfl, hlast⟩
    | false =>
      obtain ⟨rfl, -⟩ := hrest.eq_done_of_stopped hown
      exact ⟨[], moment, rfl, Moment.stops_of_own hrun hown⟩

end Chained

/-! ### Stops in a loop -/

/-- Something follows on an outcome only if there was no fault. -/
theorem Outcome.whenDone_eq_cons {α : Type} {o : Outcome} {next : State → List α} {a : α}
    {xs ys : List α} (h : o.whenDone next = xs ++ a :: ys) :
    o.fault = none ∧ next o.state = xs ++ a :: ys := by
  unfold Outcome.whenDone at h
  split at h
  · exact ⟨‹_›, h⟩
  · simp at h

section

variable {body : State → Outcome} {before after : List State} {s t : State}

/-- A counted loop in a stopped run starts no pass. -/
theorem timesStarts_of_stopped (body : State → Outcome) (n : Nat) (hs : s.running = false) :
    timesStarts body n s = [] ∧ repeatTimes body n s = s.done := by
  cases n with
  | zero => exact ⟨rfl, rfl⟩
  | succ n => simp [timesStarts, repeatTimes, hs]

/-- `TIMES` makes no pass behind one that stops the run. -/
theorem timesStarts_last {n : Nat} (h : timesStarts body n s = before ++ t :: after)
    (hdone : (body t).fault = none) (hstop : (body t).state.running = false) :
    after = [] ∧ repeatTimes body n s = body t := by
  induction n generalizing s before with
  | zero =>
    rw [timesStarts] at h
    simp at h
  | succ n ih =>
    rw [timesStarts] at h
    split at h
    · rw [repeatTimes, if_pos ‹_›]
      cases before with
      | nil =>
        obtain ⟨rfl, rfl⟩ := List.cons.inj h
        -- this pass stops the run, so the loop is left before the next
        obtain ⟨hstarts, hrest⟩ := timesStarts_of_stopped body n hstop
        rw [Outcome.whenDone, hdone, Outcome.andThen_of_none hdone, hrest]
        exact ⟨hstarts, (Outcome.eq_done hdone).symm⟩
      | cons first before =>
        obtain ⟨rfl, hrest⟩ := List.cons.inj h
        obtain ⟨hfault, hrest⟩ := Outcome.whenDone_eq_cons hrest
        rw [Outcome.andThen_of_none hfault]
        exact ih hrest
    · simp at h

/-- `UNTIL` neither tests nor makes a pass behind one that stops the run. -/
theorem untilStarts_last {test : State → Except Fault Bool} {passes : Nat}
    (h : untilStarts body test passes s = before ++ t :: after)
    (hdone : (body t).fault = none) (hstop : (body t).state.running = false) :
    after = [] ∧ repeatUntil body test passes s = body t := by
  induction passes generalizing s before with
  | zero =>
    rw [untilStarts] at h
    simp at h
  | succ passes ih =>
    rw [untilStarts] at h
    rw [repeatUntil]
    cases before with
    | nil =>
      obtain ⟨rfl, rfl⟩ := List.cons.inj h
      rw [Outcome.whenDone, hdone, Outcome.andThen_of_none hdone, hstop]
      exact ⟨rfl, (Outcome.eq_done hdone).symm⟩
    | cons first before =>
      obtain ⟨rfl, hrest⟩ := List.cons.inj h
      obtain ⟨hfault, hrest⟩ := Outcome.whenDone_eq_cons hrest
      rw [Outcome.andThen_of_none hfault]
      -- a further pass starts only in a running state in which the test has failed
      split at hrest
      · rw [if_pos ‹_›]
        split at hrest
        · rename_i htest
          rw [htest]
          exact ih hrest
        · simp at hrest
      · simp at hrest

end

/-- A paragraph is not run again behind a pass that stops the run. -/
theorem paragraphStarts_last {m : Machine} {nested : List Text → State → Outcome}
    {label : Text} {body : List Text} (hbody : m.paragraphs.get? (upper label) = some body)
    {repetition : Repetition} {s t : State} {before after : List State}
    (h : paragraphStarts (nested body) m.passes repetition s = before ++ t :: after)
    (hdone : (nested body t).fault = none) (hstop : (nested body t).state.running = false) :
    after = [] ∧ runParagraph m nested label repetition s = nested body t := by
  rw [runParagraph, hbody]
  cases repetition with
  | once =>
    rw [paragraphStarts] at h
    cases before with
    | nil =>
      obtain ⟨rfl, rfl⟩ := List.cons.inj h
      exact ⟨rfl, rfl⟩
    | cons first before => simp at h
  | times count =>
    rw [paragraphStarts] at h
    split at h
    · simp at h
    · rename_i n hcount
      dsimp only
      rw [hcount]
      exact timesStarts_last h hdone hstop
  | untilTrue condition => exact untilStarts_last h hdone hstop

/-! ### Blocks -/

/-- A stop is final in a run from `s` with the given moments and outcome. -/
structure StopIsFinal (s : State) (ms : List Moment) (o : Outcome) : Prop where
  /-- The run flag is never set: where it is set at the end or at a moment, it was set before. -/
  antitone : (s.running :: (ms.map (·.state.running) ++ [o.state.running])).Pairwise
    fun earlier later ↦ later = true → earlier = true
  /-- Nothing is executed, tested or evaluated in a stopped state. -/
  running : ∀ moment ∈ ms, moment.state.running = true
  /-- `STOP RUN` and `GOBACK` are the last thing that is done: the run ends without a fault, in the
  state in which the statement was met, with the flag cleared. -/
  last : ∀ {before after : List Moment} {allowance : Nat} {text : Text} {t : State},
    ms = before ++ ⟨allowance, .statement text, t⟩ :: after →
    Verb.ofStatement text = .stopRun ∨ Verb.ofStatement text = .goBack →
    after = [] ∧ o = (({ t with running := false } : State).note (.stopped (trim text))).done
  /-- Nothing else clears the flag. -/
  cause : s.running = true → o.state.running = false →
    ∃ before allowance text t, ms = before ++ [⟨allowance, .statement text, t⟩] ∧
      (Verb.ofStatement text = .stopRun ∨ Verb.ofStatement text = .goBack)
  /-- From a stopped state on, nothing is done and nothing changes. -/
  idle : s.running = false → ms = [] ∧ o.state = s

namespace Chained

variable {m : Machine} {s : State} {ms : List Moment} {o : Outcome}

/-- **Stopping is final along a chain**: the moments before a stop run, the stop is the last, and
the outcome is stopped. -/
theorem stopIsFinal (h : Chained m s ms o) : StopIsFinal s ms o where
  antitone := by
    -- only the last flag can be cleared, unless the run starts stopped and does nothing
    cases hs : s.running with
    | true =>
      have hflags : ∀ flag ∈ ms.map (·.state.running), flag = true := by
        rintro _ hflag
        obtain ⟨moment, hmoment, rfl⟩ := List.mem_map.1 hflag
        exact h.running moment hmoment
      refine List.pairwise_cons.2 ⟨fun _ _ _ ↦ rfl, List.pairwise_append.2 ⟨?_, ?_, ?_⟩⟩
      · exact List.pairwise_of_forall_mem_list fun flag hflag _ _ _ ↦ hflags flag hflag
      · exact List.pairwise_singleton _ _
      · exact fun flag hflag _ _ _ ↦ hflags flag hflag
    | false =>
      obtain ⟨rfl, rfl⟩ := h.eq_done_of_stopped hs
      simp [State.done, hs]
  running := h.running
  last := by
    rintro before after allowance text t rfl hverb
    have hstops : Moment.Stops ⟨allowance, .statement text, t⟩ := Moment.stops_iff.2 hverb
    have hown := Moment.own_of_stops (m := m) hstops
    obtain ⟨hafter, ho⟩ := h.last (by rw [hown]; rfl)
    exact ⟨hafter, ho.trans hown⟩
  cause hs ho := by
    obtain ⟨before, ⟨allowance, deed, t⟩, rfl, text, rfl, hstop⟩ := h.exists_stops hs ho
    exact ⟨before, allowance, text, t, rfl, Action.ofText_eq_stop_iff.1 hstop⟩
  idle hs := by
    obtain ⟨hms, ho⟩ := h.eq_done_of_stopped hs
    exact ⟨hms, by rw [ho]; rfl⟩

/-- A run that is stopped on the way ends without a fault. -/
theorem fault_eq_none_of_stopped (h : Chained m s ms o) (hs : s.running = true)
    (ho : o.state.running = false) : o.fault = none := by
  obtain ⟨before, allowance, text, t, hms, hverb⟩ := h.stopIsFinal.cause hs ho
  obtain ⟨-, ho⟩ := h.stopIsFinal.last hms hverb
  rw [ho]
  rfl

end Chained

/-- Lines in a stopped run have no moments. -/
theorem traceLines_of_stopped {m : Machine} {allowance : Nat} {nested : List Text → State → Traced}
    (lines : List Text) {s : State} (hs : s.running = false) :
    traceLines m allowance nested lines s = { outcome := s.done } := by
  cases lines with
  | nil => rw [traceLines]
  | cons line following => rw [traceLines, if_neg (by simp [hs])]

/-- A block in a stopped run has no moments. -/
theorem moments_of_stopped (m : Machine) (allowance : Nat) (lines : List Text) {s : State}
    (hs : s.running = false) : moments m allowance lines s = [] := by
  cases allowance with
  | zero => rfl
  | succ allowance => rw [moments, traceBlock, traceLines_of_stopped lines hs]

/-- A block in a stopped run does nothing. -/
theorem executeBlock_of_stopped (m : Machine) (allowance : Nat) (lines : List Text) {s : State}
    (hs : s.running = false) : executeBlock m (allowance + 1) lines s = s.done := by
  rw [← outcome_traceBlock, traceBlock, traceLines_of_stopped lines hs]

/-- A block in a stopped run leaves the state, also without an allowance. -/
theorem state_executeBlock_of_stopped (m : Machine) (allowance : Nat) (lines : List Text)
    {s : State} (hs : s.running = false) : (executeBlock m allowance lines s).state = s := by
  cases allowance with
  | zero => rfl
  | succ allowance =>
    rw [executeBlock_of_stopped m allowance lines hs]
    rfl

/-- Where nothing happens stopping is final. -/
theorem stopIsFinal_nil {s : State} {o : Outcome} (h : o.state = s) : StopIsFinal s [] o where
  antitone := by simp [h]
  running := nofun
  last hms := by simp at hms
  cause hs ho := by
    rw [h, hs] at ho
    cases ho
  idle _ := ⟨rfl, h⟩

/-- Stopping is final for the moments of a block. -/
theorem stopIsFinal_moments (m : Machine) (allowance : Nat) (lines : List Text) (s : State) :
    StopIsFinal s (moments m allowance lines s) (executeBlock m allowance lines s) := by
  cases hs : s.running with
  | true => exact (chained_moments m allowance lines hs).stopIsFinal
  | false =>
    rw [moments_of_stopped m allowance lines hs]
    exact stopIsFinal_nil (state_executeBlock_of_stopped m allowance lines hs)

/-- **A stop is final.** The moments of a block lead to its outcome, and a stop among them is the
end of both; a block that starts stopped does nothing; and a loop ends with the pass in which its
paragraph stops the run, without a further test. -/
theorem stopIsFinal_executeBlock (m : Machine) (allowance : Nat) (lines : List Text) (s : State) :
    (s.running = true →
      Chained m s (moments m allowance lines s) (executeBlock m allowance lines s)) ∧
    StopIsFinal s (moments m allowance lines s) (executeBlock m allowance lines s) ∧
    (s.running = false → executeBlock m (allowance + 1) lines s = s.done) ∧
    ∀ {label : Text} {body : List Text}, m.paragraphs.get? (upper label) = some body →
      ∀ {repetition : Repetition} {before after : List State} {t : State},
        paragraphStarts (executeBlock m allowance body) m.passes repetition s =
          before ++ t :: after →
        t.running = true → (executeBlock m allowance body t).state.running = false →
        after = [] ∧ runParagraph m (executeBlock m allowance) label repetition s =
          executeBlock m allowance body t := by
  refine ⟨chained_moments m allowance lines, stopIsFinal_moments m allowance lines s,
    executeBlock_of_stopped m allowance lines, ?_⟩
  intro label body hbody repetition before after t hstarts ht hstop
  have hdone : (executeBlock m allowance body t).fault = none :=
    (chained_moments m allowance body ht).fault_eq_none_of_stopped ht hstop
  exact paragraphStarts_last hbody hstarts hdone hstop

/-- A machine with a paragraph that displays a line and stops the run. -/
def halting : Machine where
  paragraphs := ⟨[("HALT".toList,
    ["DISPLAY 'IN'.", "STOP RUN.", "DISPLAY 'NO'."].map String.toList)]⟩
  passes := 9

/-- Lines that run the paragraph in an endless loop inside a block. -/
def haltingLines : List Text :=
  ["IF 1 = 1", "PERFORM HALT UNTIL 1 = 2", "DISPLAY 'NO'", "END-IF.", "DISPLAY 'NO'."].map
    String.toList

/-- The stop is three levels deep, and the only line displayed is the one before it. -/
theorem stopIsFinal_executeBlock_halting :
    (executeBlock halting 9 haltingLines {}).state.output = #["IN".toList] ∧
      (moments halting 9 haltingLines {}).length = 5 ∧
      StopIsFinal {} (moments halting 9 haltingLines {}) (executeBlock halting 9 haltingLines {}) :=
  ⟨by decide +kernel, by decide +kernel, (stopIsFinal_executeBlock halting 9 haltingLines {}).2.1⟩

end Cobol
