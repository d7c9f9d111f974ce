import Cobol.Proofs.Block.Composition
import Cobol.Proofs.Condition
import Cobol.Proofs.Stop
import Cobol.Proofs.Termination

/-!
# Loops and their passes

A loop over a paragraph is its passes one after the other.

* `PERFORM … TIMES` does what a block of as many calls of the paragraph does. The number is settled
  before the first pass, so nothing that the body does changes it.
* `PERFORM … UNTIL` finishes if and only if there is a last pass: the passes before it end without a
  fault in states in which the run goes on and the condition is false, and it ends in one in which
  the run is stopped or the condition is true (`IsLoop`). The loop then ends where that pass ends.

A loop that never finishes has no outcome within any limits, so the second law is about what is
reached with enough allowance and passes (`Finishes`). By `outlasts_executeBlock` it does not matter
how much more there is, which gives the passes of one loop limits in common.

## Shape decisions

* The passes are a list of states between them (`IsLoop`). What is said of the last pass is said of
  a state of this list, so no number of passes has to be named.
* The condition is tested behind every pass and never in front of the first. A loop that is to end
  without a pass cannot be written.
* Calls are lines, so that `TIMES` is compared with a block that a program could hold.
-/

namespace Cobol

open Text

/-! ### The sentences -/

/-- The sentence that runs a paragraph as often as an operand says. -/
def timesSentence (label count : Text) : Text :=
  "PERFORM".toList ++ ' ' :: (label ++ ' ' :: (count ++ ' ' :: "TIMES".toList))

/-- The sentence that runs a paragraph until a condition is true. -/
def untilSentence (label condition : Text) : Text :=
  "PERFORM".toList ++ ' ' :: (label ++ ' ' :: ("UNTIL".toList ++ ' ' :: condition))

theorem ofStatement_perform (t : Text) :
    Verb.ofStatement ("PERFORM".toList ++ ' ' :: t) = .perform :=
  (Verb.ofStatement_keyword (by decide) (by decide) (by decide) t).trans (by decide +kernel)

/-- A sentence with the words of a call, and more behind them, asks for repeated calls. -/
theorem Action.ofText_of_words {label t : Text} (hne : label ≠ [])
    (hblank : ∀ c ∈ label, isBlank c = false)
    (hlast : (trimRight ("PERFORM".toList ++ ' ' :: (label ++ ' ' :: t))).getLast? ≠ some '.') :
    Action.ofText (trim ("PERFORM".toList ++ ' ' :: (label ++ ' ' :: t))) =
      .perform label (repetitionOf (words t)) := by
  have hparts := (words_keyword (show IsLabel "PERFORM".toList by decide) (label ++ ' ' :: t)).2
  rw [Action.ofText_of_perform (ofStatement_perform _),
    Sentence.words_dropPeriod_of_getLast? hlast, hparts,
    words_word_append hne hblank rfl]
  rfl

/-- What a text ends in is decided by a part at its end that is not blank. -/
theorem getLast?_trimRight_of_suffix {s t : Text} (h : t <:+ s) (hblank : ¬AllBlank t) :
    (trimRight s).getLast? = (trimRight t).getLast? := by
  obtain ⟨before, rfl⟩ := h
  obtain ⟨c, rest, ht⟩ := List.exists_cons_of_ne_nil (mt trimRight_eq_nil_iff.1 hblank)
  rw [trimRight_append_of_not_allBlank before hblank, List.getLast?_append, ht, List.getLast?_cons]
  rfl

/-- What stands behind the label stands at the end of the sentence. -/
theorem suffix_perform (label t : Text) : t <:+ "PERFORM".toList ++ ' ' :: (label ++ ' ' :: t) :=
  ((List.suffix_cons ' ' t).trans (List.suffix_append label _)).trans
    ((List.suffix_cons ' ' _).trans (List.suffix_append _ _))

/-- In front of the word `TIMES` a word counts the calls. -/
theorem Action.repetitionOf_times {count : Text} (huntil : upper count ≠ "UNTIL".toList) :
    Action.repetitionOf [count, "TIMES".toList] = .times count := by
  have hcount : (upper count != "UNTIL".toList) = true := bne_iff_ne.2 huntil
  have htimes : (upper "TIMES".toList != "UNTIL".toList) = true := by decide +kernel
  have hnone : ([count, "TIMES".toList].dropWhile fun w ↦ upper w != "UNTIL".toList) = [] := by
    simp only [List.dropWhile_cons, hcount, htimes, if_true, List.dropWhile_nil]
  rw [Action.repetitionOf, hnone]
  exact if_pos (by decide +kernel)

/-- Behind the word `UNTIL` the words are a condition. -/
theorem Action.repetitionOf_until (rest : List Text) :
    Action.repetitionOf ("UNTIL".toList :: rest) = .untilTrue ([' '].intercalate rest) := by
  have huntil : (upper "UNTIL".toList != "UNTIL".toList) = false := by decide +kernel
  have hhead : (("UNTIL".toList :: rest).dropWhile fun w ↦ upper w != "UNTIL".toList) =
      "UNTIL".toList :: rest := by
    simp only [List.dropWhile_cons, huntil, Bool.false_eq_true, if_false]
  simp only [Action.repetitionOf, hhead]

/-- The sentence `PERFORM … TIMES` asks for a counted loop. -/
theorem ofText_timesSentence {label count : Text} (hlabel : label ≠ [])
    (hlabelBlank : ∀ c ∈ label, isBlank c = false) (hcount : count ≠ [])
    (hcountBlank : ∀ c ∈ count, isBlank c = false) (huntil : upper count ≠ "UNTIL".toList) :
    Action.ofText (trim (timesSentence label count)) = .perform label (.times count) := by
  have hsuffix : "TIMES".toList <:+ timesSentence label count :=
    ((List.suffix_cons ' ' _).trans (List.suffix_append count _)).trans (suffix_perform label _)
  have hlast : (trimRight (timesSentence label count)).getLast? ≠ some '.' :=
    (getLast?_trimRight_of_suffix hsuffix (by decide +kernel)).trans_ne (by decide +kernel)
  have hwords : words (count ++ ' ' :: "TIMES".toList) = [count, "TIMES".toList] :=
    (words_word_append hcount hcountBlank (by decide : isBlank ' ' = true) _).trans
      (congrArg _ (words_of_forall_not (by decide) (by decide)))
  exact (Action.ofText_of_words hlabel hlabelBlank hlast).trans
    (by rw [hwords, Action.repetitionOf_times huntil])

/-- The sentence `PERFORM … UNTIL` asks for a loop on the words of its condition. -/
theorem ofText_untilSentence {label condition : Text} (hlabel : label ≠ [])
    (hlabelBlank : ∀ c ∈ label, isBlank c = false)
    (hcondition : (trimRight condition).getLast? ≠ some '.') :
    Action.ofText (trim (untilSentence label condition)) =
      .perform label (.untilTrue ([' '].intercalate (words condition))) := by
  have hkeyword : ¬AllBlank ("UNTIL".toList ++ ' ' :: condition) := fun h ↦
    absurd (allBlank_append.1 h).1 (by decide +kernel)
  have hbehind : (trimRight ("UNTIL".toList ++ ' ' :: condition)).getLast? ≠ some '.' := by
    by_cases hblank : AllBlank condition
    · -- behind a condition of blanks the sentence ends in its keyword
      have hspace : AllBlank (' ' :: condition) := allBlank_cons.2 ⟨by decide, hblank⟩
      exact (congrArg _ (trimRight_append_of_allBlank _ hspace)).trans_ne (by decide +kernel)
    · have hsuffix : condition <:+ "UNTIL".toList ++ ' ' :: condition :=
        (List.suffix_cons ' ' _).trans (List.suffix_append _ _)
      exact (getLast?_trimRight_of_suffix hsuffix hblank).trans_ne hcondition
  have hlast : (trimRight (untilSentence label condition)).getLast? ≠ some '.' :=
    (getLast?_trimRight_of_suffix (suffix_perform label _) hkeyword).trans_ne hbehind
  have hwords : words ("UNTIL".toList ++ ' ' :: condition) = "UNTIL".toList :: words condition :=
    (words_keyword (by decide) condition).2
  exact (Action.ofText_of_words hlabel hlabelBlank hlast).trans
    (by rw [hwords, Action.repetitionOf_until])

/-! ### Counted loops -/

section

variable {m : Machine} {allowance : Nat} {nested : List Text → State → Outcome}

/-- Calls behind each other are the passes of a counted loop over what one of them does. -/
theorem executeLines_replicate_call {call label : Text} (hcall : IsCall call label)
    (more : List Text) (n : Nat) (s : State) :
    executeLines m allowance nested (List.replicate n call ++ more) s =
      (repeatTimes (runParagraph m nested label .once) n s).andThen
        (executeLines m allowance nested more) := by
  induction n generalizing s with
  | zero => rfl
  | succ n ih =>
    by_cases hs : s.running = true
    · have hexecute (following : List Text) : execute m allowance nested call following s =
          runParagraph m nested label .once s := by
        rw [execute, hcall.asks, perform]
      rw [List.replicate_succ, List.cons_append, executeLines_cons hs, hexecute,
        unread_of_not_opener (hcall.flat .conditional) (hcall.flat .choice), funext ih,
        repeatTimes, if_pos hs, Outcome.andThen_assoc]
    · rw [executeLines_of_stopped hs, repeatTimes, if_neg hs, State.done_andThen,
        executeLines_of_stopped hs]

end

/-- A loop over something that only leaves notes shows nothing. -/
theorem visible_repeatTimes_note (n : Note) (k : Nat) (s : State) :
    (repeatTimes (fun s ↦ (s.note n).done) k s).visible = s.done.visible := by
  induction k generalizing s with
  | zero => rfl
  | succ k ih =>
    rw [repeatTimes]
    split
    · exact ih (s.note n)
    · rfl

/-- **A counted loop is a block of calls**, also of a paragraph that does not exist. -/
theorem visible_executeBlock_times (m : Machine) (allowance : Nat) {label count call : Text}
    (hlabel : IsLabel label) (hcall : call ∈ callsOf label) (hcount : count ≠ [])
    (hblank : ∀ c ∈ count, isBlank c = false) (huntil : upper count ≠ "UNTIL".toList) {s : State}
    {n : Int} (hn : (operandValue s.store count >>= Value.integer) = .ok n) (more : List Text) :
    (executeBlock m allowance (timesSentence label count :: more) s).visible =
      (executeBlock m allowance (List.replicate n.toNat call ++ more) s).visible := by
  cases allowance with
  | zero =>
    rw [executeBlock]
  | succ allowance =>
    rw [executeBlock, executeLines_replicate_call (isCall_of_mem_callsOf hlabel hcall)]
    by_cases hs : s.running = true
    · have hasks := ofText_timesSentence hlabel.1 hlabel.isPlain.not_blank hcount hblank huntil
      have hflat (k : BlockKind) : Verb.ofStatement (timesSentence label count) ≠ k.opener :=
        (ofStatement_perform _).trans_ne (by cases k <;> decide)
      rw [executeLines_cons hs, unread_of_not_opener (hflat .conditional) (hflat .choice), execute,
        hasks, perform]
      -- both runs are loops in front of the same lines, which cannot tell the journals apart
      refine Similar.andThen_visible ?_ (similar_executeBlock m (allowance + 1) more)
      cases hbody : m.paragraphs.get? (upper label) with
      | none =>
        have hcalls : runParagraph m (executeBlock m allowance) label .once =
            fun s ↦ (s.note (.unknownParagraph (upper label))).done :=
          funext fun s ↦ by rw [runParagraph, hbody]
        rw [hcalls, visible_repeatTimes_note, runParagraph, hbody]
        rfl
      | some body =>
        have hcalls : runParagraph m (executeBlock m allowance) label .once =
            executeBlock m allowance body := funext fun s ↦ by rw [runParagraph, hbody]
        rw [hcalls, runParagraph, hbody]
        dsimp only
        rw [hn]
    · rw [executeLines_of_stopped hs]
      cases n.toNat with
      | zero => rw [repeatTimes, State.done_andThen, executeLines_of_stopped hs]
      | succ k => rw [repeatTimes, if_neg hs, State.done_andThen, executeLines_of_stopped hs]

/-! ### Conditional loops -/

/-- The states between the passes of a loop that ends behind its `k`-th pass: each pass leads from
one to the next, the run goes on and the test fails in those before the last, and the last is the
first in which the run is stopped or the test holds. -/
structure IsLoop (pass : State → State → Prop) (test : State → Except Fault Bool) (k : Nat)
    (states : Nat → State) : Prop where
  /-- There is a pass. -/
  pos : 0 < k
  /-- A pass leads from each state to the next. -/
  pass : ∀ i < k, pass (states i) (states (i + 1))
  /-- Between two passes the run goes on and the test fails. -/
  again : ∀ i, 0 < i → i < k → (states i).running = true ∧ test (states i) = .ok false
  /-- Behind the last pass the run is stopped or the test holds. -/
  last : (states k).running = false ∨ test (states k) = .ok true

/-- Two executions end without a fault exactly if the first does and the second does from where the
first ended. -/
theorem Outcome.andThen_eq_done_iff {o : Outcome} {next : State → Outcome} {t : State} :
    o.andThen next = t.done ↔ ∃ u, o = u.done ∧ next u = t.done := by
  obtain ⟨u, fault⟩ := o
  cases fault with
  | none => exact ⟨fun h ↦ ⟨u, rfl, h⟩, fun ⟨_, hu, h⟩ ↦ by cases hu; exact h⟩
  | some fault => exact ⟨nofun, fun ⟨_, hu, _⟩ ↦ by cases hu⟩

section

variable {pass : State → State → Prop} {body : State → Outcome}
  {test : State → Except Fault Bool} {s t u : State}

/-- One pass behind which the loop ends. -/
theorem IsLoop.single (hpass : pass s t) (hlast : t.running = false ∨ test t = .ok true) :
    IsLoop pass test 1 fun i ↦ if i = 0 then s else t where
  pos := Nat.one_pos
  pass i hi := by
    obtain rfl : i = 0 := Nat.lt_one_iff.1 hi
    exact hpass
  again _ hpos hi := absurd hi (Nat.not_lt.2 hpos)
  last := hlast

/-- A pass in front of those of a loop. -/
theorem IsLoop.cons {k : Nat} {states : Nat → State} (h : IsLoop pass test k states)
    (hpass : pass s (states 0)) (hrunning : (states 0).running = true)
    (htest : test (states 0) = .ok false) :
    IsLoop pass test (k + 1) fun i ↦ i.casesOn s states where
  pos := Nat.succ_pos k
  pass
    | 0, _ => hpass
    | i + 1, hi => h.pass i (Nat.lt_of_succ_lt_succ hi)
  again
    | 1, _, _ => ⟨hrunning, htest⟩
    | i + 2, _, hi => h.again (i + 1) (Nat.succ_pos i) (Nat.lt_of_succ_lt_succ hi)
  last := h.last

/-- The passes behind the first one. -/
theorem IsLoop.tail {k : Nat} {states : Nat → State} (h : IsLoop pass test (k + 2) states) :
    IsLoop pass test (k + 1) fun i ↦ states (i + 1) where
  pos := Nat.succ_pos k
  pass i hi := h.pass (i + 1) (Nat.succ_lt_succ hi)
  again i _ hi := h.again (i + 1) (Nat.succ_pos i) (Nat.succ_lt_succ hi)
  last := h.last

/-- The passes of a loop may be seen as those of another relation. -/
theorem IsLoop.mono {pass' : State → State → Prop} {k : Nat} {states : Nat → State}
    (h : IsLoop pass test k states)
    (hpass : ∀ i < k, pass (states i) (states (i + 1)) → pass' (states i) (states (i + 1))) :
    IsLoop pass' test k states where
  pos := h.pos
  pass i hi := hpass i hi (h.pass i hi)
  again := h.again
  last := h.last

/-- **A conditional loop finishes with its last pass**, if its number of passes allows one. -/
theorem repeatUntil_eq_done_iff {passes : Nat} :
    repeatUntil body test passes s = t.done ↔
      ∃ k states, k ≤ passes ∧ IsLoop (fun u v ↦ body u = v.done) test k states ∧
        states 0 = s ∧ states k = t := by
  induction passes generalizing s with
  | zero =>
    refine ⟨nofun, ?_⟩
    rintro ⟨k, states, hk, hloop, -⟩
    exact absurd hloop.pos (Nat.not_lt.2 hk)
  | succ passes ih =>
    rw [repeatUntil, Outcome.andThen_eq_done_iff]
    constructor
    · rintro ⟨u, hpass, hnext⟩
      by_cases hrunning : u.running = true
      · rw [if_pos hrunning] at hnext
        cases htest : test u with
        | error fault =>
          rw [htest] at hnext
          cases hnext
        | ok found =>
          rw [htest] at hnext
          cases found with
          | true =>
            cases hnext
            exact ⟨1, _, Nat.succ_pos _, .single hpass (Or.inr htest), rfl, rfl⟩
          | false =>
            obtain ⟨k, states, hk, hloop, rfl, hend⟩ := ih.1 hnext
            exact ⟨k + 1, _, Nat.succ_le_succ hk, hloop.cons hpass hrunning htest, rfl, hend⟩
      · rw [if_neg hrunning] at hnext
        cases hnext
        exact ⟨1, _, Nat.succ_pos _, .single hpass (Or.inl (by simpa using hrunning)), rfl, rfl⟩
    · rintro ⟨k, states, hk, hloop, rfl, rfl⟩
      refine ⟨states 1, hloop.pass 0 hloop.pos, ?_⟩
      -- the first pass is the last one, or the states behind it are a shorter loop
      rcases Nat.eq_or_lt_of_le (Nat.succ_le_of_lt hloop.pos) with rfl | hmore
      · rcases hloop.last with hstopped | htest
        · rw [if_neg (by simp [hstopped])]
        · split
          · rw [htest]
          · rfl
      · obtain ⟨k, rfl⟩ := Nat.exists_eq_add_of_le' hmore
        obtain ⟨hrunning, htest⟩ := hloop.again 1 Nat.one_pos hmore
        rw [if_pos hrunning, htest]
        exact ih.2 ⟨k + 1, _, Nat.le_of_succ_le_succ hk, hloop.tail, rfl, rfl⟩

end

/-! ### What is reached without limits -/

/-- With enough allowance and passes, the lines executed in one state end in another without a
fault. -/
def Finishes (paragraphs : Table (List Text)) (lines : List Text) (s t : State) : Prop :=
  ∃ passes allowance, executeBlock ⟨paragraphs, passes⟩ allowance lines s = t.done

section

variable {paragraphs : Table (List Text)} {passes passes' allowance allowance' : Nat}
  {lines : List Text} {s t : State}

/-- What has finished finishes alike with more allowance and passes. -/
theorem executeBlock_eq_done_of_le
    (h : executeBlock ⟨paragraphs, passes⟩ allowance lines s = t.done) (hpasses : passes ≤ passes')
    (hallowance : allowance ≤ allowance') :
    executeBlock ⟨paragraphs, passes'⟩ allowance' lines s = t.done := by
  obtain ⟨more, rfl⟩ := Nat.exists_eq_add_of_le hallowance
  have hroom : IsRoomier Fault.IsLimit ⟨paragraphs, passes⟩ ⟨paragraphs, passes'⟩ :=
    ⟨rfl, Or.inr ⟨hpasses, Or.inr rfl⟩⟩
  rw [outlasts_executeBlock (Or.inl rfl) hroom allowance more lines s (by rw [h]; nofun), h]

/-- Finitely many executions that finish do so within the same limits. -/
theorem exists_common_limits {k : Nat} {states : Nat → State}
    (h : ∀ i < k, Finishes paragraphs lines (states i) (states (i + 1))) :
    ∃ passes allowance, ∀ i < k,
      executeBlock ⟨paragraphs, passes⟩ allowance lines (states i) = (states (i + 1)).done := by
  induction k with
  | zero => exact ⟨0, 0, nofun⟩
  | succ k ih =>
    obtain ⟨passes, allowance, hbefore⟩ := ih fun i hi ↦ h i (Nat.lt_succ_of_lt hi)
    obtain ⟨passes', allowance', hlast⟩ := h k (Nat.lt_succ_self k)
    refine ⟨max passes passes', max allowance allowance', fun i hi ↦ ?_⟩
    rcases Nat.lt_succ_iff_lt_or_eq.1 hi with hi | rfl
    · exact executeBlock_eq_done_of_le (hbefore i hi) (Nat.le_max_left ..) (Nat.le_max_left ..)
    · exact executeBlock_eq_done_of_le hlast (Nat.le_max_right ..) (Nat.le_max_right ..)

end

section

variable {paragraphs : Table (List Text)} {label condition : Text} {body : List Text}
  (hlabel : label ≠ []) (hblank : ∀ c ∈ label, isBlank c = false)
  (hbody : paragraphs.get? (upper label) = some body)
  (hcondition : (trimRight condition).getLast? ≠ some '.')

include hlabel hblank hbody hcondition

/-- The sentence is a loop over the paragraph, also in a stopped state: such a loop does nothing. -/
theorem executeBlock_untilSentence (passes allowance : Nat) (s : State) :
    executeBlock ⟨paragraphs, passes + 1⟩ (allowance + 2) [untilSentence label condition] s =
      repeatUntil (executeBlock ⟨paragraphs, passes + 1⟩ (allowance + 1) body)
        (fun u ↦ Condition.holds u.store condition) (passes + 1) s := by
  cases hs : s.running with
  | true =>
    have hjoined (store : Store) :
        Condition.holds store ([' '].intercalate (words condition)) =
          Condition.holds store condition :=
      Condition.holds_congr
        (words_intercalate (fun _ ↦ ne_nil_of_mem_words) fun _ ↦ not_blank_of_mem_words) store
    have hflat (k : BlockKind) : Verb.ofStatement (untilSentence label condition) ≠ k.opener :=
      (ofStatement_perform _).trans_ne (by cases k <;> decide)
    have hnothing : executeLines ⟨paragraphs, passes + 1⟩ (allowance + 1)
        (executeBlock ⟨paragraphs, passes + 1⟩ (allowance + 1)) [] = State.done :=
      executeBlock_nil ⟨paragraphs, passes + 1⟩ (allowance + 1)
    rw [executeBlock, executeLines_cons hs,
      unread_of_not_opener (hflat .conditional) (hflat .choice), hnothing, Outcome.andThen_done,
      execute,
      ofText_untilSentence hlabel hblank hcondition, perform, runParagraph, hbody]
    dsimp only
    simp only [hjoined]
  | false =>
    rw [executeBlock_of_stopped _ _ _ hs, repeatUntil, executeBlock_of_stopped _ _ _ hs,
      State.done_andThen, if_neg (by simp [hs])]

/-- The sentence finishes with its last pass, and only with one. -/
theorem finishes_untilSentence (s t : State) :
    Finishes paragraphs [untilSentence label condition] s t ↔
      ∃ k states, IsLoop (Finishes paragraphs body) (fun u ↦ Condition.holds u.store condition) k
        states ∧ states 0 = s ∧ states k = t := by
  have hsentence := executeBlock_untilSentence hlabel hblank hbody hcondition
  constructor
  · rintro ⟨passes, allowance, hfinishes⟩
    have hloop := executeBlock_eq_done_of_le hfinishes (Nat.le_succ passes)
      (Nat.le_add_right allowance 2)
    rw [hsentence, repeatUntil_eq_done_iff] at hloop
    obtain ⟨k, states, -, hloop, hstart, hend⟩ := hloop
    exact ⟨k, states, hloop.mono fun _ _ hpass ↦ ⟨_, _, hpass⟩, hstart, hend⟩
  · rintro ⟨k, states, hloop, hstart, hend⟩
    -- the passes may need different limits, and the loop must also be allowed as many of them
    obtain ⟨passes, allowance, hpasses⟩ := exists_common_limits hloop.pass
    have hmachine : IsLoop
        (fun u v ↦ executeBlock ⟨paragraphs, passes + k + 1⟩ (allowance + 1) body u = v.done)
        (fun u ↦ Condition.holds u.store condition) k states :=
      hloop.mono fun i hi _ ↦
        executeBlock_eq_done_of_le (hpasses i hi) (by omega) (Nat.le_succ allowance)
    refine ⟨passes + k + 1, allowance + 2, ?_⟩
    rw [hsentence]
    exact repeatUntil_eq_done_iff.2 ⟨k, states, by omega, hmachine, hstart, hend⟩

end

/-! ### Both loops -/

/-- **Loops unroll.** A counted loop is a block of as many calls, whatever the body does to the
count; a conditional loop finishes if and only if it has a last pass, and where that pass ends. -/
theorem loops_unroll (m : Machine) (s : State) :
    (∀ {label count : Text}, IsLabel label → count ≠ [] → (∀ c ∈ count, isBlank c = false) →
      upper count ≠ "UNTIL".toList →
      ∀ {n : Int}, (operandValue s.store count >>= Value.integer) = .ok n →
        ∀ call ∈ callsOf label, ∀ allowance more,
          (executeBlock m allowance (timesSentence label count :: more) s).visible =
            (executeBlock m allowance (List.replicate n.toNat call ++ more) s).visible) ∧
    ∀ {label condition : Text} {body : List Text}, label ≠ [] →
      (∀ c ∈ label, isBlank c = false) → m.paragraphs.get? (upper label) = some body →
      (trimRight condition).getLast? ≠ some '.' →
      ∀ t, Finishes m.paragraphs [untilSentence label condition] s t ↔
        ∃ k states, IsLoop (Finishes m.paragraphs body)
          (fun u ↦ Condition.holds u.store condition) k states ∧ states 0 = s ∧ states k = t :=
  ⟨fun hlabel hcount hblank huntil _ hn _ hcall allowance more ↦
      visible_executeBlock_times m allowance hlabel hcall hcount hblank huntil hn more,
    fun hlabel hblank hbody hcondition t ↦
      finishes_untilSentence hlabel hblank hbody hcondition s t⟩

/-- A machine with a paragraph that counts up one slot and clears another. -/
def draining : Machine where
  paragraphs := ⟨[("P".toList, ["ADD 1 TO X.", "MOVE 0 TO N."].map String.toList)]⟩
  passes := 9

/-- A state with both slots. -/
def drainingStart : State where
  store := { values := ⟨[("X".toList, .number 0), ("N".toList, .number 3)]⟩ }

/-- The first of three passes clears the count; the conditional loop ends behind its second pass. -/
theorem loops_unroll_draining :
    (executeBlock draining 9 [timesSentence "P".toList "N".toList]
        drainingStart).state.store.get "X".toList = .number 3 ∧
      (executeBlock draining 9 [timesSentence "P".toList "N".toList] drainingStart).visible =
        (executeBlock draining 9 (List.replicate 3 "GOTO P".toList ++ []) drainingStart).visible ∧
      ∃ k states, IsLoop (Finishes draining.paragraphs (["ADD 1 TO X.", "MOVE 0 TO N."].map
          String.toList)) (fun u ↦ Condition.holds u.store "X > 1".toList) k states ∧
        states 0 = drainingStart ∧ (states k).store.get "X".toList = .number 2 := by
  have hunroll := loops_unroll draining drainingStart
  have hlabel : IsLabel "P".toList := by decide
  have hcount : (operandValue drainingStart.store "N".toList >>= Value.integer) = .ok 3 := by
    decide +kernel
  have hcounted := hunroll.1 hlabel (by decide) (by decide) (by decide +kernel) hcount
    "GOTO P".toList (by decide) 9 []
  have hfinishes : Finishes draining.paragraphs [untilSentence "P".toList "X > 1".toList]
      drainingStart
      (executeBlock draining 9 [untilSentence "P".toList "X > 1".toList] drainingStart).state :=
    ⟨9, 9, Outcome.eq_done (by decide +kernel)⟩
  refine ⟨by decide +kernel, hcounted, ?_⟩
  obtain ⟨k, states, hloop, hstart, hend⟩ :=
    (hunroll.2 hlabel.1 hlabel.isPlain.not_blank rfl (by decide +kernel) _).1 hfinishes
  exact ⟨k, states, hloop, hstart, by rw [hend]; decide +kernel⟩

end Cobol
