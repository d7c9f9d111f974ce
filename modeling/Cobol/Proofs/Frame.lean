import Cobol.Proofs.Forward
import Cobol.Proofs.Origin

/-!
# No stray writes

The targets of a statement are cut out of its text, each verb in its own way, and a statement is a
part of a line of the program. So a run writes no slot whose name does not stand somewhere in the
program, in any case.

* `Action.isInfix_of_mem_targets`: the targets of a statement stand in it.
* `Moment.keeps_slot` is the step, and `Chained.keeps` the run: what no moment changes is the same
  at every moment and at the end, also of a run that fails.
* `keeps_slot_executeBlock`: the slots that the lines of a program do not name.

## Shape decisions

* A target is what the executor writes, and it is found by the same cuts that the executor makes. So
  the law says that the name stands in the text of the statement, and not that it is a word of it.
* Names are compared in upper case throughout, because slots are.
* The result is not restricted to lines that are reached. Which lines these are depends on the
  state; which names stand in the program does not.
-/

namespace Cobol

open Text Sentence

/-! ### The targets of a statement -/

namespace Action

/-- The targets of a `MOVE` stand in its text. -/
theorem isInfix_of_mem_targets_ofMove {t target : Text} (h : target ∈ (ofMove t).targets) :
    target <:+: t := by
  rw [ofMove] at h
  split at h
  · exact absurd h List.not_mem_nil
  · dsimp only at h
    split at h
    · exact absurd h List.not_mem_nil
    · exact (isInfix_of_mem_words h).trans (List.drop_suffix _ t).isInfix

/-- The target of a `COMPUTE` stands in its text. -/
theorem isInfix_of_mem_targets_ofCompute {t target : Text} (h : target ∈ (ofCompute t).targets) :
    target <:+: t := by
  rw [ofCompute] at h
  split at h
  · exact absurd h List.not_mem_nil
  · rename_i before after hcut
    split at h
    · exact absurd h List.not_mem_nil
    · obtain ⟨rfl, -⟩ := cutAt?_eq_some_iff.1 hcut
      rw [List.mem_singleton.1 h]
      exact (trim_isInfix before).trans (List.prefix_append before _).isInfix

/-- The target of an arithmetic statement is one of its words. -/
theorem mem_of_mem_targets_ofArithmetic {operation : Operation} {parts : List Text} {target : Text}
    (h : target ∈ (ofArithmetic operation parts).targets) : target ∈ parts := by
  unfold ofArithmetic at h
  split at h
  · rw [List.mem_singleton.1 h]
    simp
  · exact absurd h List.not_mem_nil

/-- A `PERFORM` has no target of its own. -/
theorem targets_ofPerform (parts : List Text) : (ofPerform parts).targets = [] := by
  unfold ofPerform
  split <;> rfl

/-- A `GO TO` has no target of its own. -/
theorem targets_ofGoTo (parts : List Text) : (ofGoTo parts).targets = [] := by
  unfold ofGoTo
  split
  · split <;> rfl
  · rfl

/-- **The targets of a statement stand in it.** -/
theorem isInfix_of_mem_targets {t target : Text} (h : target ∈ (ofText t).targets) :
    target <:+: t := by
  have hperiod : dropPeriod t <+: t := dropPeriod_prefix t
  have hparts {w : Text} (hw : w ∈ words (dropPeriod t)) : w <:+: t :=
    (isInfix_of_mem_words hw).trans hperiod.isInfix
  have harithmetic {operation : Operation}
      (h : target ∈ (ofArithmetic operation (words (dropPeriod t))).targets) :
      target <:+: t :=
    hparts (mem_of_mem_targets_ofArithmetic h)
  unfold ofText at h
  split at h
  · exact absurd h List.not_mem_nil
  · dsimp only at h
    split at h
    case h_1 => exact (isInfix_of_mem_targets_ofMove h).trans (arguments_isInfix t)
    case h_2 => exact (isInfix_of_mem_targets_ofCompute h).trans (arguments_isInfix t)
    case h_3 | h_4 | h_5 | h_6 => exact harithmetic h
    -- `DISPLAY` writes nothing, whatever it shows
    case h_7 =>
      split at h
      · exact absurd h List.not_mem_nil
      · exact absurd h List.not_mem_nil
    case h_8 =>
      split at h
      · rename_i verb found rest hwords
        refine hparts ?_
        rw [hwords, List.mem_singleton.1 h]
        exact List.mem_cons_of_mem verb List.mem_cons_self
      · exact absurd h List.not_mem_nil
    case h_11 =>
      rw [targets_ofPerform] at h
      exact absurd h List.not_mem_nil
    case h_12 =>
      rw [targets_ofGoTo] at h
      exact absurd h List.not_mem_nil
    all_goals exact absurd h List.not_mem_nil

end Action

/-! ### Moments and runs -/

/-- What a moment writes is named in the text of its statement. -/
theorem Deed.isInfix_of_mem_targets {deed : Deed} {target : Text}
    (h : target ∈ deed.action.targets) : ∃ text, deed = .statement text ∧ target <:+: text := by
  cases deed with
  | statement text =>
    exact ⟨text, rfl, (Action.isInfix_of_mem_targets h).trans (trim_isInfix text)⟩
  | test | choice => exact absurd h List.not_mem_nil

/-- A moment leaves every slot as it is that its statement does not name. -/
theorem Moment.keeps_slot (m : Machine) {moment : Moment} {name : Text}
    (h : ∀ text, moment.deed = .statement text → ¬upper name <:+: upper text) :
    (moment.own m).state.store.values.get? (Store.key name) =
      moment.state.store.values.get? (Store.key name) := by
  have hvisible : (moment.own m).state.store =
      (act moment.allowance [] moment.state moment.deed.action).state.store :=
    State.store_eq (moment.visible_own m)
  rw [hvisible]
  refine (act_writes _ _ _ _).get?_of_forall_ne fun target htarget hkey ↦ ?_
  obtain ⟨text, htext, hstands⟩ := Deed.isInfix_of_mem_targets htarget
  refine h text htext ?_
  rw [show upper name = upper target from hkey]
  exact upper_isInfix hstands

/-- What every moment leaves as it is stays the same along a run. -/
theorem Chained.keeps {m : Machine} {s : State} {ms : List Moment} {o : Outcome} {α : Type}
    (h : Chained m s ms o) {f : State → α}
    (hf : ∀ moment ∈ ms, f (moment.own m).state = f moment.state) :
    f o.state = f s ∧ ∀ moment ∈ ms, f moment.state = f s := by
  induction h with
  | done | limit => exact ⟨rfl, nofun⟩
  | @fault moment =>
    exact ⟨hf moment (List.mem_singleton_self moment), List.forall_mem_singleton.2 rfl⟩
  | @step moment rest o _ _ _ ih =>
    obtain ⟨hfirst, hrest⟩ := List.forall_mem_cons.1 hf
    obtain ⟨hend, hmoments⟩ := ih hrest
    refine ⟨hend.trans hfirst, List.forall_mem_cons.2 ⟨rfl, fun later hlater ↦ ?_⟩⟩
    exact (hmoments later hlater).trans hfirst

/-- **No stray writes.** A slot whose name, in upper case, stands in no line of the block or of a
paragraph in upper case is the same behind the block, whether the block is finished or fails, and at
every moment of its run: it has the same value, or is still absent. -/
theorem keeps_slot_executeBlock (m : Machine) (allowance : Nat) (lines : List Text) (s : State)
    {name : Text} (h : ∀ line, m.HasLine lines line → ¬upper name <:+: upper line) :
    (executeBlock m allowance lines s).state.store.values.get? (Store.key name) =
        s.store.values.get? (Store.key name) ∧
      ∀ moment ∈ moments m allowance lines s,
        moment.state.store.values.get? (Store.key name) =
          s.store.values.get? (Store.key name) := by
  cases hs : s.running with
  | true =>
    refine (chained_moments m allowance lines hs).keeps
      (f := fun t ↦ t.store.values.get? (Store.key name)) fun moment hmoment ↦ ?_
    refine moment.keeps_slot m fun text htext hstands ↦ ?_
    obtain ⟨line, hline, hpart⟩ := exists_partOf_of_mem_moments hmoment htext
    exact h line hline (hstands.trans (upper_isInfix hpart.isInfix))
  | false =>
    rw [state_executeBlock_of_stopped m allowance lines hs,
      moments_of_stopped m allowance lines hs]
    exact ⟨rfl, nofun⟩

/-- A machine with a paragraph that reads a line and counts it. -/
def counting : Machine where
  paragraphs := ⟨[("TAKE".toList, ["ACCEPT tota.", "ADD 1 TO OTAL."].map String.toList)]⟩
  passes := 1

/-- Lines that write slots from every kind of place, and none that is called `TOTAL`. -/
def countingLines : List Text :=
  ["MOVE 'X' TO TOT AL.", "IF OTAL = 1", "DISPLAY 'T'.", "ELSE COMPUTE TOT AL = 1 + 1.", "END-IF",
   "EVALUATE 1", "WHEN 1 PERFORM TAKE 3 TIMES", "END-EVALUATE"].map String.toList

/-- A state with a slot and an input that breaks behind its first line. -/
def countingStart : State where
  store := { values := ⟨[("TOTAL".toList, .number 7)]⟩ }
  input := some (.stream "5\n6".toList (some ⟨3, 1, 255, .start⟩))

/-- A run that ends in a fault: the slot named `OTAL` is written, and `Total` is not, though the one
name ends as the other does. -/
theorem keeps_slot_executeBlock_counting :
    (executeBlock counting 9 countingLines countingStart).fault ≠ none ∧
      (executeBlock counting 9 countingLines countingStart).state.store.get "OTAL".toList =
        .number 1 ∧
      (∀ line, counting.HasLine countingLines line →
        ¬upper "Total".toList <:+: upper line) ∧
      (executeBlock counting 9 countingLines countingStart).state.store.values.get?
          (Store.key "Total".toList) = some (.number 7) :=
  have hlines (line : Text) (h : counting.HasLine countingLines line) :
      ¬upper "Total".toList <:+: upper line :=
    h.forall (P := fun line ↦ ¬upper "Total".toList <:+: upper line) (by decide +kernel)
      (by decide +kernel)
  ⟨by decide +kernel, by decide +kernel, hlines,
    (keeps_slot_executeBlock counting 9 countingLines countingStart hlines).1⟩

end Cobol
