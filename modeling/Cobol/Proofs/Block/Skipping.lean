import Cobol.Proofs.Tree.Execution

/-!
# Lines without effect

A line that asks for nothing, or for something that is not understood, leaves a note at most, and if
its verb is no keyword of a block either, then no splitter stops at it. Such lines can be put
anywhere into a block and into the bodies of paragraphs.

* `Padded xs ys` says that `ys` is `xs` with idle lines put in. It passes through both splitters,
  part by part (`IfBlock.paddedParts_splitFrom`, `EvaluateBlock.paddedParts_splitFrom`).
* `similar_executeBlock_padded`: padded blocks, run with padded paragraphs, do the same. The two
  runs are not in step, so the induction is on the allowance and, inside it, on the number of lines.
* `executeBlock_visible_of_acting`: what a block does depends on the lines alone whose verb is known
  and neither `CONTINUE` nor `EXIT`.

## Shape decisions

* A line is idle by what it asks for and by its verb. Neither depends on the state, so the lines
  that are passed over are the same in every run.
* Padding is inductive on both lists at once. It has no length, and idle lines may stand in front of
  any line.
* Runs are compared by what can be seen of them, because an idle line may leave a note.
-/

namespace Cobol

open Text

/-- The line leaves a note at most, and belongs to no block. -/
structure IsIdle (line : Text) : Prop where
  /-- It asks for nothing that is understood. -/
  asks : Action.ofText (trim line) = .nothing ∨ Action.ofText (trim line) = .unrecognized
  /-- It is no keyword of a block. -/
  flat : ∀ k : BlockKind, Verb.ofStatement line ≠ k.opener ∧ Verb.ofStatement line ≠ k.closer ∧
    Verb.ofStatement line ≠ k.part

/-- The second lines are the first with idle lines put in. -/
inductive Padded : List Text → List Text → Prop
  /-- No lines. -/
  | nil : Padded [] []
  /-- A line of both. -/
  | keep (line : Text) {xs ys : List Text} (h : Padded xs ys) : Padded (line :: xs) (line :: ys)
  /-- A line that is put in. -/
  | insert {line : Text} (hline : IsIdle line) {xs ys : List Text} (h : Padded xs ys) :
      Padded xs (line :: ys)

namespace Padded

/-- Lines are padded by nothing. -/
theorem refl : ∀ lines : List Text, Padded lines lines
  | [] => .nil
  | line :: rest => .keep line (refl rest)

/-- The same lines in front do not disturb the padding. -/
theorem append (lines : List Text) {xs ys : List Text} (h : Padded xs ys) :
    Padded (lines ++ xs) (lines ++ ys) := by
  induction lines with
  | nil => exact h
  | cons line rest ih => exact .keep line ih

/-- Lines are padded by those that a filter takes out, if they are idle. -/
theorem of_filter {keep : Text → Bool} {lines : List Text}
    (h : ∀ line ∈ lines, keep line = false → IsIdle line) : Padded (lines.filter keep) lines := by
  induction lines with
  | nil => exact .nil
  | cons line rest ih =>
    have hrest := ih fun l hl ↦ h l (List.mem_cons_of_mem line hl)
    cases hkeep : keep line with
    | true =>
      rw [List.filter_cons_of_pos hkeep]
      exact .keep line hrest
    | false =>
      rw [List.filter_cons_of_neg (by rw [hkeep]; exact Bool.false_ne_true)]
      exact .insert (h line List.mem_cons_self hkeep) hrest

end Padded

/-! ### Parts of blocks -/

/-- An idle line counts for no kind of block. -/
theorem IsIdle.step {line : Text} (h : IsIdle line) (k : BlockKind) (depth : Nat) :
    k.step depth (Verb.ofStatement line) = some depth := by
  obtain ⟨hopener, hcloser, hpart⟩ := h.flat k
  exact k.step_of_ne hopener hcloser hpart depth

namespace IfBlock

/-- Each part of the second block is that of the first with idle lines put in. -/
structure PaddedParts (b c : IfBlock) : Prop where
  /-- The lines before `ELSE`. -/
  whenTrue : Padded b.whenTrue c.whenTrue
  /-- The lines behind `ELSE`. -/
  whenFalse : Padded b.whenFalse c.whenFalse
  /-- The lines behind the block. -/
  rest : Padded b.rest c.rest

namespace PaddedParts

/-- The same lines pushed to a part of both blocks leave the parts padded. -/
theorem push {b c : IfBlock} (h : PaddedParts b c) (inElse : Bool) (lines : List Text) :
    PaddedParts (b.push inElse lines) (c.push inElse lines) := by
  cases inElse with
  | true => exact ⟨h.whenTrue, h.whenFalse.append lines, h.rest⟩
  | false => exact ⟨h.whenTrue.append lines, h.whenFalse, h.rest⟩

/-- An idle line pushed to a part of the padded block leaves the parts padded. -/
theorem push_idle {b c : IfBlock} (h : PaddedParts b c) {line : Text} (hline : IsIdle line)
    (inElse : Bool) : PaddedParts b (c.push inElse [line]) := by
  cases inElse with
  | true => exact ⟨h.whenTrue, h.whenFalse.insert hline, h.rest⟩
  | false => exact ⟨h.whenTrue.insert hline, h.whenFalse, h.rest⟩

end PaddedParts

/-- **The parts of a padded `IF` block are the parts, padded.** The splitter stops at no idle line,
and at every other line it does the same on both sides. -/
theorem paddedParts_splitFrom {xs ys : List Text} (h : Padded xs ys) (depth : Nat)
    (inElse : Bool) : PaddedParts (splitFrom depth inElse xs) (splitFrom depth inElse ys) := by
  induction h generalizing depth inElse with
  | nil => exact ⟨.nil, .nil, .nil⟩
  | @keep line xs ys h ih =>
    cases hstep : BlockKind.conditional.step depth (Verb.ofStatement line) with
    | some after =>
      rw [splitFrom_cons hstep, splitFrom_cons hstep]
      exact (ih after inElse).push inElse [line]
    | none =>
      obtain ⟨rfl, hcloser | hpart⟩ := BlockKind.step_eq_none hstep
      · rw [splitFrom_close hcloser, splitFrom_close hcloser]
        exact ⟨.nil, .nil, h⟩
      · -- what stands behind `ELSE` on its line is a line of both
        rw [splitFrom_part hpart, splitFrom_part hpart]
        exact (ih 0 true).push true _
  | insert hline _ ih =>
    rw [splitFrom_cons (hline.step .conditional depth)]
    exact (ih depth inElse).push_idle hline inElse

end IfBlock

namespace EvaluateBlock

/-- Each part of the second block is that of the first with idle lines put in. -/
structure PaddedParts (b c : EvaluateBlock) : Prop where
  /-- The lines before the first `WHEN`. -/
  leading : Padded b.leading c.leading
  /-- The branches. -/
  branches : List.Forall₂ (fun x y ↦ x.value = y.value ∧ Padded x.lines y.lines) b.branches
    c.branches
  /-- The lines behind the block. -/
  rest : Padded b.rest c.rest

/-- **The parts of a padded `EVALUATE` block are the parts, padded**, with the same values. An idle
line in front of the first branch belongs to no part. -/
theorem paddedParts_splitFrom {xs ys : List Text} (h : Padded xs ys) (depth : Nat) :
    PaddedParts (splitFrom depth xs) (splitFrom depth ys) := by
  induction h generalizing depth with
  | nil => exact ⟨.nil, .nil, .nil⟩
  | @keep line xs ys h ih =>
    cases hstep : BlockKind.choice.step depth (Verb.ofStatement line) with
    | some after =>
      rw [splitFrom_cons hstep, splitFrom_cons hstep]
      obtain ⟨hleading, hbranches, hrest⟩ := ih after
      exact ⟨hleading.keep line, hbranches, hrest⟩
    | none =>
      obtain ⟨rfl, hcloser | hpart⟩ := BlockKind.step_eq_none hstep
      · rw [splitFrom_close hcloser, splitFrom_close hcloser]
        exact ⟨.nil, .nil, h⟩
      · -- the lines up to the next `WHEN` become those of the branch
        rw [splitFrom_part hpart, splitFrom_part hpart]
        obtain ⟨hleading, hbranches, hrest⟩ := ih 0
        exact ⟨.nil, .cons ⟨rfl, hleading.append _⟩ hbranches, hrest⟩
  | insert hline _ ih =>
    rw [splitFrom_cons (hline.step .choice depth)]
    obtain ⟨hleading, hbranches, hrest⟩ := ih depth
    exact ⟨hleading.insert hline, hbranches, hrest⟩

end EvaluateBlock

/-- What a statement leaves of padded lines is what it leaves, padded. -/
theorem Padded.unread {xs ys : List Text} (h : Padded xs ys) (line : Text) :
    Padded (unread line xs) (unread line ys) := by
  unfold Cobol.unread
  split
  · exact (IfBlock.paddedParts_splitFrom h 0 false).rest
  · exact (EvaluateBlock.paddedParts_splitFrom h 0).rest
  · exact h

/-- Blocks inside padded lines do the same, if padded blocks do. -/
theorem Padded.similarParts {nested nested' : List Text → State → Outcome}
    (hnested : ∀ {xs ys}, Padded xs ys → Similar (nested xs) (nested' ys)) {xs ys : List Text}
    (h : Padded xs ys) : SimilarParts nested nested' xs ys where
  whenTrue := hnested (IfBlock.paddedParts_splitFrom h 0 false).whenTrue
  whenFalse := hnested (IfBlock.paddedParts_splitFrom h 0 false).whenFalse
  branches := (EvaluateBlock.paddedParts_splitFrom h 0).branches.imp fun _ _ hbranch ↦
    ⟨hbranch.1, hnested hbranch.2⟩

/-! ### Blocks -/

/-- The second machine is the first with idle lines put into its paragraphs. -/
structure MachineOf.Padded (m m' : Machine) : Prop where
  /-- They have the same paragraphs, padded. -/
  bodies : ∀ label, Option.Rel Cobol.Padded (m.paragraphs.get? label) (m'.paragraphs.get? label)
  /-- Their loops make the same number of passes. -/
  passes : m.passes = m'.passes

/-- The paragraphs of a machine are padded by nothing. -/
theorem MachineOf.Padded.refl (m : Machine) : MachineOf.Padded m m where
  bodies label := by
    cases m.paragraphs.get? label with
    | none => exact .none
    | some body => exact .some (.refl body)
  passes := rfl

section

variable {m m' : Machine} {allowance : Nat} {nested nested' : List Text → State → Outcome}

/-- An idle line is executed without effect. -/
theorem IsIdle.similar_execute {line : Text} (h : IsIdle line) (following : List Text) :
    Similar (execute m allowance nested line following) State.done := by
  intro s t hst
  rw [execute]
  rcases h.asks with hasks | hasks <;> rw [hasks] <;> exact congrArg State.done hst

/-- An idle line in front of other lines makes no difference. -/
theorem IsIdle.similar_executeLines {line : Text} (h : IsIdle line)
    (hnested : ∀ lines, Similar (nested lines) (nested lines)) (following : List Text) :
    Similar (executeLines m allowance nested following)
      (executeLines m allowance nested (line :: following)) := by
  intro s t hst
  by_cases ht : t.running = true
  · have hdone : s.done.visible = (execute m allowance nested line following t).visible :=
      (h.similar_execute following t s hst.symm).symm
    rw [executeLines_cons ht, unread_of_not_opener (h.flat .conditional).1 (h.flat .choice).1]
    exact Similar.andThen_visible hdone (Cobol.similar_executeLines hnested following)
  · have hs : ¬s.running = true := by rwa [State.running_eq hst]
    rw [executeLines_of_stopped hs, executeLines_of_stopped ht]
    exact Similar.done s t hst

variable (hm : MachineOf.Padded m m')
  (hnested : ∀ {xs ys}, Padded xs ys → Similar (nested xs) (nested' ys))

include hm hnested

/-- One statement in front of padded lines does the same, if the blocks inside do. -/
theorem Padded.similar_execute (line : Text) {xs ys : List Text} (h : Padded xs ys) :
    Similar (execute m allowance nested line xs) (execute m' allowance nested' line ys) := by
  have hbodies (label : Text) : Option.Rel (fun xs ys ↦ Similar (nested xs) (nested' ys))
      (m.paragraphs.get? label) (m'.paragraphs.get? label) := by
    generalize m.paragraphs.get? label = body, m'.paragraphs.get? label = body',
      hm.bodies label = hbody
    cases hbody with
    | none => exact .none
    | some hbody => exact .some (hnested hbody)
  exact similar_perform_of_parts (similar_runParagraph hm.passes hbodies)
    (h.similarParts hnested) _ _ (Action.ofText (trim line))

/-- Padded lines do the same, if the blocks inside do. On the padded side idle lines are passed over
one by one, so the induction is on its length. -/
theorem Padded.similar_executeLines {xs ys : List Text} (h : Padded xs ys) :
    Similar (executeLines m allowance nested xs) (executeLines m' allowance nested' ys) := by
  have hnested' (lines : List Text) : Similar (nested' lines) (nested' lines) :=
    have hlines := hnested (.refl lines)
    hlines.symm.trans hlines
  -- not along `Padded`: behind a header both runs go on with what it leaves unread
  induction hlength : ys.length using Nat.strong_induction_on generalizing xs ys with
  | _ length ih =>
    cases h with
    | nil =>
      intro s t hst
      rw [executeLines, executeLines]
      exact Similar.done s t hst
    | @keep line xs ys h =>
      have hlt : (Cobol.unread line ys).length < length := by
        rw [← hlength]
        exact Nat.lt_succ_of_le (length_unread_le line ys)
      have hrest := ih _ hlt (h.unread line) rfl
      intro s t hst
      rw [executeLines, executeLines]
      exact Similar.whileRunning ((h.similar_execute hm hnested line).andThen hrest) s t hst
    | @insert line hline _ ys h =>
      have hlt : ys.length < length := by
        rw [← hlength]
        exact Nat.lt_succ_self ys.length
      exact (ih _ hlt h rfl).trans (hline.similar_executeLines hnested' ys)

end

/-- **Idle lines can be put anywhere**: into a block, into the parts of the blocks inside it, and
into the paragraphs it runs. -/
theorem similar_executeBlock_padded {m m' : Machine} (hm : MachineOf.Padded m m')
    (allowance : Nat) {xs ys : List Text} (h : Padded xs ys) :
    Similar (executeBlock m allowance xs) (executeBlock m' allowance ys) := by
  induction allowance generalizing xs ys with
  | zero => exact .fail .nesting
  | succ allowance ih => exact h.similar_executeLines hm ih

/-! ### Statements that are skipped -/

/-- The verbs of statements that are skipped. -/
def Verb.skipped : List Verb :=
  [.unknown, .noop, .exit]

/-- The lines whose statements are not skipped. -/
def acting (lines : List Text) : List Text :=
  lines.filter fun line ↦ Verb.ofStatement line ∉ Verb.skipped

/-- A line whose verb is skipped is idle. -/
theorem isIdle_of_mem_skipped {line : Text} (h : Verb.ofStatement line ∈ Verb.skipped) :
    IsIdle line where
  asks := by
    unfold Action.ofText
    split
    · exact Or.inl rfl
    · rw [Verb.ofStatement_trim]
      simp only [Verb.skipped, List.mem_cons, List.not_mem_nil, or_false] at h
      rcases h with h | h | h <;> rw [h]
      · exact Or.inr rfl
      · exact Or.inl rfl
      · exact Or.inl rfl
  flat k := by
    have hnot : k.opener ∉ Verb.skipped ∧ k.closer ∉ Verb.skipped ∧ k.part ∉ Verb.skipped := by
      cases k <;> decide
    exact ⟨fun heq ↦ hnot.1 (heq ▸ h), fun heq ↦ hnot.2.1 (heq ▸ h), fun heq ↦ hnot.2.2 (heq ▸ h)⟩

/-- Lines are their acting lines, padded. -/
theorem padded_acting (lines : List Text) : Padded (acting lines) lines :=
  .of_filter fun _ _ hskipped ↦ isIdle_of_mem_skipped (by simpa using hskipped)

/-- The paragraphs of a machine are those of its acting lines, padded. -/
theorem MachineOf.padded_acting (m : Machine) : MachineOf.Padded (m.map acting) m where
  bodies label := by
    rw [MachineOf.map, Table.get?_map]
    cases m.paragraphs.get? label with
    | none => exact .none
    | some body => exact .some (Cobol.padded_acting body)
  passes := rfl

/-- **Skipped lines are invisible.** Two blocks with the same acting lines, run with paragraphs that
have the same acting lines, leave the same store, output, input, run flag and fault, from every
state and within every limit. So lines that are skipped can be put in and taken out anywhere. -/
theorem executeBlock_visible_of_acting {m m' : Machine} (hm : m.map acting = m'.map acting)
    {xs ys : List Text} (h : acting xs = acting ys) (allowance : Nat) (s : State) :
    (executeBlock m allowance xs s).visible = (executeBlock m' allowance ys s).visible := by
  have hacting (m : Machine) (lines : List Text) :
      Similar (executeBlock (m.map acting) allowance (acting lines))
        (executeBlock m allowance lines) :=
    similar_executeBlock_padded (MachineOf.padded_acting m) allowance (padded_acting lines)
  have hys := hacting m' ys
  rw [← hm, ← h] at hys
  exact ((hacting m xs).symm.trans hys) s s rfl

/-- A loop and both kinds of block, and the body of the loop. -/
def tight : List Text × List Text :=
  (["PERFORM P UNTIL N > 1", "IF N = 2", "DISPLAY 'A'", "ELSE", "DISPLAY 'B'", "END-IF",
    "EVALUATE N", "WHEN 2", "DISPLAY 'C'", "END-EVALUATE"].map String.toList,
   ["ADD 1 TO N", "DISPLAY N"].map String.toList)

/-- The same with lines that are skipped: in the parts of the blocks, before the first `WHEN`, in
the body of the loop and at both ends. -/
def loosened : List Text × List Text :=
  (["EXIT.", "PERFORM P UNTIL N > 1", "IF N = 2", "CONTINUE.", "DISPLAY 'A'", "ELSE", "NOTE IF.",
    "DISPLAY 'B'", "END-IF", "EVALUATE N", "STOP", " ", "WHEN 2", "END-PERFORM", "DISPLAY 'C'",
    "END-EVALUATE", "exit paragraph"].map String.toList,
   ["CONTINUE", "ADD 1 TO N", "ELSEWHERE.", "DISPLAY N", "P-EXIT."].map String.toList)

/-- The machine whose paragraph `P` has the body. -/
def loopMachine (body : List Text) : Machine :=
  ⟨⟨[(['P'], body)]⟩, 9⟩

/-- A loop with notes, empty statements and unknown verbs in its lines, and the same loop without
them. -/
theorem executeBlock_visible_of_acting_loosened :
    (executeBlock (loopMachine loosened.2) 9 loosened.1 {}).state.output.toList =
        ["1", "2", "A", "C"].map String.toList ∧
      (loopMachine tight.2).map acting = (loopMachine loosened.2).map acting ∧
      acting tight.1 = acting loosened.1 ∧
      (executeBlock (loopMachine tight.2) 9 tight.1 {}).visible =
        (executeBlock (loopMachine loosened.2) 9 loosened.1 {}).visible := by
  have hbody : acting tight.2 = acting loosened.2 := by decide +kernel
  have hmachine : (loopMachine tight.2).map acting = (loopMachine loosened.2).map acting :=
    congrArg (fun body ↦ (⟨⟨[(['P'], body)]⟩, 9⟩ : Machine)) hbody
  have hlines : acting tight.1 = acting loosened.1 := by decide +kernel
  exact ⟨by decide +kernel, hmachine, hlines, executeBlock_visible_of_acting hmachine hlines 9 {}⟩

end Cobol
