import Cobol.Proofs.Block.Nesting

/-!
# Where the lines of a block go

A splitter follows the depth line by line, through blocks of the other kind, ends without a block
and parts that come twice. What it takes can be said without following it: a line stands outside
the inner blocks when as many blocks of the kind end as start in the lines before it
(`BlockKind.Balanced`). The block ends at the first such line with its closing verb, and a part of
it starts at each such line before that (`BlockKind.cut`).

* `BlockKind.lines_cut`: the cut loses no line, doubles none and keeps their order.
* `IfBlock.splitFrom_eq_cut`, `EvaluateBlock.splitFrom_eq_cut`: the splitters take what the cut
  says, whatever the lines are.

Both follow from what the cut does with the first line (`cut_cons_of_step`, `cut_cons_of_closer`,
`cut_cons_of_part`), where the balance of the lines behind it starts from another depth.

## Shape decisions

* Balance is a count over the lines before a place. The depth that the splitter carries is no part
  of the specification, and the place where a block ends is the first one with a property.
* A line that begins a part is kept as a mark of the part that it begins (`markedParts`), so that the
  lines of all parts, with their marks, are the lines of the block in order.
-/

namespace Cobol

open Text

/-- A block in its parts, and what stands behind it. -/
structure CutBlock where
  /-- The lines before the first part that a line starts. -/
  lead : List Text := []
  /-- The lines that start a part, each with the lines up to the next one. -/
  parts : List (Text × List Text) := []
  /-- The line that closes the block. -/
  closing : Option Text := none
  /-- The lines behind the block. -/
  rest : List Text := []
  deriving DecidableEq, Repr

/-- The lines that are cut, in order. -/
def CutBlock.lines (c : CutBlock) : List Text :=
  c.lead ++ ((c.parts.flatMap fun p ↦ p.1 :: p.2) ++ (c.closing.toList ++ c.rest))

/-! ### Marked lines -/

/-- The lines before the first marked one. -/
def unmarked (lines : List (Bool × Text)) : List Text :=
  (lines.takeWhile fun l ↦ !l.1).map (·.2)

/-- Each marked line with the lines up to the next one. -/
def markedParts : List (Bool × Text) → List (Text × List Text)
  | [] => []
  | (true, line) :: rest => (line, unmarked rest) :: markedParts rest
  | (false, _) :: rest => markedParts rest

namespace BlockKind

variable {k : BlockKind} {depth after : Nat} {line : Text}

/-! ### Lines outside the inner blocks -/

/-- As many blocks of the kind end in the lines as start in them, when `depth` blocks are open in
front of them. -/
def Balanced (k : BlockKind) (depth : Nat) (lines : List Text) : Prop :=
  (lines.countP fun line ↦ Verb.ofStatement line = k.opener) + depth =
    lines.countP fun line ↦ Verb.ofStatement line = k.closer

instance (k : BlockKind) (depth : Nat) : DecidablePred (k.Balanced depth) := fun _ ↦
  inferInstanceAs (Decidable (_ = _))

/-- Which lines have the verb and balanced lines before them. -/
def outer (k : BlockKind) (depth : Nat) (v : Verb) (lines : List Text) : List Bool :=
  lines.mapIdx fun i line ↦ Verb.ofStatement line = v ∧ k.Balanced depth (lines.take i)

/-- The place of the line that closes the block, or the number of the lines if there is none. -/
def closingPlace (k : BlockKind) (depth : Nat) (lines : List Text) : Nat :=
  (k.outer depth k.closer lines).findIdx id

/-- The lines of a block, with marks where its parts start. -/
def marked (k : BlockKind) (depth : Nat) (lines : List Text) : List (Bool × Text) :=
  (k.outer depth k.part lines).zip lines

/-- The cut of the lines behind the header of a block, when `depth` inner blocks are open: the lines
before the closing one in their parts, and what is behind it. -/
def cut (k : BlockKind) (depth : Nat) (lines : List Text) : CutBlock :=
  let place := k.closingPlace depth lines
  { lead := unmarked (k.marked depth (lines.take place))
    parts := markedParts (k.marked depth (lines.take place))
    closing := lines[place]?
    rest := lines.drop (place + 1) }

/-! ### Balance behind a line -/

/-- No lines are balanced exactly at the bottom. -/
theorem balanced_nil : k.Balanced depth [] ↔ depth = 0 := by
  simp [Balanced]

/-- The first line of balanced lines moves the depth for those behind it. -/
theorem balanced_cons_of_step (h : k.step depth (Verb.ofStatement line) = some after)
    (before : List Text) : k.Balanced depth (line :: before) ↔ k.Balanced after before := by
  have hne : k.closer ≠ k.opener := by cases k <;> nofun
  rcases step_cases h with ⟨hv, rfl⟩ | ⟨hv, rfl⟩ | ⟨hopener, hcloser, -, rfl⟩
  · simp only [Balanced, List.countP_cons, hv, hne.symm, decide_true, decide_false, if_true,
      Bool.false_eq_true, if_false]
    omega
  · simp only [Balanced, List.countP_cons, hv, hne, decide_true, decide_false, if_true,
      Bool.false_eq_true, if_false]
    omega
  · simp only [Balanced, List.countP_cons, hopener, hcloser, decide_false, Bool.false_eq_true,
      if_false]
    omega

/-- A line that begins a part does not count for the balance. -/
theorem balanced_cons_of_part (h : Verb.ofStatement line = k.part) (before : List Text) :
    k.Balanced depth (line :: before) ↔ k.Balanced depth before := by
  have hopener : k.part ≠ k.opener := by cases k <;> nofun
  have hcloser : k.part ≠ k.closer := by cases k <;> nofun
  simp only [Balanced, List.countP_cons, h, hopener, hcloser, decide_false, Bool.false_eq_true,
    if_false]
  omega

/-- A line shifts the balance of the lines behind it from one depth to another. -/
theorem outer_cons
    (hbalanced : ∀ before, k.Balanced depth (line :: before) ↔ k.Balanced after before)
    (v : Verb) (rest : List Text) :
    k.outer depth v (line :: rest) =
      decide (Verb.ofStatement line = v ∧ depth = 0) :: k.outer after v rest := by
  rw [outer, List.mapIdx_cons]
  simp only [List.take_zero, balanced_nil, List.take_succ_cons, hbalanced]
  rfl

/-- At the bottom the lines that end a block or begin a part of it lead nowhere. -/
theorem step_zero_eq_none {v : Verb} (h : v = k.closer ∨ v = k.part) : k.step 0 v = none := by
  rcases h with rfl | rfl <;> cases k <;> rfl

/-- A line that only moves the depth neither closes the block nor starts a part. -/
theorem outer_cons_of_step (h : k.step depth (Verb.ofStatement line) = some after) {v : Verb}
    (hv : v = k.closer ∨ v = k.part) (rest : List Text) :
    k.outer depth v (line :: rest) = false :: k.outer after v rest := by
  have hinner : ¬(Verb.ofStatement line = v ∧ depth = 0) := by
    rintro ⟨hline, rfl⟩
    rw [hline, step_zero_eq_none hv] at h
    cases h
  rw [outer_cons (balanced_cons_of_step h), decide_eq_false hinner]

/-! ### What the cut does with the first line -/

/-- A line that only moves the depth goes to the open part. -/
theorem cut_cons_of_step (h : k.step depth (Verb.ofStatement line) = some after)
    (rest : List Text) :
    k.cut depth (line :: rest) =
      { k.cut after rest with lead := line :: (k.cut after rest).lead } := by
  have hplace : k.closingPlace depth (line :: rest) = k.closingPlace after rest + 1 := by
    rw [closingPlace, outer_cons_of_step h (Or.inl rfl), List.findIdx_cons]
    rfl
  have hmarked (inner : List Text) :
      k.marked depth (line :: inner) = (false, line) :: k.marked after inner := by
    rw [marked, outer_cons_of_step h (Or.inr rfl)]
    rfl
  simp only [cut, hplace, List.take_succ_cons, hmarked]
  rfl

/-- The first line that closes the block ends it. -/
theorem cut_cons_of_closer (h : Verb.ofStatement line = k.closer) (rest : List Text) :
    k.cut 0 (line :: rest) = { closing := some line, rest := rest } := by
  have hplace : k.closingPlace 0 (line :: rest) = 0 := by
    rw [closingPlace, outer, List.mapIdx_cons, List.findIdx_cons]
    simp [h, balanced_nil]
  simp only [cut, hplace]
  rfl

/-- A line that starts a part takes the lines up to the next one. -/
theorem cut_cons_of_part (h : Verb.ofStatement line = k.part) (rest : List Text) :
    k.cut 0 (line :: rest) =
      { k.cut 0 rest with
        lead := []
        parts := (line, (k.cut 0 rest).lead) :: (k.cut 0 rest).parts } := by
  have hne : k.part ≠ k.closer := by cases k <;> nofun
  have hplace : k.closingPlace 0 (line :: rest) = k.closingPlace 0 rest + 1 := by
    rw [closingPlace, outer_cons (balanced_cons_of_part h), decide_eq_false (by simp [h, hne]),
      List.findIdx_cons]
    rfl
  have hmarked (inner : List Text) :
      k.marked 0 (line :: inner) = (true, line) :: k.marked 0 inner := by
    rw [marked, outer_cons (balanced_cons_of_part h), decide_eq_true ⟨h, rfl⟩]
    rfl
  simp only [cut, hplace, List.take_succ_cons, hmarked]
  rfl

/-- **The cut conserves the lines**, each once and in order. -/
theorem lines_cut (k : BlockKind) (depth : Nat) (lines : List Text) :
    (k.cut depth lines).lines = lines := by
  induction lines generalizing depth with
  | nil => rfl
  | cons line rest ih =>
    cases hstep : k.step depth (Verb.ofStatement line) with
    | some after =>
      rw [cut_cons_of_step hstep]
      exact congrArg (line :: ·) (ih after)
    | none =>
      obtain ⟨rfl, hcloser | hpart⟩ := step_eq_none hstep
      · rw [cut_cons_of_closer hcloser]
        rfl
      · rw [cut_cons_of_part hpart]
        conv_rhs => rw [← ih 0]
        simp [CutBlock.lines]

end BlockKind

/-! ### What the splitters take -/

/-- The lines of a part that starts with an `ELSE` line. -/
def elseLines (p : Text × List Text) : List Text :=
  lineOf (arguments p.1) ++ p.2

/-- The branch that starts with a `WHEN` line. -/
def whenBranch (p : Text × List Text) : Branch :=
  ⟨(firstOperand (arguments p.1)).1, lineOf (trim (firstOperand (arguments p.1)).2) ++ p.2⟩

/-- An `IF` block opens one of its parts with the lines before the first `ELSE`; the other lines are
those behind `ELSE`. -/
theorem IfBlock.splitFrom_eq_cut (depth : Nat) (inElse : Bool) (lines : List Text) :
    splitFrom depth inElse lines =
      push inElse (BlockKind.conditional.cut depth lines).lead
        { whenFalse := (BlockKind.conditional.cut depth lines).parts.flatMap elseLines
          rest := (BlockKind.conditional.cut depth lines).rest } := by
  induction lines generalizing depth inElse with
  | nil => cases inElse <;> rfl
  | cons line rest ih =>
    cases hstep : BlockKind.conditional.step depth (Verb.ofStatement line) with
    | some after =>
      rw [splitFrom_cons hstep, ih, push_push, BlockKind.cut_cons_of_step hstep]
      rfl
    | none =>
      obtain ⟨rfl, hcloser | hpart⟩ := BlockKind.step_eq_none hstep
      · rw [splitFrom_close hcloser, BlockKind.cut_cons_of_closer hcloser, push_nil]
        rfl
      · rw [splitFrom_part hpart, ih, push_push, BlockKind.cut_cons_of_part hpart, push_nil]
        simp [push, elseLines]

/-- An `EVALUATE` block has a branch for each part. -/
theorem EvaluateBlock.splitFrom_eq_cut (depth : Nat) (lines : List Text) :
    splitFrom depth lines =
      { leading := (BlockKind.choice.cut depth lines).lead
        branches := (BlockKind.choice.cut depth lines).parts.map whenBranch
        rest := (BlockKind.choice.cut depth lines).rest } := by
  induction lines generalizing depth with
  | nil => rfl
  | cons line rest ih =>
    cases hstep : BlockKind.choice.step depth (Verb.ofStatement line) with
    | some after =>
      rw [splitFrom_cons hstep, ih, BlockKind.cut_cons_of_step hstep]
      rfl
    | none =>
      obtain ⟨rfl, hcloser | hpart⟩ := BlockKind.step_eq_none hstep
      · rw [splitFrom_close hcloser, BlockKind.cut_cons_of_closer hcloser]
        rfl
      · rw [splitFrom_part hpart, ih, BlockKind.cut_cons_of_part hpart]
        rfl

/-- **Blocks conserve their lines**, well nested or not. A block takes the lines up to the first
closing line with balanced lines before it, or all of them. The lines of an `IF` block before its
first `ELSE` line are those of one part, and the others those of the other part, with each `ELSE`
line replaced by the statement on it. The lines of an `EVALUATE` block behind a `WHEN` line, up to
the next one, are those of a branch, with the statement on the `WHEN` line before them. The cut of
the lines has every line once and in order, and behind the header what is left are the lines behind
the closing one. -/
theorem split_eq_cut (lines : List Text) :
    IfBlock.split lines =
        { whenTrue := (BlockKind.conditional.cut 0 lines).lead
          whenFalse := (BlockKind.conditional.cut 0 lines).parts.flatMap elseLines
          rest := (BlockKind.conditional.cut 0 lines).rest } ∧
      EvaluateBlock.split lines =
        { leading := (BlockKind.choice.cut 0 lines).lead
          branches := (BlockKind.choice.cut 0 lines).parts.map whenBranch
          rest := (BlockKind.choice.cut 0 lines).rest } ∧
      ∀ k : BlockKind, (k.cut 0 lines).lines = lines ∧
        ∀ header, Verb.ofStatement header = k.opener →
          unread header lines = (k.cut 0 lines).rest := by
  have hconditional := IfBlock.splitFrom_eq_cut 0 false lines
  have hchoice := EvaluateBlock.splitFrom_eq_cut 0 lines
  refine ⟨?_, hchoice, fun k ↦ ⟨k.lines_cut 0 lines, fun header hheader ↦ ?_⟩⟩
  · rw [IfBlock.split, hconditional]
    simp [IfBlock.push]
  · rw [unread, hheader]
    cases k with
    | conditional => exact (congrArg IfBlock.rest hconditional).trans (IfBlock.rest_push ..)
    | choice => exact congrArg EvaluateBlock.rest hchoice

/-- Blocks of both kinds that cross, a second `ELSE`, and ends without a block. -/
def tangledLines : List Text :=
  ["IF A", "ELSE", "WHEN 1 DISPLAY 'A'", "END-IF", "ELSE DISPLAY 'B'.", "EVALUATE X", "WHEN 2",
    "ELSE.", "END-IF.", "END-EVALUATE", "WHEN 'C'", "END-IF"].map String.toList

/-- Lines with blocks of both kinds across each other, and parts that come twice. -/
theorem split_eq_cut_tangled :
    IfBlock.split tangledLines =
        { whenTrue := ["IF A", "ELSE", "WHEN 1 DISPLAY 'A'", "END-IF"].map String.toList
          whenFalse := ["DISPLAY 'B'", "EVALUATE X", "WHEN 2"].map String.toList
          rest := ["END-EVALUATE", "WHEN 'C'", "END-IF"].map String.toList } ∧
      EvaluateBlock.split tangledLines =
        { leading := ["IF A", "ELSE"].map String.toList
          branches :=
            [⟨['1'], ["DISPLAY 'A'", "END-IF", "ELSE DISPLAY 'B'.", "EVALUATE X", "WHEN 2",
                "ELSE.", "END-IF.", "END-EVALUATE"].map String.toList⟩,
              ⟨"'C'".toList, ["END-IF".toList]⟩] } ∧
      unread "IF B".toList tangledLines =
        ["END-EVALUATE", "WHEN 'C'", "END-IF"].map String.toList := by
  obtain ⟨hif, hevaluate, hcut⟩ := split_eq_cut tangledLines
  have hheader : Verb.ofStatement "IF B".toList = BlockKind.conditional.opener := by
    decide +kernel
  exact ⟨hif.trans (by decide +kernel), hevaluate.trans (by decide +kernel),
    ((hcut .conditional).2 _ hheader).trans (by decide +kernel)⟩

end Cobol
