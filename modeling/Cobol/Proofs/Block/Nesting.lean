import Mathlib.Data.List.Basic
import Cobol.Block

/-!
# Nesting

The end of a block is found by counting the keywords of its own kind. This module follows that count
(`depthAfter`) and says which lines a splitter passes over whole: those that leave the depth where
it was and never let it show through to the block around them.

* The count is a monadic fold of one step per line, so lines behind each other compose
  (`depthAfter_append`), and lines that can be passed at the bottom can be passed at any depth
  (`depthAfter_add`).
* `IfBlock.splitFrom_append` and `EvaluateBlock.splitFrom_append` are all that the rest of the
  theory needs to know about the two splitters: lines with a depth behind them go to the open part.

## Shape decisions

* Both kinds of blocks are one definition with three keywords: the opening one, the closing one, and
  the one that begins another part (`BlockKind`).
* Depth zero is the level of the block that is being split. There a closing line or a new part is no
  step at all, and this is where the two splitters stop.
-/

namespace Cobol

/-- The two kinds of block. -/
inductive BlockKind
  /-- From `IF` to `END-IF`. -/
  | conditional
  /-- From `EVALUATE` to `END-EVALUATE`. -/
  | choice
  deriving DecidableEq, Repr

namespace BlockKind

/-- The verb that opens a block. -/
def opener : BlockKind → Verb
  | conditional => .ifThen
  | choice => .evaluate

/-- The verb that closes a block. -/
def closer : BlockKind → Verb
  | conditional => .endIf
  | choice => .endEvaluate

/-- The verb that starts a further part of a block. -/
def part : BlockKind → Verb
  | conditional => .otherwise
  | choice => .when

/-! ### The count -/

/-- The depth behind a line with the given verb; `none` where the line belongs to the block around
the lines, because it ends that block or starts a part of it. -/
def step (k : BlockKind) (depth : Nat) (v : Verb) : Option Nat :=
  if v = k.opener then some (depth + 1)
  else if v = k.closer then
    match depth with
    | 0 => none
    | outer + 1 => some outer
  else if v = k.part ∧ depth = 0 then none
  else some depth

/-- The depth behind lines. -/
def depthAfter (k : BlockKind) (depth : Nat) (lines : List Text) : Option Nat :=
  lines.foldlM (fun d line ↦ k.step d (Verb.ofStatement line)) depth

/-- The lines hold whole blocks of the kind, and nothing of a block around them. -/
def Closed (k : BlockKind) (lines : List Text) : Prop :=
  k.depthAfter 0 lines = some 0

instance (k : BlockKind) : DecidablePred k.Closed := fun lines ↦
  inferInstanceAs (Decidable (k.depthAfter 0 lines = some 0))

variable (k : BlockKind)

@[simp] theorem depthAfter_nil (depth : Nat) : k.depthAfter depth [] = some depth := rfl

/-- The count takes one step for the first line and goes on from there. -/
theorem depthAfter_cons (depth : Nat) (line : Text) (rest : List Text) :
    k.depthAfter depth (line :: rest) =
      (k.step depth (Verb.ofStatement line)).bind fun d ↦ k.depthAfter d rest :=
  List.foldlM_cons

/-- Lines behind each other are counted one after the other. -/
theorem depthAfter_append (depth : Nat) (xs ys : List Text) :
    k.depthAfter depth (xs ++ ys) = (k.depthAfter depth xs).bind fun d ↦ k.depthAfter d ys :=
  List.foldlM_append

/-- An opening line leads one level down. -/
@[simp] theorem step_opener (depth : Nat) : k.step depth k.opener = some (depth + 1) := by
  simp [step]

/-- Inside, a closing line leads one level up. -/
@[simp] theorem step_closer_succ (depth : Nat) : k.step (depth + 1) k.closer = some depth := by
  cases k <;> simp [step, opener, closer]

/-- Inside, a line that begins a part belongs to an inner block and does not count. -/
@[simp] theorem step_part_succ (depth : Nat) :
    k.step (depth + 1) k.part = some (depth + 1) := by
  cases k <;> simp [step, opener, closer, part]

/-- A verb that is no keyword of the kind leaves the depth as it is. -/
theorem step_of_ne {v : Verb} (hopener : v ≠ k.opener) (hcloser : v ≠ k.closer)
    (hpart : v ≠ k.part) (depth : Nat) : k.step depth v = some depth := by
  simp [step, hopener, hcloser, hpart]

variable {k}

/-- What a line can do to the depth. -/
theorem step_cases {depth after : Nat} {v : Verb} (h : k.step depth v = some after) :
    (v = k.opener ∧ after = depth + 1) ∨ (v = k.closer ∧ depth = after + 1) ∨
      (v ≠ k.opener ∧ v ≠ k.closer ∧ (v = k.part → depth ≠ 0) ∧ after = depth) := by
  unfold step at h
  split_ifs at h with hopener hcloser hpart
  · cases h
    exact Or.inl ⟨hopener, rfl⟩
  · cases depth with
    | zero => cases h
    | succ outer =>
      cases h
      exact Or.inr (Or.inl ⟨hcloser, rfl⟩)
  · cases h
    exact Or.inr (Or.inr ⟨hopener, hcloser, fun hv hd ↦ hpart ⟨hv, hd⟩, rfl⟩)

/-- A line that belongs to the block around ends it or starts a part of it. -/
theorem step_eq_none {depth : Nat} {v : Verb} (h : k.step depth v = none) :
    depth = 0 ∧ (v = k.closer ∨ v = k.part) := by
  unfold step at h
  split_ifs at h with hopener hcloser hpart
  · cases depth with
    | zero => exact ⟨rfl, Or.inl hcloser⟩
    | succ outer => cases h
  · exact ⟨hpart.2, Or.inr hpart.1⟩

/-- **A step is the same at every depth below.** A line that leads from one depth to another leads
from any lower start to an equally lower end. -/
theorem step_add {depth after : Nat} {v : Verb} (h : k.step depth v = some after) (n : Nat) :
    k.step (depth + n) v = some (after + n) := by
  rcases step_cases h with ⟨rfl, rfl⟩ | ⟨rfl, rfl⟩ | ⟨hopener, hcloser, hpart, rfl⟩
  · rw [step_opener]
    congr 1
    omega
  · rw [show after + 1 + n = after + n + 1 by omega, step_closer_succ]
  · have hpart' : ¬(v = k.part ∧ after + n = 0) := fun ⟨hv, hzero⟩ ↦ hpart hv (by omega)
    simp only [step, hopener, hcloser, hpart', if_false]

/-- The count does not depend on how deep it starts, as long as it does not reach the bottom. -/
theorem depthAfter_add {depth after : Nat} {lines : List Text}
    (h : k.depthAfter depth lines = some after) (n : Nat) :
    k.depthAfter (depth + n) lines = some (after + n) := by
  induction lines generalizing depth with
  | nil =>
    rw [depthAfter_nil, Option.some.injEq] at h ⊢
    omega
  | cons line rest ih =>
    rw [depthAfter_cons, Option.bind_eq_some_iff] at h
    obtain ⟨d, hd, hrest⟩ := h
    rw [depthAfter_cons, step_add hd n]
    exact ih hrest

/-! ### Closed lines -/

/-- No lines are closed. -/
theorem Closed.nil : k.Closed [] := rfl

/-- Closed lines behind closed lines are closed. -/
theorem Closed.append {xs ys : List Text} (hxs : k.Closed xs) (hys : k.Closed ys) :
    k.Closed (xs ++ ys) := by
  rw [Closed, depthAfter_append, hxs]
  exact hys

/-- Closed lines leave every depth as it was. -/
theorem Closed.depthAfter_eq {lines : List Text} (h : k.Closed lines) (depth : Nat) :
    k.depthAfter depth lines = some depth := by
  have := depthAfter_add h depth
  rwa [Nat.zero_add] at this

/-- A line that does not count can be put in front of closed lines. -/
theorem closed_cons_of_step {line : Text} (h : k.step 0 (Verb.ofStatement line) = some 0)
    {rest : List Text} : k.Closed (line :: rest) ↔ k.Closed rest := by
  rw [Closed, depthAfter_cons, h]
  rfl

/-- A block is closed for its own kind when its inner lines can be passed at depth one. -/
theorem closed_block {header close : Text} {inner : List Text}
    (hheader : Verb.ofStatement header = k.opener) (hinner : k.depthAfter 1 inner = some 1)
    (hclose : Verb.ofStatement close = k.closer) : k.Closed (header :: (inner ++ [close])) := by
  rw [Closed, depthAfter_cons, hheader, step_opener, Option.bind_some, depthAfter_append, hinner,
    Option.bind_some, depthAfter_cons, hclose, step_closer_succ]
  rfl

end BlockKind

/-! ### What the splitters pass over -/

namespace IfBlock

@[simp] theorem push_nil (inElse : Bool) (b : IfBlock) : b.push inElse [] = b := by
  cases inElse <;> rfl

/-- Pushing twice is pushing both lists at once, the later one in front. -/
theorem push_push (inElse : Bool) (xs ys : List Text) (b : IfBlock) :
    (b.push inElse ys).push inElse xs = b.push inElse (xs ++ ys) := by
  cases inElse <;> simp [push]

/-- A line that only moves the depth goes to the open part. -/
theorem splitFrom_cons {depth after : Nat} {line : Text}
    (h : BlockKind.conditional.step depth (Verb.ofStatement line) = some after) (inElse : Bool)
    (rest : List Text) :
    splitFrom depth inElse (line :: rest) = (splitFrom after inElse rest).push inElse [line] := by
  rcases BlockKind.step_cases h with ⟨hv, rfl⟩ | ⟨hv, rfl⟩ | ⟨hopener, hcloser, hpart, rfl⟩
  · rw [splitFrom.eq_2 _ _ _ _ hv]
  · rw [splitFrom.eq_4 _ _ _ _ hv]
  · exact splitFrom.eq_6 _ _ _ _ hopener (fun hv _ ↦ hcloser hv) (fun _ hv _ ↦ hcloser hv) hpart

/-- Lines that leave a depth behind them go to the open part. -/
theorem splitFrom_append {depth after : Nat} {xs : List Text}
    (h : BlockKind.conditional.depthAfter depth xs = some after) (inElse : Bool)
    (ys : List Text) :
    splitFrom depth inElse (xs ++ ys) = (splitFrom after inElse ys).push inElse xs := by
  induction xs generalizing depth with
  | nil =>
    rw [BlockKind.depthAfter_nil, Option.some.injEq] at h
    rw [h, push_nil, List.nil_append]
  | cons line rest ih =>
    rw [BlockKind.depthAfter_cons, Option.bind_eq_some_iff] at h
    obtain ⟨d, hd, hrest⟩ := h
    rw [List.cons_append, splitFrom_cons hd, ih hrest, push_push]
    rfl

/-- At the bottom an `END-IF` ends the block. -/
theorem splitFrom_close {line : Text} (h : Verb.ofStatement line = .endIf) (inElse : Bool)
    (rest : List Text) : splitFrom 0 inElse (line :: rest) = { rest := rest } := by
  simp [splitFrom, h]

/-- At the bottom an `ELSE` opens the second part, with the rest of its own line in front. -/
theorem splitFrom_part {line : Text} (h : Verb.ofStatement line = .otherwise) (inElse : Bool)
    (rest : List Text) :
    splitFrom 0 inElse (line :: rest) =
      (splitFrom 0 true rest).push true (lineOf (arguments line)) := by
  simp [splitFrom, h]

end IfBlock

namespace EvaluateBlock

/-- Puts lines in front of the lines before the first branch. -/
def pushAll (lines : List Text) (b : EvaluateBlock) : EvaluateBlock :=
  { b with leading := lines ++ b.leading }

@[simp] theorem pushAll_nil (b : EvaluateBlock) : b.pushAll [] = b := rfl

/-- A line that only moves the depth goes to the open branch. -/
theorem splitFrom_cons {depth after : Nat} {line : Text}
    (h : BlockKind.choice.step depth (Verb.ofStatement line) = some after) (rest : List Text) :
    splitFrom depth (line :: rest) = (splitFrom after rest).push line := by
  rcases BlockKind.step_cases h with ⟨hv, rfl⟩ | ⟨hv, rfl⟩ | ⟨hopener, hcloser, hpart, rfl⟩
  · rw [splitFrom.eq_2 _ _ _ hv]
  · rw [splitFrom.eq_4 _ _ _ hv]
  · exact splitFrom.eq_6 _ _ _ hopener (fun hv _ ↦ hcloser hv) (fun _ hv _ ↦ hcloser hv) hpart

/-- Lines that leave a depth behind them go to the open branch. -/
theorem splitFrom_append {depth after : Nat} {xs : List Text}
    (h : BlockKind.choice.depthAfter depth xs = some after) (ys : List Text) :
    splitFrom depth (xs ++ ys) = (splitFrom after ys).pushAll xs := by
  induction xs generalizing depth with
  | nil =>
    rw [BlockKind.depthAfter_nil, Option.some.injEq] at h
    rw [h, pushAll_nil, List.nil_append]
  | cons line rest ih =>
    rw [BlockKind.depthAfter_cons, Option.bind_eq_some_iff] at h
    obtain ⟨d, hd, hrest⟩ := h
    rw [List.cons_append, splitFrom_cons hd, ih hrest]
    rfl

/-- At the bottom an `END-EVALUATE` ends the block. -/
theorem splitFrom_close {line : Text} (h : Verb.ofStatement line = .endEvaluate)
    (rest : List Text) : splitFrom 0 (line :: rest) = { rest := rest } := by
  simp [splitFrom, h]

/-- At the bottom a `WHEN` opens a branch, with its first operand as the value. -/
theorem splitFrom_part {line : Text} (h : Verb.ofStatement line = .when) (rest : List Text) :
    splitFrom 0 (line :: rest) = (splitFrom 0 rest).openBranch (firstOperand (arguments line)) := by
  simp [splitFrom, h]

end EvaluateBlock

end Cobol
