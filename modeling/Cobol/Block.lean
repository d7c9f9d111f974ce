import Cobol.Sentence
import Cobol.Verb

/-!
# Blocks

`IF` and `EVALUATE` take their parts from the lines that follow them. The end of a block is found by
counting its own keyword alone: an `IF` block ends at the first `END-IF` before which as many `IF`
as `END-IF` lines stand, an `EVALUATE` block likewise, and a block without an end takes every line.

## Shape decisions

* Both splitters recurse on the lines and put each line in front of the parts of the rest, so the
  parts of a block are a function of the lines alone, and so is what is left behind it.
* A statement may stand on the line of `ELSE` or behind the value of `WHEN`; it becomes the first
  line of that part.
-/

namespace Cobol

open Text

/-! ### Operands of a line -/

/-- What stands behind the verb of a statement, without the final period. -/
def arguments (statement : Text) : Text :=
  afterWord (Sentence.dropPeriod statement)

/-- The operand at the start of a text that does not start with a blank, and the rest: a closed
literal, else the characters up to the next blank. -/
def firstOperand (t : Text) : Text × Text :=
  let plain := (t.takeWhile fun c ↦ !isBlank c, t.dropWhile fun c ↦ !isBlank c)
  match t with
  | [] => plain
  | q :: rest =>
    if isQuote q then
      match cutAt? q rest with
      | some (body, after) => (q :: body ++ [q], after)
      | none => plain
    else plain

theorem length_firstOperand_lt {t rest : Text} {c : Char} (h : trimLeft t = c :: rest) :
    (firstOperand (c :: rest)).2.length < t.length := by
  have hrest := length_lt_of_trimLeft h
  have hplain : ((c :: rest).dropWhile fun c ↦ !isBlank c).length < t.length := by
    have := length_dropWhile_le (fun c ↦ !isBlank c) rest
    simp only [List.dropWhile_cons, isBlank_of_trimLeft h, Bool.not_false, if_true]
    omega
  unfold firstOperand
  simp only
  split
  · split
    · rename_i heq
      exact Nat.lt_trans (length_lt_of_cutAt? heq) hrest
    · exact hplain
  · exact hplain

/-- The lines that a text makes: itself, or none if it is empty. -/
def lineOf (t : Text) : List Text :=
  if t.isEmpty then [] else [t]

/-! ### Conditional blocks -/

/-- The parts of an `IF` block and the lines behind it. -/
structure IfBlock where
  /-- The lines before `ELSE`. -/
  whenTrue : List Text := []
  /-- The lines behind `ELSE`. -/
  whenFalse : List Text := []
  /-- The lines behind the block. -/
  rest : List Text := []
  deriving DecidableEq, Repr

namespace IfBlock

/-- Puts lines in front of one of the two parts. -/
def push (inElse : Bool) (lines : List Text) (b : IfBlock) : IfBlock :=
  if inElse then { b with whenFalse := lines ++ b.whenFalse }
  else { b with whenTrue := lines ++ b.whenTrue }

/-- Splits the lines behind an `IF` line; `depth` inner blocks are open, and `inElse` says that the
`ELSE` line has been passed. -/
def splitFrom (depth : Nat) (inElse : Bool) : List Text → IfBlock
  | [] => {}
  | line :: rest =>
    match Verb.ofStatement line, depth with
    | .ifThen, _ => (splitFrom (depth + 1) inElse rest).push inElse [line]
    | .endIf, 0 => { rest := rest }
    | .endIf, outer + 1 => (splitFrom outer inElse rest).push inElse [line]
    | .otherwise, 0 => (splitFrom 0 true rest).push true (lineOf (arguments line))
    | _, _ => (splitFrom depth inElse rest).push inElse [line]

/-- Splits the lines behind an `IF` line. -/
def split (lines : List Text) : IfBlock :=
  splitFrom 0 false lines

@[simp]
theorem rest_push (inElse : Bool) (lines : List Text) (b : IfBlock) :
    (b.push inElse lines).rest = b.rest := by
  cases inElse <;> rfl

theorem length_rest_splitFrom_le (depth : Nat) (inElse : Bool) (lines : List Text) :
    (splitFrom depth inElse lines).rest.length ≤ lines.length := by
  fun_induction splitFrom depth inElse lines <;> simp_all <;> omega

end IfBlock

/-! ### Choice blocks -/

/-- A branch of an `EVALUATE` block. -/
structure Branch where
  /-- The operand of the `WHEN` line. -/
  value : Text
  /-- The lines of the branch. -/
  lines : List Text
  deriving DecidableEq, Repr

/-- The branch is taken whatever the subject is. -/
def Branch.isOther (b : Branch) : Bool :=
  upper b.value == "OTHER".toList

/-- The parts of an `EVALUATE` block and the lines behind it. -/
structure EvaluateBlock where
  /-- The lines before the first `WHEN`, which belong to no branch. -/
  leading : List Text := []
  /-- The branches in order. -/
  branches : List Branch := []
  /-- The lines behind the block. -/
  rest : List Text := []
  deriving DecidableEq, Repr

namespace EvaluateBlock

/-- Puts a line in front of the lines before the first branch. -/
def push (line : Text) (b : EvaluateBlock) : EvaluateBlock :=
  { b with leading := line :: b.leading }

/-- Opens a branch with the operand and the statement behind it: the lines before the first branch
become its lines. -/
def openBranch (operand : Text × Text) (b : EvaluateBlock) : EvaluateBlock :=
  { b with
    leading := []
    branches := ⟨operand.1, lineOf (trim operand.2) ++ b.leading⟩ :: b.branches }

/-- Splits the lines behind an `EVALUATE` line; `depth` inner blocks are open. -/
def splitFrom (depth : Nat) : List Text → EvaluateBlock
  | [] => {}
  | line :: rest =>
    match Verb.ofStatement line, depth with
    | .evaluate, _ => (splitFrom (depth + 1) rest).push line
    | .endEvaluate, 0 => { rest := rest }
    | .endEvaluate, outer + 1 => (splitFrom outer rest).push line
    | .when, 0 => (splitFrom 0 rest).openBranch (firstOperand (arguments line))
    | _, _ => (splitFrom depth rest).push line

/-- Splits the lines behind an `EVALUATE` line. -/
def split (lines : List Text) : EvaluateBlock :=
  splitFrom 0 lines

@[simp]
theorem rest_push (line : Text) (b : EvaluateBlock) : (b.push line).rest = b.rest := rfl

@[simp]
theorem rest_openBranch (operand : Text × Text) (b : EvaluateBlock) :
    (b.openBranch operand).rest = b.rest := rfl

theorem length_rest_splitFrom_le (depth : Nat) (lines : List Text) :
    (splitFrom depth lines).rest.length ≤ lines.length := by
  fun_induction splitFrom depth lines <;> simp_all <;> omega

end EvaluateBlock

/-! ### What a statement leaves of the lines behind it -/

/-- The lines behind a statement that are left when it has taken its parts. -/
def unread (statement : Text) (following : List Text) : List Text :=
  match Verb.ofStatement statement with
  | .ifThen => (IfBlock.split following).rest
  | .evaluate => (EvaluateBlock.split following).rest
  | _ => following

theorem length_unread_le (statement : Text) (following : List Text) :
    (unread statement following).length ≤ following.length := by
  unfold unread
  split
  · exact IfBlock.length_rest_splitFrom_le 0 false following
  · exact EvaluateBlock.length_rest_splitFrom_le 0 following
  · exact Nat.le_refl _

end Cobol
