import Cobol.Block

/-!
# Statement trees

The executor never parses a program: it finds the parts of a block in the lines that follow, while
it runs. This module has the other view, in which blocks are trees. The lines of a tree carry the
proof that they have the verb they stand for, so every tree is well nested and no further condition
appears in the theorems about trees.

## Shape decisions

* A line of a tree is a text with a proof of its verb, so there is no tree whose lines would be read
  as another one.
* The alternative of a condition is an option of a list and not a list: `ELSE` with nothing behind
  it is a line that is there, and a condition without `ELSE` has no such line.
-/

namespace Cobol

open Text

/-! ### Lines by their verb -/

/-- The verb opens, divides or closes a block. -/
def Verb.isBlockKeyword : Verb → Bool
  | .ifThen | .otherwise | .endIf | .evaluate | .when | .endEvaluate => true
  | _ => false

/-- A line that is a statement on its own. -/
structure SimpleLine where
  /-- The text of the line. -/
  text : Text
  /-- The line is no keyword of a block. -/
  simple : (Verb.ofStatement text).isBlockKeyword = false

/-- A simple line opens no block. -/
theorem SimpleLine.not_opener (l : SimpleLine) :
    Verb.ofStatement l.text ≠ .ifThen ∧ Verb.ofStatement l.text ≠ .evaluate := by
  have hsimple := l.simple
  constructor <;> intro hv <;> rw [hv] at hsimple <;> cases hsimple

/-- A line with the given verb. -/
structure KeywordLine (v : Verb) where
  /-- The text of the line. -/
  text : Text
  /-- The line has the verb. -/
  verb : Verb.ofStatement text = v

/-- An `ELSE` line with nothing behind the keyword. -/
structure ElseLine extends KeywordLine .otherwise where
  /-- Nothing stands behind the keyword. -/
  bare : arguments text = []

/-- A `WHEN` line with nothing behind its value. -/
structure WhenLine extends KeywordLine .when where
  /-- Nothing stands behind the value. -/
  bare : (firstOperand (arguments text)).2 = []

/-- The value of a `WHEN` line. -/
def WhenLine.value (w : WhenLine) : Text :=
  arguments w.text

/-! ### Trees -/

/-- A statement with the statements inside it. -/
inductive Tree
  /-- A statement on its own. -/
  | line (l : SimpleLine)
  /-- An `IF` block: the statements before `ELSE`, and those behind it if there is one. -/
  | conditional (header : KeywordLine .ifThen) (whenTrue : List Tree)
      (alternative : Option (ElseLine × List Tree)) (close : KeywordLine .endIf)
  /-- An `EVALUATE` block with its branches. -/
  | choice (header : KeywordLine .evaluate) (branches : List (WhenLine × List Tree))
      (close : KeywordLine .endEvaluate)

namespace Tree

mutual

/-- The lines of a tree, with every keyword on a line of its own. -/
def lines : Tree → List Text
  | .line l => [l.text]
  | .conditional header whenTrue alternative close =>
    header.text :: (linesOf whenTrue ++ alternativeLines alternative ++ [close.text])
  | .choice header branches close => header.text :: (branchLines branches ++ [close.text])

/-- The lines of trees behind each other. -/
def linesOf : List Tree → List Text
  | [] => []
  | t :: rest => t.lines ++ linesOf rest

/-- The lines from `ELSE` on. -/
def alternativeLines : Option (ElseLine × List Tree) → List Text
  | none => []
  | some (keyword, body) => keyword.text :: linesOf body

/-- The lines of branches behind each other. -/
def branchLines : List (WhenLine × List Tree) → List Text
  | [] => []
  | (keyword, body) :: rest => keyword.text :: linesOf body ++ branchLines rest

end

end Tree

end Cobol
