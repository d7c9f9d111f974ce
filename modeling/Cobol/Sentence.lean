import Cobol.Text.Basic

/-!
# Sentences

Source lines become statements in two steps: `normalize` drops comments and surrounding blanks, and
`sentences` cuts a line at every period that is followed by a blank. Neither looks inside a literal.

## Shape decisions

* Literals are tracked by `literalAfter`, a function of the open quote and the next character. The
  comment finder, the terminator test and the sentence splitter all read a line through it, so they
  agree on what is inside a literal; an unclosed literal reaches to the end of the line.
* `pieces` cuts without trimming and loses no character; `sentences` trims the pieces and drops the
  empty ones.
-/

namespace Cobol.Sentence

open Text

/-! ### Literals in a line -/

/-- The quote of the literal that is open behind `c`, if `open?` was the one before it. -/
def literalAfter (open? : Option Char) (c : Char) : Option Char :=
  match open? with
  | some q => if c == q then none else some q
  | none => if isQuote c then some c else none

/-- The quote of the literal that is open at the end of a text. -/
def openLiteral (t : Text) : Option Char :=
  t.foldl literalAfter none

/-! ### Comments -/

/-- A line whose first character that is not blank is an asterisk. -/
def isComment (line : Text) : Bool :=
  (trimLeft line).head? == some '*'

/-- The part of a line before the first `*>` outside literals, if there is one. -/
def beforeComment? (open? : Option Char) : Text → Option Text
  | [] => none
  | c :: rest =>
    if open?.isNone && c == '*' && rest.head? == some '>' then some []
    else (beforeComment? (literalAfter open? c) rest).map (c :: ·)

/-- A line without its inline comment and the blanks before it. -/
def dropComment (line : Text) : Text :=
  match beforeComment? none line with
  | some t => trimRight t
  | none => line

/-- The content of a line: what is left of it without comment and surrounding blanks. -/
def content (line : Text) : Text :=
  if isComment line then [] else trim (dropComment line)

/-- The contents of the lines that have one. -/
def normalize (lines : List Text) : List Text :=
  (lines.map content).filter fun t ↦ !t.isEmpty

/-! ### Periods -/

/-- A sentence without its final period, unless the period is part of a literal. -/
def dropPeriod (sentence : Text) : Text :=
  let t := trimRight sentence
  if t.getLast? == some '.' && (openLiteral t.dropLast).isNone then trimRight t.dropLast else t

/-- A line cut behind every period that is outside literals and followed by a blank. -/
def pieces (open? : Option Char) : Text → List Text
  | [] => [[]]
  | c :: rest =>
    if open?.isNone && c == '.' && rest.head?.any isBlank then [c] :: pieces none rest
    else (pieces (literalAfter open? c) rest).modifyHead (c :: ·)

theorem pieces_ne_nil (open? : Option Char) (t : Text) : pieces open? t ≠ [] := by
  fun_induction pieces open? t with
  | case1 => simp
  | case2 => simp
  | case3 _ _ _ _ ih => simpa [List.modifyHead_eq_nil_iff] using ih

/-- The pieces of a line make up the line. -/
@[simp]
theorem flatten_pieces (open? : Option Char) (t : Text) : (pieces open? t).flatten = t := by
  fun_induction pieces open? t with
  | case1 => rfl
  | case2 _ _ _ _ ih => simp [ih]
  | case3 open? c rest _ ih =>
    obtain ⟨first, more, h⟩ :=
      List.exists_cons_of_ne_nil (pieces_ne_nil (literalAfter open? c) rest)
    rw [h] at ih ⊢
    simpa using ih

/-- The sentences of a line, in order, each with its period. -/
def sentences (line : Text) : List Text :=
  ((pieces none line).map trim).filter fun t ↦ !t.isEmpty

end Cobol.Sentence
