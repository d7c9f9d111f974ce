import Cobol.Yaml.Supply

/-!
# Places in a settings text

The reader of settings goes through its text by a cursor: what is still to be read, and where it
starts. The place counts because indentation carries the structure and because a key ends on the
line on which it starts.

## Shape decisions

* A cursor only moves over characters that stand at its front (`Cursor.past`), so what is left is
  always a `drop` of what was there, and every loop of the reader ends by the length of what is left
  (`length_rest_past`).
* The text is taken with unified line ends; beside the line feed three other characters end a line.
-/

namespace Cobol.Yaml

/-! ### Characters -/

/-- The characters that end a line. -/
def isBreak (c : Char) : Bool :=
  c == '\n' || c == '\u0085' || c == '\u2028' || c == '\u2029'

/-- The character that a line end leaves in a scalar. -/
def breakText (c : Char) : Char :=
  if c == '\u0085' then '\n' else c

/-- A mark ends here: a space, a tab, a line end or the end of the text follows. -/
def endsMark : Text → Bool
  | [] => true
  | c :: _ => c == ' ' || c == '\t' || isBreak c

/-- A line starts here that is a mark between documents. -/
def startsDocumentMark : Text → Bool
  | '-' :: '-' :: '-' :: rest => endsMark rest
  | '.' :: '.' :: '.' :: rest => endsMark rest
  | _ => false

/-- A blank piece of text ends a line, and a mark between documents follows. -/
def endsBeforeMark (piece rest : Text) : Bool :=
  piece.getLast?.any isBreak && startsDocumentMark rest

/-- What a blank piece of text counts inside a scalar: without a line end it stands for itself, a
single line feed is a space, and of more line ends a leading line feed is left out. -/
def folded (piece : Text) : Text :=
  match (piece.filter isBreak).map breakText with
  | [] => piece
  | ['\n'] => [' ']
  | '\n' :: more => more
  | all => all

/-! ### Cursors -/

/-- A place in a text. -/
structure Place where
  /-- The number of characters in front of it. -/
  index : Nat := 0
  /-- The number of lines in front of it. -/
  line : Nat := 0
  /-- The number of characters in front of it on its line. -/
  column : Nat := 0

/-- The place behind a character. A byte order mark takes no column. -/
def Place.after (p : Place) (c : Char) : Place :=
  if isBreak c then { index := p.index + 1, line := p.line + 1, column := 0 }
  else if c == '\uFEFF' then { p with index := p.index + 1 }
  else { p with index := p.index + 1, column := p.column + 1 }

/-- What is still to be read, and where it starts. -/
structure Cursor where
  /-- The characters that are still to be read. -/
  rest : Text
  /-- The place of the first of them. -/
  place : Place := {}
  /-- The error behind them, if they are not all. -/
  beyond : Option ReadError := none

namespace Cursor

/-- The cursor at the start of a text. -/
def ofSupply (s : Supply) : Cursor :=
  { rest := s.text, beyond := s.beyond }

/-- The error of a reading that needs more than there is. -/
def endError (c : Cursor) : ReadError :=
  c.beyond.getD .malformed

/-- The cursor behind the characters of a piece, which stands at its front. -/
def past (c : Cursor) (piece : Text) : Cursor :=
  { c with rest := c.rest.drop piece.length, place := piece.foldl Place.after c.place }

/-- The cursor behind a number of characters. -/
def skip (c : Cursor) (n : Nat) : Cursor :=
  c.past (c.rest.take n)

@[simp]
theorem length_rest_past (c : Cursor) (piece : Text) :
    (c.past piece).rest.length = c.rest.length - piece.length := by
  simp [past]

@[simp]
theorem length_rest_skip (c : Cursor) (n : Nat) :
    (c.skip n).rest.length = c.rest.length - n := by
  simp only [skip, length_rest_past, List.length_take]
  omega

theorem length_rest_past_lt {c : Cursor} {piece : Text} (hc : 0 < c.rest.length)
    (hpiece : piece ≠ []) : (c.past piece).rest.length < c.rest.length := by
  have := List.length_pos_iff.mpr hpiece
  rw [length_rest_past]
  omega

theorem length_rest_skip_lt {c : Cursor} (hc : 0 < c.rest.length) (n : Nat) :
    (c.skip (n + 1)).rest.length < c.rest.length := by
  rw [length_rest_skip]
  omega

end Cursor

end Cobol.Yaml
