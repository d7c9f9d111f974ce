import Cobol.Text.Basic

/-!
# Lines

Reading a file as text first turns every carriage return, alone or before a line feed, into a line
feed (`unifyNewlines`). The source of a program is then cut at every line boundary character
(`lines`), which are more than the line feed; a final boundary opens no further line.

Input for `ACCEPT` is cut at line feeds alone (`firstLine?`).
-/

namespace Cobol.Text

/-- Every carriage return, alone or before a line feed, becomes a line feed. -/
def unifyNewlines : Text → Text
  | [] => []
  | '\r' :: '\n' :: rest => '\n' :: unifyNewlines rest
  | c :: rest => (if c == '\r' then '\n' else c) :: unifyNewlines rest

/-- The characters that end a line of source text: line feed, carriage return, vertical tab, form
feed, three information separators, next line, and the two Unicode separators. -/
def isLineBoundary (c : Char) : Bool :=
  inRanges [(0x0A, 0x0D), (0x1C, 0x1E), (0x85, 0x85), (0x2028, 0x2029)] c

/-- The lines of a text, without their boundaries. A carriage return and the line feed behind it are
one boundary. -/
def lines : Text → List Text
  | [] => []
  | '\r' :: '\n' :: rest => [] :: lines rest
  | c :: rest =>
    if isLineBoundary c then [] :: lines rest
    else
      match lines rest with
      | [] => [[c]]
      | line :: more => (c :: line) :: more

/-- The text before the first line feed and the text behind it; `none` if there is no line feed. -/
def firstLine? (t : Text) : Option (Text × Text) :=
  cutAt? '\n' t

/-- A text without the carriage returns and line feeds at its end. -/
def dropLineEnd (t : Text) : Text :=
  (t.reverse.dropWhile fun c ↦ c == '\r' || c == '\n').reverse

/-- Texts joined by a separator. -/
def join (separator : Text) : List Text → Text
  | [] => []
  | [t] => t
  | t :: rest => t ++ separator ++ join separator rest

end Cobol.Text
