import Cobol.Yaml.Cursor
import Cobol.Yaml.Scalar

/-!
# Scalars in a settings text

The three ways to write a scalar: plainly, between single quotes, and between double quotes with
escapes. Each may go over several lines, and a line end inside it is folded (`folded`).

## Shape decisions

* A reading takes a cursor and returns what the scalar holds with the cursor behind it: characters,
  or code points, because an escape may name a surrogate.
* A plain scalar is a sequence of runs with blank pieces between them; it is over where no run
  follows, and the blank piece in front of that is already passed. `Plain.newLine` tells whether
  that piece has ended a line, because a key may start there.
-/

namespace Cobol.Yaml

/-! ### Plain scalars -/

/-- The characters that enclose or divide items in brackets. -/
def isBracketMark (c : Char) : Bool :=
  c == ',' || c == '[' || c == ']' || c == '\x7b' || c == '\x7d'

/-- No run of a plain scalar goes on here: a blank, a colon before a blank, and in brackets every
mark of theirs, also behind a colon. -/
def endsRun (inBrackets : Bool) : Text → Bool
  | [] => true
  | ':' :: rest => endsMark rest || (inBrackets && rest.head?.any isBracketMark)
  | c :: _ => c == ' ' || c == '\t' || isBreak c || (inBrackets && (isBracketMark c || c == '?'))

/-- The run at the start of a text. -/
def run (inBrackets : Bool) : Text → Text
  | [] => []
  | c :: rest => if endsRun inBrackets (c :: rest) then [] else c :: run inBrackets rest

/-- A plain scalar can start here: a dash needs something behind it, and outside brackets so do a
question mark and a colon. -/
def startsPlain (inBrackets : Bool) : Text → Bool
  | [] => false
  | c :: rest =>
    if c == '-' || c == '?' || c == ':' then (c == '-' || !inBrackets) && !endsMark rest
    else
      !(isBracketMark c || c == ' ' || c == '\t' || isBreak c ||
        "#&*!|>'\"%@\x60".toList.contains c)

/-- A plain scalar that has been read. -/
structure Plain where
  /-- Its characters. -/
  text : Text
  /-- The cursor behind it and the blanks that follow it. -/
  cursor : Cursor
  /-- Those blanks end a line. -/
  newLine : Bool

/-- The blank piece at the start of a text, in which a plain scalar may be continued. -/
def plainGap (t : Text) : Text :=
  t.takeWhile fun c ↦ c == ' ' || isBreak c

/-- Reads the runs of a plain scalar that is indented by at least `indent`; `gap` counts in front of
the next of them. -/
def plainRuns (inBrackets : Bool) (indent : Nat) (gap : Text) (newLine : Bool) (c : Cursor) :
    Plain :=
  if h : run inBrackets c.rest = [] ∨ c.rest = [] then ⟨[], c, newLine⟩
  else
    let piece := run inBrackets c.rest
    let behind := c.past piece
    let blank := plainGap behind.rest
    let next := behind.past blank
    have : next.rest.length < c.rest.length := by
      simp only [not_or] at h
      have := List.length_pos_iff.mpr h.1
      have := List.length_pos_iff.mpr h.2
      simp only [next, behind, piece, Cursor.length_rest_past]
      omega
    let ends := blank.any isBreak
    if blank.isEmpty || endsBeforeMark blank next.rest || next.rest.head? == some '#' ||
        (!inBrackets && next.place.column < indent) then
      ⟨gap ++ piece, next, ends⟩
    else
      let more := plainRuns inBrackets indent (folded blank) ends next
      { more with text := gap ++ piece ++ more.text }
termination_by c.rest.length
decreasing_by exact this

/-- Reads a plain scalar. -/
def plain (inBrackets : Bool) (indent : Nat) (c : Cursor) : Plain :=
  plainRuns inBrackets indent [] false c

/-! ### Quoted scalars -/

/-- The blank piece at the start of a text inside quotes. -/
def quotedGap (t : Text) : Text :=
  t.takeWhile fun c ↦ c == ' ' || c == '\t' || isBreak c

/-- The character of an escape that is one letter. -/
def escaped? : Char → Option Char
  | '0' => some '\x00'
  | 'a' => some '\x07'
  | 'b' => some '\x08'
  | 't' => some '\t'
  | '\t' => some '\t'
  | 'n' => some '\n'
  | 'v' => some '\x0b'
  | 'f' => some '\x0c'
  | 'r' => some '\r'
  | 'e' => some '\x1b'
  | ' ' => some ' '
  | '"' => some '"'
  | '\\' => some '\\'
  | '/' => some '/'
  | 'N' => some '\u0085'
  | '_' => some '\u00a0'
  | 'L' => some '\u2028'
  | 'P' => some '\u2029'
  | _ => none

/-- The number of digits of an escape by code. -/
def escapeWidth? : Char → Option Nat
  | 'x' => some 2
  | 'u' => some 4
  | 'U' => some 8
  | _ => none

/-- The first code that is too great to be counted. -/
def codeLimit : Nat := Nat.pow 2 31

/-- The code point of a code. -/
def ofCode (n : Nat) : Read CodePoint :=
  match CodePoint.ofNat? n with
  | some p => .ok p
  | none => .error (if codeLimit ≤ n then .tooGreat else .noValue)

/-- The code points of a text. -/
def points (t : Text) : List CodePoint :=
  t.map .char

/-- What a backslash and the characters behind it stand for, and their number without the
backslash. An escaped line end stands for nothing; with it go the blanks that follow, of which the
line ends stay. `endError` is the error of an escape that is not all there. -/
def escapeAt (endError : ReadError) (rest : Text) : Read (List CodePoint × Nat) :=
  match rest with
  | [] => .error endError
  | e :: rest =>
    if isBreak e then
      let blank := quotedGap rest
      if endsBeforeMark (e :: blank) (rest.drop blank.length) then .error .malformed
      else .ok (points ((blank.filter isBreak).map breakText), blank.length + 1)
    else
      match escaped? e, escapeWidth? e with
      | some c, _ => .ok ([.char c], 1)
      | none, some width =>
        let digits := rest.take width
        if !digits.all (isBaseDigit 16) then .error .malformed
        else if digits.length < width then .error endError
        else (ofCode (inBase 16 digits)).map fun p ↦ ([p], width + 1)
      | none, none => .error .malformed

/-- Reads a quoted scalar from behind its opening quote; a quote is doubled between single quotes
and escaped between double quotes. -/
def quoted (double : Bool) (c : Cursor) : Read (List CodePoint × Cursor) :=
  match h : c.rest with
  | [] => .error c.endError
  | ch :: rest =>
    have hc : 0 < c.rest.length := h ▸ Nat.succ_pos rest.length
    if ch == '"' && double then .ok ([], c.skip 1)
    else if ch == '\'' && !double then
      if rest.head? == some '\'' then
        have : (c.skip 2).rest.length < c.rest.length := Cursor.length_rest_skip_lt hc 1
        (quoted double (c.skip 2)).map fun (t, after) ↦ (.char '\'' :: t, after)
      else .ok ([], c.skip 1)
    else if ch == '\\' && double then
      match escapeAt c.endError rest with
      | .error e => .error e
      | .ok (t, n) =>
        have : (c.skip (n + 1)).rest.length < c.rest.length := Cursor.length_rest_skip_lt hc n
        (quoted double (c.skip (n + 1))).map fun (more, after) ↦ (t ++ more, after)
    else if hb : quotedGap c.rest ≠ [] then
      let blank := quotedGap c.rest
      if endsBeforeMark blank (c.rest.drop blank.length) then .error .malformed
      else
        have : (c.past blank).rest.length < c.rest.length := Cursor.length_rest_past_lt hc hb
        (quoted double (c.past blank)).map fun (t, after) ↦
          (points (folded blank) ++ t, after)
    else
      have : (c.skip 1).rest.length < c.rest.length := Cursor.length_rest_skip_lt hc 0
      (quoted double (c.skip 1)).map fun (t, after) ↦ (.char ch :: t, after)
termination_by c.rest.length
decreasing_by all_goals assumption

end Cobol.Yaml
