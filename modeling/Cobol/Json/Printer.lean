import Cobol.Json.Document

/-!
# Writing documents

A document is written on one line, or with every item on a line of its own, indented by a unit per
level. Characters below the space, the quote and the backslash are escaped; every other character
stands for itself.
-/

namespace Cobol.Json

open Text

/-- Why a document cannot be written. -/
inductive PrintError
  /-- It holds something that has no written form. -/
  | foreign
  /-- It holds an integer beyond the digit limit. -/
  | fault (f : Fault)
  deriving DecidableEq, Repr

/-- The wording of an error. -/
def PrintError.message : PrintError → String
  | .foreign => "Object of type object is not JSON serializable"
  | .fault f => f.message

/-- How binary numbers are written: the shortest digits, positionally from `0.0001` to below
`1e+16`. -/
def numberLayout : Binary64.Layout where
  plainFrom := -4
  plainBelow := 16
  exponentWidth := 2
  infinity := "Infinity".toList
  undefined := "NaN".toList

/-- The written form of a character inside quotes. -/
def escape (c : Char) : Text :=
  if c == '"' then ['\\', '"']
  else if c == '\\' then ['\\', '\\']
  else if c == '\n' then ['\\', 'n']
  else if c == '\r' then ['\\', 'r']
  else if c == '\t' then ['\\', 't']
  else if c == '\x08' then ['\\', 'b']
  else if c == '\x0c' then ['\\', 'f']
  else if c.toNat < 32 then
    ['\\', 'u', '0', '0', Nat.digitChar (c.toNat / 16), Nat.digitChar (c.toNat % 16)]
  else [c]

/-- A text in quotes. -/
def quote (t : Text) : Text :=
  '"' :: (t.flatMap escape ++ ['"'])

/-- The unit of indentation; without one a document is written on one line. -/
abbrev Indent := Option Text

/-- The break before an item on a level. -/
def lineBreak (indent : Indent) (level : Nat) : Text :=
  match indent with
  | none => []
  | some unit => '\n' :: (List.replicate level unit).flatten

/-- What stands between two items on a level. -/
def separator (indent : Indent) (level : Nat) : Text :=
  match indent with
  | none => [',', ' ']
  | some _ => ',' :: lineBreak indent level

/-- Items between brackets on a level. -/
def enclose (indent : Indent) (level : Nat) (opening closing : Char) (items : Text) : Text :=
  opening :: (lineBreak indent (level + 1) ++ items ++ lineBreak indent level ++ [closing])

mutual

/-- Writes a document on a level. -/
def printAt (indent : Indent) (level : Nat) : Document → Except PrintError Text
  | .null => .ok "null".toList
  | .bool b => .ok (if b then "true".toList else "false".toList)
  | .integer n => (Numeral.write n).mapError .fault
  | .number x => .ok (numberLayout.text x)
  | .text t => .ok (quote t)
  | .path p => .ok (quote p.text)
  | .array [] => .ok ['[', ']']
  | .array (d :: rest) =>
    (printItems indent (level + 1) (d :: rest)).map (enclose indent level '[' ']')
  | .object [] => .ok ['\x7b', '\x7d']
  | .object (f :: rest) =>
    (printFields indent (level + 1) (f :: rest)).map (enclose indent level '\x7b' '\x7d')
  | .foreign => .error .foreign

/-- Writes the items of a list on a level. -/
def printItems (indent : Indent) (level : Nat) : List Document → Except PrintError Text
  | [] => .ok []
  | [d] => printAt indent level d
  | d :: e :: rest => do
    let first ← printAt indent level d
    let more ← printItems indent level (e :: rest)
    return first ++ separator indent level ++ more

/-- Writes the fields of an object on a level. -/
def printFields (indent : Indent) (level : Nat) :
    List (Text × Document) → Except PrintError Text
  | [] => .ok []
  | [(name, d)] => do return quote name ++ ':' :: ' ' :: (← printAt indent level d)
  | (name, d) :: e :: rest => do
    let first ← printAt indent level d
    let more ← printFields indent level (e :: rest)
    return quote name ++ ':' :: ' ' :: first ++ separator indent level ++ more

end

/-- Writes a document. -/
def print (indent : Indent) (d : Document) : Except PrintError Text :=
  printAt indent 0 d

end Cobol.Json
