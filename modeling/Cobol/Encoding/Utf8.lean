import Cobol.Text.Basic

/-!
# UTF-8

Writing and reading of UTF-8, with exact accounts of malformed bytes.

## Shape decisions

* `step` reads one character or finds one *maximal malformed part*: the lead byte together with the
  continuation bytes that could still have belonged to a character. Both readers are loops over it.
* `decodeReplacing` is total: each malformed part becomes one replacement character.
* `decode` is strict: it stops at the first malformed part and tells where it stands and what is
  wrong with it.
-/

namespace Cobol.Utf8

/-- What is wrong with a malformed part. -/
inductive Malformation
  /-- The byte starts no character. -/
  | start
  /-- A byte that does not continue the character follows. -/
  | continuation
  /-- The bytes end inside the character. -/
  | ending
  deriving DecidableEq, Repr

/-- The wording of a malformation. -/
def Malformation.message : Malformation → String
  | .start => "invalid start byte"
  | .continuation => "invalid continuation byte"
  | .ending => "unexpected end of data"

/-! ### Writing -/

/-- The bytes of one character. -/
def encodeChar (c : Char) : List UInt8 :=
  let n := c.toNat
  if n < 0x80 then [n.toUInt8]
  else if n < 0x800 then [(0xC0 + n / 64).toUInt8, (0x80 + n % 64).toUInt8]
  else if n < 0x10000 then
    [(0xE0 + n / 4096).toUInt8, (0x80 + n / 64 % 64).toUInt8, (0x80 + n % 64).toUInt8]
  else
    [(0xF0 + n / 262144).toUInt8, (0x80 + n / 4096 % 64).toUInt8, (0x80 + n / 64 % 64).toUInt8,
      (0x80 + n % 64).toUInt8]

/-- The bytes of a text. -/
def encode (t : Text) : List UInt8 :=
  t.flatMap encodeChar

/-! ### Reading -/

/-- What a lead byte announces: its payload, the number of continuation bytes, and the range of the
first of them. -/
structure Lead where
  /-- The payload bits of the lead byte. -/
  payload : Nat
  /-- The number of continuation bytes. -/
  count : Nat
  /-- Least first continuation byte. -/
  low : Nat := 0x80
  /-- Greatest first continuation byte. -/
  high : Nat := 0xBF

/-- The lead bytes of characters of two and more bytes. The narrowed ranges exclude overlong forms,
surrogates and code points beyond the last. -/
def Lead.ofByte? (b : Nat) : Option Lead :=
  if 0xC2 ≤ b ∧ b ≤ 0xDF then some ⟨b - 0xC0, 1, 0x80, 0xBF⟩
  else if b = 0xE0 then some ⟨0, 2, 0xA0, 0xBF⟩
  else if b = 0xED then some ⟨0xD, 2, 0x80, 0x9F⟩
  else if 0xE1 ≤ b ∧ b ≤ 0xEF then some ⟨b - 0xE0, 2, 0x80, 0xBF⟩
  else if b = 0xF0 then some ⟨0, 3, 0x90, 0xBF⟩
  else if b = 0xF4 then some ⟨4, 3, 0x80, 0x8F⟩
  else if 0xF1 ≤ b ∧ b ≤ 0xF3 then some ⟨b - 0xF0, 3, 0x80, 0xBF⟩
  else none

/-- The result of reading at the start of non-empty bytes: a character or a malformed part, with the
number of bytes behind the first that belong to it. -/
inductive Step
  /-- A character. -/
  | char (c : Char) (more : Nat)
  /-- A malformed part. -/
  | malformed (what : Malformation) (more : Nat)

/-- Reads `count` continuation bytes, of which `taken` are already read into `code`; the next one
lies between `low` and `high`, the later ones anywhere in the continuation range. -/
def continueChar : Nat → Nat → Nat → Nat → Nat → List UInt8 → Step
  | 0, taken, code, _, _, _ => .char (Char.ofNat code) taken
  | _ + 1, taken, _, _, _, [] => .malformed .ending taken
  | count + 1, taken, code, low, high, b :: rest =>
    if low ≤ b.toNat ∧ b.toNat ≤ high then
      continueChar count (taken + 1) (code * 64 + (b.toNat - 0x80)) 0x80 0xBF rest
    else
      .malformed .continuation taken

/-- Reads one character or one maximal malformed part that starts with the byte `b`. -/
def step (b : UInt8) (rest : List UInt8) : Step :=
  if b.toNat < 0x80 then .char (Char.ofNat b.toNat) 0
  else
    match Lead.ofByte? b.toNat with
    | none => .malformed .start 0
    | some lead => continueChar lead.count 0 lead.payload lead.low lead.high rest

/-- The character that stands for a malformed part. -/
def replacement : Char := '\uFFFD'

/-- The text of the bytes; each malformed part becomes one replacement character. -/
def decodeReplacing : List UInt8 → Text
  | [] => []
  | b :: rest =>
    match step b rest with
    | .char c more => c :: decodeReplacing (rest.drop more)
    | .malformed _ more => replacement :: decodeReplacing (rest.drop more)
termination_by bytes => bytes.length
decreasing_by all_goals simp only [List.length_cons, List.length_drop]; omega

/-- A malformed part: where it stands, how many bytes it has, its first byte, what is wrong. -/
structure Malformed where
  /-- Index of the first byte. -/
  position : Nat
  /-- Number of bytes. -/
  width : Nat
  /-- The first byte. -/
  byte : UInt8
  /-- What is wrong. -/
  what : Malformation
  deriving DecidableEq, Repr

/-- The text before the first malformed part of the bytes, and that part. The bytes start at index
`position`. -/
def decodeFrom (position : Nat) : List UInt8 → Text × Option Malformed
  | [] => ([], none)
  | b :: rest =>
    match step b rest with
    | .char c more =>
      let (t, bad) := decodeFrom (position + more + 1) (rest.drop more)
      (c :: t, bad)
    | .malformed what more => ([], some ⟨position, more + 1, b, what⟩)
termination_by bytes => bytes.length
decreasing_by all_goals simp only [List.length_cons, List.length_drop]; omega

/-- The text before the first malformed part of the bytes, and that part. -/
def decode (bytes : List UInt8) : Text × Option Malformed :=
  decodeFrom 0 bytes

/-- The hexadecimal digits of a byte. -/
def hexByte (b : UInt8) : String :=
  String.ofList [Nat.digitChar (b.toNat / 16), Nat.digitChar (b.toNat % 16)]

/-- The wording of a malformed part. -/
def Malformed.message (m : Malformed) : String :=
  if m.width = 1 then
    "'utf-8' codec can't decode byte 0x" ++ hexByte m.byte ++ " in position " ++
      toString m.position ++ ": " ++ m.what.message
  else
    "'utf-8' codec can't decode bytes in position " ++ toString m.position ++ "-" ++
      toString (m.position + m.width - 1) ++ ": " ++ m.what.message

end Cobol.Utf8
