import Cobol.Text.Basic

/-!
# Code points

A text that is written by the numbers of its code points may hold surrogates. Those are halves of
pairs and no characters: a text with one of them can be kept and compared, but it has no bytes.
-/

namespace Cobol

/-- A code point. -/
inductive CodePoint
  /-- A character. -/
  | char (c : Char)
  /-- A surrogate. -/
  | surrogate (n : Nat)
  deriving DecidableEq, Repr

namespace CodePoint

/-- The code point of a number. -/
def ofNat? (n : Nat) : Option CodePoint :=
  if n.isValidChar then some (.char (Char.ofNat n))
  else if n < 0x110000 then some (.surrogate n)
  else none

/-- The character that a code point is. -/
def character? : CodePoint → Option Char
  | char c => some c
  | surrogate _ => none

/-- The text that code points are, if all are characters. -/
def text? (points : List CodePoint) : Option Text :=
  points.mapM character?

/-- A run of surrogates for which a text has no bytes: where it stands, how many they are, and the
first of them. -/
structure Unencodable where
  /-- The index of the first surrogate. -/
  position : Nat
  /-- The number of surrogates. -/
  width : Nat
  /-- The number of the first surrogate. -/
  first : Nat
  deriving DecidableEq, Repr

/-- The first run of surrogates. -/
def unencodable? (points : List CodePoint) : Option Unencodable :=
  let isCharacter (p : CodePoint) : Bool := p.character?.isSome
  match points.dropWhile isCharacter with
  | .surrogate n :: rest =>
    some
      { position := (points.takeWhile isCharacter).length
        width := (rest.takeWhile fun p ↦ !isCharacter p).length + 1
        first := n }
  | _ => none

/-- The wording for a run of surrogates. -/
def Unencodable.message (u : Unencodable) : Text :=
  "'utf-8' codec can't encode character".toList ++
    (if u.width = 1 then
      " '\\u".toList ++ Nat.toDigits 16 u.first ++ "' in position ".toList ++
        Nat.toDigits 10 u.position
    else
      "s in position ".toList ++ Nat.toDigits 10 u.position ++ '-' ::
        Nat.toDigits 10 (u.position + u.width - 1)) ++
    ": surrogates not allowed".toList

end CodePoint

end Cobol
