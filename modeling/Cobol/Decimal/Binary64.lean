import Cobol.Text.Digit

/-!
# Binary floating point

Numbers of the 64-bit binary format, as integers: a sign, a significand and an exponent of two. No
operation here goes through machine arithmetic.

## Shape decisions

* Everything rounds through `roundQuotient`, to the nearest integer and a half to the even
  neighbour.
* A finite number is kept normal by `ofQuotient`: the significand is below `2 ^ 53` and has all its
  bits unless the exponent is the least one.
-/

namespace Cobol

open Text

/-- The nearest integer to a quotient; a half goes to the even neighbour. -/
def roundQuotient (num den : Nat) : Nat :=
  let q := num / den
  match compare (2 * (num % den)) den with
  | .lt => q
  | .gt => q + 1
  | .eq => if q % 2 = 0 then q else q + 1

/-- A number of the 64-bit binary format. -/
inductive Binary64
  /-- The number `significand * 2 ^ exponent`, with a sign that zero has too. -/
  | finite (minus : Bool) (significand : Nat) (exponent : Int)
  /-- An infinity. -/
  | infinite (minus : Bool)
  /-- No number. -/
  | undefined
  deriving DecidableEq, Repr

namespace Binary64

/-- The least exponent. -/
def leastExponent : Int := -1074

/-- The greatest exponent. -/
def greatestExponent : Int := 971

/-- Zero. -/
def zero : Binary64 := .finite false 0 leastExponent

/-- The quotient `num / den * 2 ^ -exponent` as a fraction. -/
def scaled (num den : Nat) (exponent : Int) : Nat × Nat :=
  match exponent with
  | .ofNat n => (num, den * Nat.pow 2 n)
  | .negSucc n => (num * Nat.pow 2 (n + 1), den)

/-- The number nearest to a quotient. -/
def ofQuotient (minus : Bool) (num den : Nat) : Binary64 :=
  if num = 0 then .finite minus 0 leastExponent
  else
    let low : Int := (num.log2 : Int) - den.log2 - 53
    let (n, d) := scaled num den low
    let exponent := max leastExponent (if n < Nat.pow 2 53 * d then low else low + 1)
    let (n, d) := scaled num den exponent
    let significand := roundQuotient n d
    let (significand, exponent) :=
      if significand = Nat.pow 2 53 then (Nat.pow 2 52, exponent + 1) else (significand, exponent)
    if greatestExponent < exponent then .infinite minus else .finite minus significand exponent

/-- The number nearest to `digits * 10 ^ exponent`. Exponents far beyond the format are not
expanded. -/
def ofDecimal (minus : Bool) (digits : Nat) (exponent : Int) : Binary64 :=
  let size : Int := (Nat.toDigits 10 digits).length + exponent
  if digits = 0 ∨ size < -400 then .finite minus 0 leastExponent
  else if 400 < size then .infinite minus
  else
    match exponent with
    | .ofNat n => ofQuotient minus (digits * Nat.pow 10 n) 1
    | .negSucc n => ofQuotient minus digits (Nat.pow 10 (n + 1))

/-- The magnitude of a finite number as a fraction. -/
def fraction (significand : Nat) (exponent : Int) : Nat × Nat :=
  match exponent with
  | .ofNat n => (significand * Nat.pow 2 n, 1)
  | .negSucc n => (significand, Nat.pow 2 (n + 1))

/-- The number nearest to the decimal with the given number of places that is nearest to a number.
-/
def roundPlaces (places : Nat) : Binary64 → Binary64
  | .finite minus significand exponent =>
    let (num, den) := fraction significand exponent
    ofQuotient minus (roundQuotient (num * Nat.pow 10 places) den) (Nat.pow 10 places)
  | x => x

/-! ### Arithmetic -/

/-- The number of a sign and the magnitude of another. -/
def withSign (x : Binary64) (minus : Bool) : Binary64 :=
  match x with
  | .finite _ significand exponent => .finite minus significand exponent
  | .infinite _ => .infinite minus
  | .undefined => .undefined

/-- The sum of two numbers without sign. -/
def add : Binary64 → Binary64 → Binary64
  | .finite _ s e, .finite _ t f =>
    let (m, d) := fraction s e
    let (n, c) := fraction t f
    ofQuotient false (m * c + n * d) (d * c)
  | .undefined, _ | _, .undefined => .undefined
  | _, _ => .infinite false

/-- The product of two numbers without sign of which the second is not zero. -/
def mul : Binary64 → Binary64 → Binary64
  | .finite _ s e, .finite _ t f =>
    let (m, d) := fraction s e
    let (n, c) := fraction t f
    ofQuotient false (m * n) (d * c)
  | .undefined, _ | _, .undefined => .undefined
  | _, _ => .infinite false

/-! ### Reading -/

/-- The digits at the start of a text and the rest; single underscores may stand between digits. -/
def takeDigits : Text → Text × Text
  | [] => ([], [])
  | c :: rest =>
    if isDecimal c then
      let (digits, after) := takeDigits rest
      (c :: digits, after)
    else ([], c :: rest)

/-- A text without the underscores that stand between two digits. -/
def dropUnderscores (previous? : Option Char) : Text → Text
  | [] => []
  | c :: rest =>
    if c == '_' && previous?.any isDecimal && rest.head?.any isDecimal then
      dropUnderscores none rest
    else c :: dropUnderscores (some c) rest

/-- The value of decimal digits. -/
def digitsValue (digits : Text) : Nat :=
  digits.foldl (fun n c ↦ 10 * n + (decimalValue? c).getD 0) 0

/-- The exponent at the start of a text, which must end with it. -/
def exponentOf? : Text → Option Int
  | [] => some 0
  | c :: rest =>
    if c == 'e' || c == 'E' then
      let (minus, body) := match rest with
        | '-' :: body => (true, body)
        | '+' :: body => (false, body)
        | body => (false, body)
      match takeDigits body with
      | ([], _) => none
      | (digits, []) =>
        some (if minus then -(digitsValue digits : Int) else (digitsValue digits : Int))
      | _ => none
    else none

/-- The number that an unsigned decimal denotes. -/
def ofUnsigned? (minus : Bool) (t : Text) : Option Binary64 :=
  let name := t.map Char.toLower
  if name = "inf".toList ∨ name = "infinity".toList then some (.infinite minus)
  else if name = "nan".toList then some .undefined
  else
    let (whole, rest) := takeDigits (dropUnderscores none t)
    let (places, rest) := match rest with
      | '.' :: rest => takeDigits rest
      | rest => ([], rest)
    if whole.isEmpty && places.isEmpty then none
    else
      (exponentOf? rest).map fun e ↦
        ofDecimal minus (digitsValue (whole ++ places)) (e - places.length)

/-- The number that a decimal denotes, blanks around it aside. -/
def ofText? (t : Text) : Option Binary64 :=
  match trim t with
  | '-' :: rest => ofUnsigned? true rest
  | '+' :: rest => ofUnsigned? false rest
  | rest => ofUnsigned? false rest

end Binary64

end Cobol
