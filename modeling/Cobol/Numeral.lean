import Cobol.Fault
import Cobol.Text.Digit

/-!
# Numerals

Reading and writing of unbounded integers in decimal, with a limit on the number of digits in both
directions, and the division of the language, which rounds toward zero.

## Shape decisions

* `isLiteral` and `isSigned` are the two shapes in which the language recognises an integer: a
  literal of a statement has at most a minus sign, a stored text may have either sign.
* `read` is applied to texts of these shapes and to runs of digits that may hold signs without place
  value; it is there that a numeral may fail.
-/

namespace Cobol.Numeral

open Text

/-! ### Shapes -/

/-- A non-empty text of decimal digits. -/
def isDigits (t : Text) : Bool :=
  !t.isEmpty && t.all isDecimal

/-- A text without one line feed at its end. -/
def dropFinalNewline (t : Text) : Text :=
  if t.getLast? == some '\n' then t.dropLast else t

/-- An integer literal: decimal digits behind an optional minus sign, and at most one line feed at
the end. -/
def isLiteral (t : Text) : Bool :=
  match dropFinalNewline t with
  | '-' :: digits => isDigits digits
  | digits => isDigits digits

/-- A signed integer: decimal digits behind an optional sign. -/
def isSigned (t : Text) : Bool :=
  match t with
  | '-' :: digits => isDigits digits
  | '+' :: digits => isDigits digits
  | digits => isDigits digits

/-! ### Reading -/

/-- The number whose decimal digits are given, most significant first. -/
def ofDigits (digits : Text) : Nat :=
  digits.foldl (fun n c ↦ 10 * n + (decimalValue? c).getD 0) 0

/-- A numeral as its sign (`true` for minus) and what stands behind it. -/
def splitSign : Text → Bool × Text
  | '-' :: digits => (true, digits)
  | '+' :: digits => (false, digits)
  | digits => (false, digits)

/-- The integer a text denotes, blanks around it aside. The digits before the first character
without place value are counted against the limit first. -/
def read (t : Text) : Except Fault Int :=
  let (minus, digits) := splitSign (trim t)
  let leading := (digits.takeWhile isDecimal).length
  if digitLimit < leading then .error (.longNumeral leading)
  else if isDigits digits then
    .ok (if minus then -(ofDigits digits : Int) else (ofDigits digits : Int))
  else .error (.noNumeral t)

/-! ### Writing -/

/-- The decimal digits of a natural number. -/
def digits (n : Nat) : Text :=
  Nat.toDigits 10 n

/-- The decimal form of an integer, with a minus sign if it is negative. -/
def decimal : Int → Text
  | .ofNat n => digits n
  | .negSucc n => '-' :: digits (n + 1)

/-- The decimal form of an integer within the digit limit. -/
def write (n : Int) : Except Fault Text :=
  if n.natAbs < Nat.pow 10 digitLimit then .ok (decimal n) else .error .longNumber

/-! ### Division -/

/-- The quotient rounded toward zero; `none` for the divisor zero. -/
def divide? (dividend divisor : Int) : Option Int :=
  if divisor = 0 then none else some (dividend.tdiv divisor)

end Cobol.Numeral
