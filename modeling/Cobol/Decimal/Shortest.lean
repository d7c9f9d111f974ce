import Cobol.Decimal.Binary64

/-!
# Shortest decimals

The text of a binary number is the shortest decimal that reads back as the number. For one, two, …
seventeen digits the two neighbours of the number on that decimal grid are tried; the first grid
with a hit gives the digits, of two hits the nearer one, and of two equally near ones the even one.

How the digits are laid out (where positional notation ends, how an exponent is written) is a
record, `Layout`.
-/

namespace Cobol

namespace Binary64

/-- A positive decimal: `digits * 10 ^ exponent`. -/
structure Decimal where
  /-- The digits as a number. -/
  digits : Nat
  /-- The exponent of the last digit. -/
  exponent : Int

/-- `a * 10 ^ exponent` compared with `num / den`. -/
def compareScaled (a : Nat) (exponent : Int) (num den : Nat) : Ordering :=
  match exponent with
  | .ofNat n => compare (a * Nat.pow 10 n * den) num
  | .negSucc n => compare (a * den) (num * Nat.pow 10 (n + 1))

/-- A decimal lies between the halfway points to the neighbours of a number; the points themselves
count if the significand is even. The points are `(4 s - below) / 4` and `(4 s + 2) / 4` in units of
the last bit, where `below` is one at a power of two, whose lower neighbour is nearer. -/
def readsBack (significand : Nat) (exponent : Int) (d : Decimal) : Bool :=
  let below := if significand = Nat.pow 2 52 ∧ leastExponent < exponent then 1 else 2
  let (lowNum, lowDen) := fraction (4 * significand - below) (exponent - 2)
  let (highNum, highDen) := fraction (4 * significand + 2) (exponent - 2)
  let low := compareScaled d.digits d.exponent lowNum lowDen
  let high := compareScaled d.digits d.exponent highNum highDen
  if significand % 2 = 0 then low.isGE && high.isLE else low.isGT && high.isLT

/-- The exponent of the leading digit of a positive quotient. -/
def leadingExponent (num den : Nat) : Int :=
  let guess : Int := ((Nat.toDigits 10 num).length : Int) - (Nat.toDigits 10 den).length
  if compareScaled 1 guess num den = .gt then guess - 1 else guess

/-- The quotient `num / den * 10 ^ -exponent`, rounded down, and the fraction it was cut from. -/
def gridBelow (num den : Nat) (exponent : Int) : Nat × Nat × Nat :=
  let (n, d) := match exponent with
    | .ofNat k => (num, den * Nat.pow 10 k)
    | .negSucc k => (num * Nat.pow 10 (k + 1), den)
  (n / d, n % d, d)

/-- The decimal with a number of digits that reads back as the number, if there is one. -/
def onGrid? (significand : Nat) (exponent : Int) (num den : Nat) (leading : Int) (count : Nat) :
    Option Decimal :=
  let e := leading - count + 1
  let (q, r, d) := gridBelow num den e
  let nearer := if roundQuotient (q * d + r) d = q then [q, q + 1] else [q + 1, q]
  (nearer.map fun n ↦ (⟨n, e⟩ : Decimal)).find? (readsBack significand exponent)

/-- The shortest decimal that reads back as a positive number. -/
def shortest (significand : Nat) (exponent : Int) : Decimal :=
  let (num, den) := fraction significand exponent
  let leading := leadingExponent num den
  match (List.range 17).findSome? fun n ↦
      onGrid? significand exponent num den leading (n + 1) with
  | some d => d
  | none => ⟨num, 0⟩

/-! ### Layout -/

/-- The decisions of a decimal format. -/
structure Layout where
  /-- Least exponent of the leading digit that is written positionally. -/
  plainFrom : Int
  /-- Least greater exponent that is not. -/
  plainBelow : Int
  /-- Least number of digits of a written exponent. -/
  exponentWidth : Nat
  /-- The text of an infinity. -/
  infinity : Text
  /-- The text of what is no number. -/
  undefined : Text

/-- Digits without the zeros at their end. -/
def dropZeros (digits : Text) : Text :=
  (digits.reverse.dropWhile (· == '0')).reverse

/-- An exponent with its sign, filled with zeros. -/
def Layout.exponentText (l : Layout) (e : Int) : Text :=
  let digits := Nat.toDigits 10 e.natAbs
  (if e < 0 then '-' else '+') :: (List.replicate (l.exponentWidth - digits.length) '0' ++ digits)

/-- The digits of a decimal whose leading digit has the exponent `e`. -/
def Layout.positive (l : Layout) (digits : Text) (e : Int) : Text :=
  if l.plainFrom ≤ e ∧ e < l.plainBelow then
    match e with
    | .negSucc n => '0' :: '.' :: (List.replicate n '0' ++ digits)
    | .ofNat n =>
      let whole := digits.take (n + 1) ++ List.replicate (n + 1 - digits.length) '0'
      let places := digits.drop (n + 1)
      whole ++ '.' :: (if places.isEmpty then ['0'] else places)
  else
    let places := digits.drop 1
    digits.take 1 ++ (if places.isEmpty then [] else '.' :: places) ++ 'e' :: l.exponentText e

/-- The text of a number. -/
def Layout.text (l : Layout) : Binary64 → Text
  | .undefined => l.undefined
  | .infinite minus => if minus then '-' :: l.infinity else l.infinity
  | .finite minus significand exponent =>
    let body :=
      if significand = 0 then ['0', '.', '0']
      else
        let d := shortest significand exponent
        let digits := Nat.toDigits 10 d.digits
        l.positive (dropZeros digits) (d.exponent + digits.length - 1)
    if minus then '-' :: body else body

end Binary64

end Cobol
