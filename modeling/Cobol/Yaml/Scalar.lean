import Cobol.Numeral
import Cobol.Yaml.Value

/-!
# Plain scalars

How a scalar without quotes becomes a value: the words for truth values and for nothing, integers in
four bases and in sixties, decimal numbers, dates; anything else is a text.

A scalar may have the form of a number or a date and still denote none: an integer of underscores
alone, one with more digits than may be read, the thirtieth of February.
-/

namespace Cobol.Yaml

/-! ### Digits -/

/-- The value of a digit of up to sixteen, in any case. -/
def baseValue? (c : Char) : Option Nat :=
  if '0' ≤ c ∧ c ≤ '9' then some (c.toNat - 48)
  else if 'a' ≤ c ∧ c ≤ 'f' then some (c.toNat - 87)
  else if 'A' ≤ c ∧ c ≤ 'F' then some (c.toNat - 55)
  else none

/-- The digits of a base. -/
def isBaseDigit (base : Nat) (c : Char) : Bool :=
  (baseValue? c).any (· < base)

/-- The value of digits in a base; underscores are passed over. -/
def inBase (base : Nat) (digits : Text) : Nat :=
  (digits.filterMap baseValue?).foldl (fun n d ↦ base * n + d) 0

/-- The digits of a base and underscores. -/
def isDigitOrLine (base : Nat) (c : Char) : Bool :=
  isBaseDigit base c || c == '_'

/-- A non-empty text of digits of a base and underscores. -/
def areDigits (base : Nat) (t : Text) : Bool :=
  !t.isEmpty && t.all (isDigitOrLine base)

/-- A scalar as its sign (`true` for minus) and what stands behind it. -/
def splitSign : Text → Bool × Text
  | '-' :: rest => (true, rest)
  | '+' :: rest => (false, rest)
  | rest => (false, rest)

/-! ### Integers -/

/-- The integer of digits and underscores in a base that is a power of two. -/
def inBinaryBase (base : Nat) (digits : Text) : Read Nat :=
  if digits.any (isBaseDigit base) then .ok (inBase base digits) else .error .noValue

/-- The integer of decimal digits and underscores, within the digit limit. -/
def inDecimal (digits : Text) : Read Nat :=
  if digitLimit < digits.countP (· != '_') then .error .noValue else .ok (inBase 10 digits)

/-- A decimal integer that does not start with a zero. -/
def isPlainInteger (t : Text) : Bool :=
  match t with
  | c :: rest => '1' ≤ c && c ≤ '9' && rest.all (isDigitOrLine 10)
  | [] => false

/-- A place below sixty. -/
def isSixtieth : Text → Bool
  | [a] => isBaseDigit 10 a
  | [a, b] => isBaseDigit 6 a && isBaseDigit 10 b
  | _ => false

/-- The value of an unsigned integer. -/
def unsigned? (t : Text) : Option (Read Nat) :=
  match t with
  | ['0'] => some (.ok 0)
  | '0' :: 'b' :: digits => if areDigits 2 digits then some (inBinaryBase 2 digits) else none
  | '0' :: 'x' :: digits => if areDigits 16 digits then some (inBinaryBase 16 digits) else none
  | '0' :: digits => if areDigits 8 digits then some (.ok (inBase 8 digits)) else none
  | _ =>
    if isPlainInteger t then some (inDecimal t)
    else
      match t.splitOnP (· == ':') with
      | first :: place :: places =>
        if isPlainInteger first && (place :: places).all isSixtieth then
          some ((inDecimal first).map fun n ↦
            (place :: places).foldl (fun n p ↦ 60 * n + inBase 10 p) n)
        else none
      | _ => none

/-- The value of an integer with an optional sign. -/
def integer? (t : Text) : Option (Read Int) :=
  let (minus, body) := splitSign t
  (unsigned? body).map fun read ↦ read.map fun n ↦ if minus then -(n : Int) else n

/-! ### Decimal numbers -/

/-- An exponent whose sign is written, or nothing. -/
def isExponent : Text → Bool
  | [] => true
  | e :: sign :: digits =>
    (e == 'e' || e == 'E') && (sign == '+' || sign == '-') && !digits.isEmpty &&
      digits.all (isBaseDigit 10)
  | _ => false

/-- Digits, a point, and perhaps more digits and an exponent. -/
def isPointed (t : Text) : Bool :=
  t.head?.any (isBaseDigit 10) &&
    match t.dropWhile (isDigitOrLine 10) with
    | '.' :: rest => isExponent (rest.dropWhile (isDigitOrLine 10))
    | _ => false

/-- A point, digits, and perhaps an exponent. -/
def isPointFirst (t : Text) : Bool :=
  match t with
  | '.' :: rest =>
    rest.head?.any (isBaseDigit 10) && isExponent (rest.dropWhile (isDigitOrLine 10))
  | _ => false

/-- The last place of a number in sixties: a place below sixty, a point, and perhaps digits. -/
def isLastSixtieth (t : Text) : Bool :=
  isSixtieth (t.takeWhile (· != '.')) &&
    match t.dropWhile (· != '.') with
    | '.' :: rest => rest.all (isDigitOrLine 10)
    | _ => false

/-- The places of a number in sixties with a point. -/
def sixtieths? (t : Text) : Option (List Text) :=
  match t.splitOnP (· == ':') with
  | first :: place :: places =>
    if first.head?.any (isBaseDigit 10) && first.all (isDigitOrLine 10) &&
        (place :: places).dropLast.all isSixtieth &&
        (place :: places).getLast?.any isLastSixtieth then
      some (first :: place :: places)
    else none
  | _ => none

/-- A decimal without its underscores. -/
def decimalOf (t : Text) : Binary64 :=
  (Binary64.ofText? (t.filter (· != '_'))).getD .undefined

/-- The sum of places, the last one first, of which the first counts `unit`. A unit that is no
finite number is too great, even if its place is zero. -/
def sumPlaces (unit : Nat) : List Text → Binary64 → Read Binary64
  | [], total => .ok total
  | place :: rest, total =>
    match Binary64.ofQuotient false unit 1 with
    | .finite minus significand exponent =>
      sumPlaces (60 * unit) rest
        (total.add ((decimalOf place).mul (.finite minus significand exponent)))
    | _ => .error .tooGreat

/-- The value of a decimal number. -/
def number? (t : Text) : Option (Read Binary64) :=
  let (minus, body) := splitSign t
  if body = ".inf".toList ∨ body = ".Inf".toList ∨ body = ".INF".toList then
    some (.ok (.infinite minus))
  else if t = ".nan".toList ∨ t = ".NaN".toList ∨ t = ".NAN".toList then some (.ok .undefined)
  else if isPointed body || isPointFirst t then
    some (.ok ((decimalOf body).withSign minus))
  else
    (sixtieths? body).map fun places ↦ (sumPlaces 1 places.reverse .zero).map (·.withSign minus)

/-! ### Dates -/

/-- A number of at least `least` and at most `most` digits at the start of a text, and the rest. -/
def digits? (least most : Nat) (t : Text) : Option (Nat × Text) :=
  let digits := (t.take most).takeWhile (isBaseDigit 10)
  if digits.length < least then none else some (inBase 10 digits, t.drop digits.length)

/-- The text behind a character. -/
def behind? (c : Char) : Text → Option Text
  | d :: rest => if c == d then some rest else none
  | [] => none

/-- The number of days of a month. -/
def daysIn (year month : Nat) : Nat :=
  if month = 2 then
    if year % 4 = 0 ∧ (year % 100 ≠ 0 ∨ year % 400 = 0) then 29 else 28
  else if month = 4 ∨ month = 6 ∨ month = 9 ∨ month = 11 then 30
  else 31

/-- There is such a day. -/
def isDay (year month day : Nat) : Bool :=
  1 ≤ year && 1 ≤ month && month ≤ 12 && 1 ≤ day && day ≤ daysIn year month

/-- A date of four, two and two digits, if the whole text is one: whether there is such a day. -/
def date? (t : Text) : Option Bool := do
  let (year, t) ← digits? 4 4 t
  let (month, t) ← digits? 2 2 (← behind? '-' t)
  let (day, t) ← digits? 2 2 (← behind? '-' t)
  if t.isEmpty then some (isDay year month day) else none

/-- A time zone, if the whole text is one: whether there is such a zone. -/
def zone? (t : Text) : Option Bool :=
  match t.dropWhile (· == ' ') with
  | [] => if t.isEmpty then some true else none
  | ['Z'] => some true
  | sign :: rest => do
    if sign == '+' || sign == '-' then
      let (hours, rest) ← digits? 1 2 rest
      match rest with
      | [] => some (hours < 24)
      | _ =>
        let (minutes, rest) ← digits? 2 2 (← behind? ':' rest)
        if rest.isEmpty then some (60 * hours + minutes < 24 * 60) else none
    else none

/-- A time of day with an optional fraction and zone, if the whole text is one: whether there is
such a time. -/
def time? (t : Text) : Option Bool := do
  let (hour, t) ← digits? 1 2 t
  let (minute, t) ← digits? 2 2 (← behind? ':' t)
  let (second, t) ← digits? 2 2 (← behind? ':' t)
  let t := match t with
    | '.' :: rest => rest.dropWhile (isBaseDigit 10)
    | rest => rest
  return hour ≤ 23 && minute ≤ 59 && second ≤ 59 && (← zone? t)

/-- A date and a time of day, if the whole text is one: whether there is such a moment. -/
def dateTime? (t : Text) : Option Bool := do
  let (year, t) ← digits? 4 4 t
  let (month, t) ← digits? 1 2 (← behind? '-' t)
  let (day, t) ← digits? 1 2 (← behind? '-' t)
  let valid ← match t with
    | 'T' :: rest => time? rest
    | 't' :: rest => time? rest
    | ' ' :: rest => time? (rest.dropWhile (· == ' '))
    | _ => none
  return isDay year month day && valid

/-- The moment that a text denotes. -/
def moment? (t : Text) : Option (Read Yaml) :=
  let read (timed valid : Bool) : Read Yaml :=
    if valid then .ok (.moment timed) else .error .noValue
  match date? t, dateTime? t with
  | some valid, _ => some (read false valid)
  | none, some valid => some (read true valid)
  | none, none => none

/-! ### Scalars -/

/-- The scalar that stands for the fields of other mappings as a key, and for nothing as a value. -/
def mergeMark : Text := ['<', '<']

/-- The scalar that is a text as a key, and stands for nothing as a value. -/
def valueMark : Text := ['=']

/-- The value of a plain scalar. -/
def ofPlain (t : Text) : Read Yaml :=
  if ["", "~", "null", "Null", "NULL"].any fun w ↦ w.toList == t then .ok null
  else if ["yes", "Yes", "YES", "true", "True", "TRUE", "on", "On", "ON"].any
      fun w ↦ w.toList == t then
    .ok (bool true)
  else if ["no", "No", "NO", "false", "False", "FALSE", "off", "Off", "OFF"].any
      fun w ↦ w.toList == t then
    .ok (bool false)
  else if t = mergeMark ∨ t = valueMark then .error .malformed
  else
    match number? t, integer? t, moment? t with
    | some x, _, _ => x.map number
    | none, some n, _ => n.map integer
    | none, none, some m => m
    | none, none, none => .ok (text t)

end Cobol.Yaml
