import Cobol.Encoding.Utf8

/-!
# Faults

A fault ends a computation that the language itself gives no way to end: everything a program can do
wrong on its own terms (bad expressions, unknown labels, division by zero) is handled where it
arises. What remains is the limit on the length of numerals, digits without value, fields that are
too wide, the nesting limit, the limit on the passes of a loop, and input that cannot be read.
-/

namespace Cobol

/-- The causes that end a run from outside the language. -/
inductive Fault
  /-- A numeral of more digits than may be read. -/
  | longNumeral (digits : Nat)
  /-- A number whose numeral would have more digits than may be written. -/
  | longNumber
  /-- A text that is no numeral. -/
  | noNumeral (text : Text)
  /-- A number of spaces beyond what can be counted. -/
  | uncountableSpaces
  /-- A field to be filled whose width is beyond what can be counted. -/
  | uncountableWidth
  /-- Blocks or parentheses nested beyond the allowance. -/
  | nesting
  /-- A loop that has used up its passes. -/
  | endless
  /-- Input that is no text. -/
  | unreadable (part : Utf8.Malformed)
  /-- An input source that has no reader. -/
  | noReader
  deriving DecidableEq, Repr

/-- The greatest number of digits of a numeral. -/
def digitLimit : Nat := 4300

/-- The longest part of a text that a message quotes, its quotes included. -/
def quoteLimit : Nat := 200

/-- The wording of a fault. -/
def Fault.message : Fault → String
  | .longNumeral digits =>
    "Exceeds the limit (" ++ toString digitLimit ++
      " digits) for integer string conversion: value has " ++ toString digits ++
      " digits; use sys.set_int_max_str_digits() to increase the limit"
  | .longNumber =>
    "Exceeds the limit (" ++ toString digitLimit ++
      " digits) for integer string conversion; use sys.set_int_max_str_digits() to increase the limit"
  | .noNumeral text =>
    "invalid literal for int() with base 10: " ++
      String.ofList (('\'' :: text ++ ['\'']).take quoteLimit)
  | .uncountableSpaces => "cannot fit 'int' into an index-sized integer"
  | .uncountableWidth => "Python int too large to convert to C ssize_t"
  | .nesting => "maximum recursion depth exceeded"
  | .endless => "loop limit exceeded"
  | .unreadable part => part.message
  | .noReader => ""

end Cobol
