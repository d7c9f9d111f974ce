import Cobol.Numeral
import Cobol.Table
import Cobol.Text.Upper

/-!
# Values

A slot holds an unbounded integer or a text. The integer view of a value (`integer?`) reads a text
that is a signed numeral; the text view (`text`) writes the integer. Both can meet the digit limit.
-/

namespace Cobol

/-- What a slot holds. -/
inductive Value
  /-- An integer. -/
  | number (n : Int)
  /-- A text. -/
  | text (t : Text)
  deriving DecidableEq, Repr

namespace Value

open Text

/-- The integer a value denotes: itself, or the signed numeral a text holds between blanks. -/
def integer? : Value → Except Fault (Option Int)
  | .number n => .ok (some n)
  | .text t =>
    if Numeral.isSigned (trim t) then (Numeral.read (trim t)).map some else .ok none

/-- The integer a value denotes, zero if it denotes none. -/
def integer (v : Value) : Except Fault Int :=
  v.integer?.map (·.getD 0)

/-- The text by which a value is displayed. -/
def shown : Value → Except Fault Text
  | .number n => Numeral.write n
  | .text t => .ok t

end Value

/-! ### The order of texts and values -/

/-- The order of texts by code points. -/
def Text.order : Text → Text → Ordering
  | [], [] => .eq
  | [], _ :: _ => .lt
  | _ :: _, [] => .gt
  | a :: s, b :: t => (compare a.toNat b.toNat).then (Text.order s t)

/-- The order of two values: as integers if both are, else by their texts. -/
def Value.order : Value → Value → Except Fault Ordering
  | .number m, .number n => .ok (compare m n)
  | v, w => do return Text.order (← v.shown) (← w.shown)

end Cobol
