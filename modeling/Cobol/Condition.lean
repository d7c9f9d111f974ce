import Cobol.Store

/-!
# Conditions

A condition is a left operand, a comparison and a right operand, separated by blanks; anything
behind the third word is ignored, and a text that is no condition is false.

An operand stands for the value of a slot of that name; if there is none, for an integer literal,
for the text between quotes, or for itself. Two integers are compared as numbers, anything else as
texts by code points: both come down to one order (`Value.order`), which the comparison reads.
-/

namespace Cobol

open Text

/-- The comparisons. -/
inductive Comparison
  /-- `=` -/
  | eq
  /-- `<>` -/
  | ne
  /-- `>` -/
  | gt
  /-- `<` -/
  | lt
  /-- `>=` -/
  | ge
  /-- `<=` -/
  | le
  deriving DecidableEq, Repr

namespace Comparison

/-- The comparison a word denotes. -/
def ofWord? (word : Text) : Option Comparison :=
  if word = "=".toList then some eq
  else if word = "<>".toList then some ne
  else if word = ">".toList then some gt
  else if word = "<".toList then some lt
  else if word = ">=".toList then some ge
  else if word = "<=".toList then some le
  else none

/-- The comparison holds of operands in this order. -/
def holds : Comparison → Ordering → Bool
  | eq, o => o.isEq
  | ne, o => !o.isEq
  | gt, o => o.isGT
  | lt, o => o.isLT
  | ge, o => !o.isLT
  | le, o => !o.isGT

end Comparison

namespace Condition

/-- The value of an operand. -/
def operand (store : Store) (token : Text) : Except Fault Value :=
  if store.contains token then .ok (store.get token)
  else if Numeral.isLiteral token then (Numeral.read token).map .number
  else if isQuoted token then .ok (.text (unquote token))
  else .ok (.text token)

/-- The condition is true. -/
def holds (store : Store) (condition : Text) : Except Fault Bool :=
  match words condition with
  | left :: comparison :: right :: _ =>
    match Comparison.ofWord? comparison with
    | none => .ok false
    | some c => do
      let v ← operand store left
      let w ← operand store right
      return c.holds (← v.order w)
  | _ => .ok false

end Condition

end Cobol
