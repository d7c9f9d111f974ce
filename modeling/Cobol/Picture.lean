import Cobol.Field
import Cobol.Value

/-!
# Pictures

A picture describes a slot: whether it holds an integer or a text, and how wide it is. It is written
as a sequence of the symbols `9` and `X`, each with an optional repeat count in parentheses, behind
an optional `S`; any other character is passed over. The first symbol decides the kind.
-/

namespace Cobol

open Text

/-- The shape of a declared slot. -/
structure Picture where
  /-- The slot holds an integer. -/
  isNumeric : Bool
  /-- The width of the slot in characters. -/
  width : Nat
  deriving DecidableEq, Repr

namespace Picture

/-- The repeat count in parentheses at the start of a text, and what stands behind it. -/
def repeatCount? (t : Text) : Option (Text × Text) :=
  match t with
  | '(' :: rest =>
    match rest.takeWhile isDecimal, rest.dropWhile isDecimal with
    | d :: digits, ')' :: after => some (d :: digits, after)
    | _, _ => none
  | _ => none

theorem length_of_repeatCount? {t digits after : Text} (h : repeatCount? t = some (digits, after)) :
    after.length < t.length := by
  unfold repeatCount? at h
  split at h
  · rename_i rest
    split at h
    · rename_i heq
      obtain ⟨-, rfl⟩ := Prod.mk.inj (Option.some.inj h)
      have hlen := congrArg List.length
        (List.takeWhile_append_dropWhile (p := isDecimal) (l := rest))
      rw [heq] at hlen
      simp only [List.length_append, List.length_cons] at hlen ⊢
      omega
    · cases h
  · cases h

/-- The sum of the repeat counts of the symbols of a picture; a symbol without a count stands for
itself. -/
def widthOf : Text → Except Fault Nat
  | [] => .ok 0
  | c :: rest =>
    if c == '9' || c == 'X' then
      match h : repeatCount? rest with
      | some (digits, after) => do
        let n ← Numeral.read digits
        return n.toNat + (← widthOf after)
      | none => do return 1 + (← widthOf rest)
    else widthOf rest
termination_by t => t.length
decreasing_by
  · exact Nat.lt_trans (length_of_repeatCount? h) (by simp)
  · simp
  · simp

/-- A picture text in upper case, without its sign symbol. -/
def symbols (t : Text) : Text :=
  match upper (trim t) with
  | 'S' :: rest => rest
  | rest => rest

/-- The picture a text describes. -/
def parse (t : Text) : Except Fault Picture := do
  return ⟨(symbols t).head? == some '9', ← widthOf (symbols t)⟩

/-- The value of a slot that is declared without one: zero or spaces. -/
def blank (p : Picture) : Except Fault Value :=
  if p.isNumeric then .ok (.number 0) else (Field.spaces p.width).map .text

/-- A value as a slot of this picture holds it: its integer (zero if it denotes none), or its text
fitted to the width. -/
def coerce (p : Picture) (v : Value) : Except Fault Value :=
  if p.isNumeric then v.integer.map .number
  else do return .text (← Field.fit p.width (← v.shown))

end Picture

end Cobol
