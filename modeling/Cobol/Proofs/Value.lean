import Cobol.Value
import Mathlib.Data.Char
import Mathlib.Data.List.Lex

/-!
# The order of texts and values

Texts are in the lexicographic order of their code points. A value is compared with a text as its
own text, whatever it is.
-/

namespace Cobol

/-! ### The order of texts -/

namespace Text

/-- The comparison of two texts finds the lexicographic order. -/
theorem order_eq_lt_iff {s t : Text} : Text.order s t = .lt ↔ s < t := by
  induction s generalizing t with
  | nil =>
    cases t with
    | nil => decide
    | cons b t => exact iff_of_true rfl (List.nil_lt_cons b t)
  | cons a s ih =>
    cases t with
    | nil => exact iff_of_false nofun (List.not_lt_nil _)
    | cons b t =>
      rw [Text.order, Ordering.then_eq_lt, Nat.compare_eq_lt, Nat.compare_eq_eq, ih,
        List.cons_lt_cons_iff, Char.toNat_inj]
      rfl

theorem order_eq_eq_iff {s t : Text} : Text.order s t = .eq ↔ s = t := by
  induction s generalizing t with
  | nil => cases t <;> simp [Text.order]
  | cons a s ih =>
    cases t with
    | nil => simp [Text.order]
    | cons b t =>
      rw [Text.order, Ordering.then_eq_eq, Nat.compare_eq_eq, ih, List.cons.injEq, Char.toNat_inj]

theorem isEq_order (s t : Text) : (Text.order s t).isEq = (s == t) := by
  rw [Bool.eq_iff_iff, Ordering.isEq_iff_eq_eq, order_eq_eq_iff, beq_iff_eq]

/-- The order of texts is the lexicographic order of their code points. -/
theorem isLE_order_iff {s t : Text} : (Text.order s t).isLE = true ↔ s ≤ t := by
  rw [le_iff_lt_or_eq, ← order_eq_lt_iff, ← order_eq_eq_iff]
  cases Text.order s t <;> decide

/-- Seen from the other text, the order is swapped. -/
theorem order_swap (s t : Text) : Text.order t s = (Text.order s t).swap := by
  induction s generalizing t with
  | nil => cases t <;> rfl
  | cons a s ih =>
    cases t with
    | nil => rfl
    | cons b t => rw [Text.order, Text.order, Ordering.swap_then, ih, Nat.compare_swap]

end Text

/-! ### The order of values -/

namespace Value

/-- A value is compared with a text by what is shown of it. -/
theorem order_text (v : Value) (t : Text) :
    v.order (.text t) = v.shown.map fun u ↦ Text.order u t := by
  cases v with
  | number n =>
    simp only [order]
    cases (Value.number n).shown <;> rfl
  | text u => rfl

/-- A text is compared with a value as with its text. -/
theorem text_order (t : Text) (w : Value) :
    (Value.text t).order w = w.shown.map fun u ↦ Text.order t u := by
  cases w with
  | number n =>
    simp only [order]
    cases (Value.number n).shown <;> rfl
  | text u => rfl

/-- Seen from the other value, the order is swapped. -/
theorem order_swap (v w : Value) : w.order v = (v.order w).map Ordering.swap := by
  cases w with
  | text t =>
    rw [text_order, order_text]
    cases v.shown with
    | error f => rfl
    | ok u => exact congrArg Except.ok (Text.order_swap u t)
  | number n =>
    cases v with
    | text t =>
      rw [text_order, order_text]
      cases (Value.number n).shown with
      | error f => rfl
      | ok u => exact congrArg Except.ok (Text.order_swap t u)
    | number m => exact congrArg Except.ok (Int.compare_swap m n).symm

/-- Values that are not both numbers are compared by what is shown of them. -/
theorem order_of_shown {v w : Value} (hmixed : ∀ m n, v = .number m → w ≠ .number n) {x y : Text}
    (hx : v.shown = .ok x) (hy : w.shown = .ok y) : v.order w = .ok (Text.order x y) := by
  cases v with
  | text t =>
    rw [text_order, hy]
    cases hx
    rfl
  | number m =>
    cases w with
    | text t =>
      rw [order_text, hx]
      cases hy
      rfl
    | number n => exact absurd rfl (hmixed m n rfl)

end Value

end Cobol
