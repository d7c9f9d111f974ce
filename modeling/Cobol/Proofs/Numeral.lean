import Cobol.Proofs.Text.Digit
import Mathlib.Algebra.Ring.Nat

/-!
# Decimal digits

The digits of a number are read back as the number (`ofDigits_digits`), and digits behind each other
as a number with places (`ofDigits_append`). So the first digits of a number are its quotient by a
power of ten (`ofDigits_take_digits`).

## Shape decisions

* The digits of a number are the library's, in base ten and without leading zeros. Leading zeros
  that stand in a text are digits as well, so the laws that speak of a text are about any digits.
* A place is a suffix: cutting a number behind its first digits divides by the power of ten of what
  is cut off.
-/

namespace Cobol.Numeral

open Text

theorem isDigit_of_mem_digits {n : Nat} {c : Char} (h : c ∈ digits n) : c.isDigit = true :=
  Nat.isDigit_of_mem_toDigits (by decide) (by decide) h

theorem isDecimal_of_mem_digits {n : Nat} {c : Char} (h : c ∈ digits n) : isDecimal c = true := by
  rw [isDecimal, decimalValue?_of_isDigit (isDigit_of_mem_digits h)]
  rfl

/-- The digits of a number are read back as the number. -/
theorem ofDigits_digits (n : Nat) : ofDigits (digits n) = n := by
  have hfold : ofDigits (digits n) = Nat.ofDigitChars 10 (digits n) 0 := by
    rw [Nat.ofDigitChars_eq_foldl]
    refine List.foldl_ext _ _ _ fun m c hc ↦ ?_
    rw [decimalValue?_of_isDigit (isDigit_of_mem_digits hc), Option.getD_some]
  rw [hfold]
  exact Nat.ofDigitChars_toDigits (by decide) (by decide)

/-- Only zero is written with a leading zero. -/
theorem head?_digits {n : Nat} (h : n ≠ 0) : (digits n).head? ≠ some '0' := by
  induction n using Nat.strongRecOn with
  | _ n ih =>
    by_cases hn : n < 10
    · have hsmall : ∀ n < 10, n ≠ 0 → Nat.digitChar n ≠ '0' := by decide
      rw [digits, Nat.toDigits_of_lt_base hn, List.head?_cons]
      exact fun heq ↦ hsmall n hn h (Option.some.inj heq)
    · have hne : Nat.toDigits 10 (n / 10) ≠ [] := List.ne_nil_of_length_pos Nat.length_toDigits_pos
      rw [digits, Nat.toDigits_of_base_le (by decide) (by omega), List.head?_append_of_ne_nil _ hne]
      exact ih (n / 10) (by omega) (by omega)

/-! ### Places -/

/-- Digits behind a number. -/
theorem foldl_digits (n : Nat) (t : Text) :
    t.foldl (fun n c ↦ 10 * n + (decimalValue? c).getD 0) n = n * 10 ^ t.length + ofDigits t := by
  induction t generalizing n with
  | nil => exact (Nat.mul_one n).symm
  | cons c t ih =>
    have hfirst : ofDigits (c :: t) = (decimalValue? c).getD 0 * 10 ^ t.length + ofDigits t :=
      (ih _).trans (by dsimp only; rw [Nat.mul_zero, Nat.zero_add])
    rw [List.foldl_cons, ih, hfirst, List.length_cons, Nat.pow_succ, Nat.add_mul, Nat.add_assoc,
      Nat.mul_comm (10 ^ t.length) 10, ← Nat.mul_assoc, Nat.mul_comm 10 n]

/-- Digits in front of others count by the number of places behind them. -/
theorem ofDigits_append (s t : Text) :
    ofDigits (s ++ t) = ofDigits s * 10 ^ t.length + ofDigits t := by
  rw [ofDigits, List.foldl_append]
  exact foldl_digits (ofDigits s) t

/-- Digits denote less than the power of ten of their number. -/
theorem ofDigits_lt {digits : Text} (h : ∀ c ∈ digits, c.isDigit = true) :
    ofDigits digits < 10 ^ digits.length := by
  induction digits with
  | nil => exact Nat.one_pos
  | cons c digits ih =>
    obtain ⟨hc, hdigits⟩ := List.forall_mem_cons.1 h
    have hvalue : ofDigits [c] ≤ 9 := by
      have hhigh : c.toNat ≤ 57 := (le_and_le_of_isDigit hc).2
      have hzero : '0'.toNat = 48 := rfl
      simp only [ofDigits, List.foldl_cons, List.foldl_nil, decimalValue?_of_isDigit hc,
        Option.getD_some]
      omega
    calc ofDigits (c :: digits)
        = ofDigits [c] * 10 ^ digits.length + ofDigits digits := ofDigits_append [c] digits
      _ < ofDigits [c] * 10 ^ digits.length + 10 ^ digits.length :=
        Nat.add_lt_add_left (ih hdigits) _
      _ = (ofDigits [c] + 1) * 10 ^ digits.length := by rw [Nat.add_mul, Nat.one_mul]
      _ ≤ 10 * 10 ^ digits.length := Nat.mul_le_mul_right _ (by omega)
      _ = 10 ^ (c :: digits).length := by rw [List.length_cons, Nat.pow_succ, Nat.mul_comm]

/-- A number is less than the power of ten of the number of its digits. -/
theorem lt_pow_length_digits (n : Nat) : n < 10 ^ (digits n).length :=
  calc n = ofDigits (digits n) := (ofDigits_digits n).symm
    _ < 10 ^ (digits n).length := ofDigits_lt fun _ ↦ isDigit_of_mem_digits

/-- The first digits of a number are its quotient by the place behind them. -/
theorem ofDigits_take_digits (n k : Nat) :
    ofDigits ((digits n).take k) = n / 10 ^ ((digits n).length - k) := by
  have hlt : ofDigits ((digits n).drop k) < 10 ^ ((digits n).length - k) := by
    rw [← List.length_drop]
    exact ofDigits_lt fun c hc ↦ isDigit_of_mem_digits (List.mem_of_mem_drop hc)
  have hsplit : n = 10 ^ ((digits n).length - k) * ofDigits ((digits n).take k) +
      ofDigits ((digits n).drop k) := by
    rw [← List.length_drop, Nat.mul_comm, ← ofDigits_append, List.take_append_drop, ofDigits_digits]
  exact (Nat.div_eq_of_lt_le (by rw [Nat.mul_comm]; omega)
    (by rw [Nat.mul_comm, Nat.mul_succ]; omega)).symm

/-! ### Decimal forms -/

/-- The minus sign of a negative number. -/
def signOf (n : Int) : Text :=
  if n < 0 then ['-'] else []

/-- The decimal form is the sign and the digits of the absolute value. -/
theorem decimal_eq (n : Int) : decimal n = signOf n ++ digits n.natAbs := by
  cases n with
  | ofNat n => rfl
  | negSucc n => rw [signOf, if_pos (Int.negSucc_lt_zero n)]; rfl

/-- A number that is not too long is written as its decimal form. -/
theorem write_of_lt {n : Int} (h : n.natAbs < 10 ^ digitLimit) : write n = .ok (decimal n) := by
  rw [write, Nat.pow_eq, if_pos h]

/-- A number below the power of ten of the limit has no more digits than the limit. -/
theorem length_digits_le {n : Nat} (h : n < 10 ^ digitLimit) : (digits n).length ≤ digitLimit :=
  (Nat.length_toDigits_le_iff (by decide) (by decide)).2 h

end Cobol.Numeral
