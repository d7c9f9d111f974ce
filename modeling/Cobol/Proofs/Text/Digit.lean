import Cobol.Proofs.Text.Blank
import Cobol.Proofs.Text.Upper
import Cobol.Numeral
import Cobol.Text.Letter

/-!
# Digits, letters and blanks are apart

The classes of characters are given by tables of ranges. A digit is no blank and no letter, so a
scanner that asks for one class first does not hide the other; and upper case leaves digits alone.

## Shape decisions

* The tables are ordered ranges of code points. That two of them do not meet is a finite check,
  range against range.
* ASCII is treated apart, because the three classes are interleaved there.
-/

namespace Cobol.Text

/-! ### Blanks -/

/-- A class that contains no listed blank contains no blank. -/
theorem isBlank_eq_false_of {p : Char → Bool} (h : ∀ n ∈ blankCodes, p (Char.ofNat n) = false)
    {c : Char} (hc : p c = true) : isBlank c = false := by
  rw [← Bool.not_eq_true]
  intro hblank
  have hfalse := forall_isBlank (P := fun c ↦ p c = false) h hblank
  rw [hc] at hfalse
  cases hfalse

/-- A digit is no blank. -/
theorem isBlank_of_isDigit {c : Char} (h : isDigit c = true) : isBlank c = false :=
  isBlank_eq_false_of (by decide +kernel) h

/-- A digit with place value is a digit. -/
theorem isDigit_of_isDecimal {c : Char} (h : isDecimal c = true) : isDigit c = true := by
  rw [isDigit, h, Bool.true_or]

/-- A text without blanks is trimmed. -/
theorem trim_of_forall_not {t : Text} (h : ∀ c ∈ t, isBlank c = false) : trim t = t := by
  cases ht : t.getLast? with
  | none =>
    rw [List.getLast?_eq_none_iff.1 ht]
    rfl
  | some last =>
    have hlast : trimRight t = t := trimRight_of_getLast? ht (h last (List.mem_of_getLast? ht))
    rw [trim, hlast]
    cases t with
    | nil => rfl
    | cons c rest => exact trimLeft_cons_of_not (h c (List.mem_cons_self ..)) rest

/-- The line feed that may stand behind a numeral is a blank. -/
theorem trim_dropFinalNewline (t : Text) : trim (Numeral.dropFinalNewline t) = trim t := by
  unfold Numeral.dropFinalNewline
  split
  · rename_i hlast
    obtain ⟨u, rfl⟩ := List.getLast?_eq_some_iff.1 (by simpa using hlast)
    rw [List.dropLast_concat, ← trim_trimRight (u ++ ['\n']),
      trimRight_append_of_allBlank _ (by decide), trim_trimRight]
  · rfl

/-! ### The digits of ASCII -/

theorem le_and_le_of_isDigit {c : Char} (h : c.isDigit = true) : '0' ≤ c ∧ c ≤ '9' := by
  simp only [Char.isDigit, Bool.and_eq_true, decide_eq_true_eq] at h
  exact h

/-- The digits of ASCII have their places in the alphabet as values. -/
theorem decimalValue?_of_isDigit {c : Char} (h : c.isDigit = true) :
    decimalValue? c = some (c.toNat - '0'.toNat) := by
  have hc := le_and_le_of_isDigit h
  have hnat : c.toNat ≤ 57 := hc.2
  rw [decimalValue?, if_pos (by omega), if_pos hc]
  rfl

/-! ### Letters -/

/-- The ranges of digits beyond ASCII. -/
def digitRanges : List (Nat × Nat) :=
  decimalRanges ++ looseDigitRanges

/-- A character is in a table if it is in one of its ranges. -/
theorem inRanges_eq_true_iff {table : List (Nat × Nat)} {c : Char} :
    inRanges table c = true ↔ ∃ r ∈ table, r.1 ≤ c.toNat ∧ c.toNat ≤ r.2 := by
  simp [inRanges]

/-- A digit is one of ASCII or in one of the ranges. -/
theorem range_of_isDigit {c : Char} (h : isDigit c = true) :
    (48 ≤ c.toNat ∧ c.toNat ≤ 57) ∨ ∃ r ∈ digitRanges, r.1 ≤ c.toNat ∧ c.toNat ≤ r.2 := by
  rw [isDigit, Bool.or_eq_true, inRanges_eq_true_iff] at h
  rcases h with h | ⟨r, hr, hc⟩
  · unfold isDecimal decimalValue? at h
    split at h
    · split at h
      · rename_i hdigit
        exact Or.inl hdigit
      · cases h
    · rw [Option.isSome_map, List.find?_isSome] at h
      obtain ⟨r, hr, hc⟩ := h
      exact Or.inr ⟨r, List.mem_append_left _ hr, by simpa using hc⟩
  · exact Or.inr ⟨r, List.mem_append_right _ hr, hc⟩

/-- A letter is between the first and the last of ASCII or in one of the ranges. -/
theorem range_of_isLetter {c : Char} (h : isLetter c = true) :
    (65 ≤ c.toNat ∧ c.toNat ≤ 122) ∨ ∃ r ∈ letterRanges, r.1 ≤ c.toNat ∧ c.toNat ≤ r.2 := by
  unfold isLetter at h
  split at h
  · rw [Bool.or_eq_true, Bool.and_eq_true, Bool.and_eq_true, decide_eq_true_eq,
      decide_eq_true_eq, decide_eq_true_eq, decide_eq_true_eq] at h
    refine Or.inl ?_
    rcases h with ⟨hlow, hhigh⟩ | ⟨hlow, hhigh⟩
    · have hlow' : 65 ≤ c.toNat := hlow
      have hhigh' : c.toNat ≤ 90 := hhigh
      omega
    · have hlow' : 97 ≤ c.toNat := hlow
      have hhigh' : c.toNat ≤ 122 := hhigh
      omega
  · exact Or.inr (inRanges_eq_true_iff.1 h)

/-- The ranges are beyond ASCII. -/
theorem wide_ranges : (∀ r ∈ digitRanges, 128 ≤ r.1) ∧ ∀ r ∈ letterRanges, 128 ≤ r.1 := by
  decide +kernel

/-- No range of letters meets a range of digits. -/
theorem letterRanges_apart : ∀ l ∈ letterRanges, ∀ d ∈ digitRanges, l.2 < d.1 ∨ d.2 < l.1 := by
  have h : (letterRanges.all fun l ↦ digitRanges.all fun d ↦ l.2.blt d.1 || d.2.blt l.1) = true :=
    by decide +kernel
  simpa only [List.all_eq_true, Bool.or_eq_true, Nat.blt_eq] using h

/-- No letter is a digit. -/
theorem isDigit_of_isLetter {c : Char} (h : isLetter c = true) : isDigit c = false := by
  rw [← Bool.not_eq_true]
  intro hdigit
  obtain ⟨hwideDigit, hwideLetter⟩ := wide_ranges
  rcases range_of_isLetter h with hl | ⟨l, hl, hlow, hhigh⟩ <;>
    rcases range_of_isDigit hdigit with hd | ⟨d, hd, hlow', hhigh'⟩
  · omega
  · have := hwideDigit d hd
    omega
  · have := hwideLetter l hl
    omega
  · have := letterRanges_apart l hl d hd
    omega

/-! ### Digits in upper case -/

/-- A digit has no case. -/
theorem upperChar_of_isDigit {c : Char} (h : isDigit c = true) : upperChar c = [c] := by
  have hruns : (caseRuns.all fun r ↦ Nat.blt 57 r.first &&
      digitRanges.all fun d ↦ d.2.blt r.first || r.last.blt d.1) = true := by decide +kernel
  have hlongs : (longCases.all fun e ↦ Nat.blt 57 e.1 &&
      digitRanges.all fun d ↦ d.2.blt e.1 || e.1.blt d.1) = true := by decide +kernel
  simp only [List.all_eq_true, Bool.and_eq_true, Bool.or_eq_true, Nat.blt_eq] at hruns hlongs
  rcases range_of_isDigit h with ⟨hlow, hhigh⟩ | ⟨d, hd, hlow, hhigh⟩
  · refine upperChar_eq_self (Or.inl (by omega)) (fun e he ↦ ?_) (fun r hr ↦ ?_)
    · have := (hlongs e he).1
      omega
    · have := (hruns r hr).1
      simp only [CaseRun.holds, Bool.and_eq_false_iff, decide_eq_false_iff_not]
      omega
  · have hwide := wide_ranges.1 d hd
    refine upperChar_eq_self (Or.inr (by omega)) (fun e he ↦ ?_) (fun r hr ↦ ?_)
    · have := (hlongs e he).2 d hd
      omega
    · have := (hruns r hr).2 d hd
      simp only [CaseRun.holds, Bool.and_eq_false_iff, decide_eq_false_iff_not]
      omega

end Cobol.Text
