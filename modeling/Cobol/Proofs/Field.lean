import Cobol.Field

/-!
# Filling fields

A field is filled exactly if its width can be counted, whatever the text (`Field.spaces_eq_ok_iff`,
`Field.fit_eq_ok_iff`). What a field holds fits the field, so it is held as it is.
-/

namespace Cobol

/-- A text of the width fills the field. -/
@[simp]
theorem Text.fit_length (t : Text) : Text.fit t.length t = t := by
  rw [fit, List.take_length, Nat.sub_self, List.replicate_zero, List.append_nil]

namespace Field

variable {width : Nat} {t u : Text}

/-- A width can be counted exactly if it is below the limit. -/
theorem isCountable_iff : isCountable width = true ↔ width < countLimit := by
  simp only [isCountable, Bool.and_eq_true, decide_eq_true_eq]
  omega

/-- A number of spaces exists exactly if it can be counted. -/
theorem spaces_eq_ok_iff :
    spaces width = .ok t ↔ width < countLimit ∧ t = List.replicate width ' ' := by
  rw [← isCountable_iff, spaces]
  cases isCountable width with
  | false => exact iff_of_false nofun nofun
  | true =>
    show Except.ok _ = Except.ok _ ↔ _
    rw [Except.ok.injEq, Int.toNat_natCast, and_iff_right rfl, eq_comm]

/-- A text is fitted to a width exactly if the width can be counted. -/
theorem fit_eq_ok_iff : fit width t = .ok u ↔ width < countLimit ∧ u = Text.fit width t := by
  rw [← isCountable_iff, fit]
  cases isCountable width with
  | false => exact iff_of_false nofun nofun
  | true =>
    show Except.ok (Text.fit width t) = Except.ok _ ↔ _
    rw [Except.ok.injEq, and_iff_right rfl, eq_comm]

theorem exists_spaces_iff : (∃ t, spaces width = .ok t) ↔ width < countLimit := by
  simp [spaces_eq_ok_iff]

theorem exists_fit_iff : (∃ u, fit width t = .ok u) ↔ width < countLimit := by
  simp [fit_eq_ok_iff]

/-- The spaces of a field are as many as it is wide. -/
theorem eq_replicate_of_spaces (h : spaces width = .ok t) : t = List.replicate width ' ' :=
  (spaces_eq_ok_iff.1 h).2

theorem length_of_spaces (h : spaces width = .ok t) : t.length = width := by
  rw [eq_replicate_of_spaces h, List.length_replicate]

/-- Within its limits a field is filled or cut. -/
theorem eq_of_fit (h : fit width t = .ok u) : u = Text.fit width t :=
  (fit_eq_ok_iff.1 h).2

theorem length_of_fit (h : fit width t = .ok u) : u.length = width := by
  rw [eq_of_fit h, Text.length_fit]

/-- Spaces that fill a field are held as they are. -/
theorem fit_of_spaces (h : spaces width = .ok t) : fit width t = .ok t := by
  refine fit_eq_ok_iff.2 ⟨(spaces_eq_ok_iff.1 h).1, ?_⟩
  rw [← length_of_spaces h, Text.fit_length]

/-- A text that was fitted is held as it is. -/
theorem fit_of_fit (h : fit width t = .ok u) : fit width u = .ok u := by
  refine fit_eq_ok_iff.2 ⟨(fit_eq_ok_iff.1 h).1, ?_⟩
  rw [← length_of_fit h, Text.fit_length]

end Field

end Cobol
