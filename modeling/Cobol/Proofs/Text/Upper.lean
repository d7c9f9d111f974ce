import Mathlib.Data.List.Basic
import Cobol.Text.Upper

/-!
# Upper case is final

A text in upper case stays as it is when it is turned to upper case again, so a name is kept under
the same key however often it is turned.

The mapping is a table of runs, so this is a fact about the table: the images of a run meet neither
a run nor a mapping to several characters. It is checked run against run (`CaseRun.avoids`), by
their ends and, where these overlap, by their residues; the characters of a run are never listed.

## Shape decisions

* A run is a first character, a last one, a step and a shift. Its characters are not listed: the
  table stands for some thousand letters, and the check is about its some hundred runs.
* Letters with an upper case of several characters are a second table. Their images are checked one
  by one.
-/

namespace Cobol.Text

/-! ### Characters that are not mapped -/

/-- A valid code point is that of its character. -/
theorem toNat_ofNat_of_isValidChar {n : Nat} (h : n.isValidChar) : (Char.ofNat n).toNat = n := by
  rw [Char.ofNat, dif_pos h]
  rfl

/-- A character is its own upper case if it is no small ASCII letter and the tables leave it out. -/
theorem upperChar_eq_self {c : Char} (hascii : c.toNat < 97 ∨ 122 < c.toNat)
    (hlong : ∀ e ∈ longCases, e.1 ≠ c.toNat) (hrun : ∀ r ∈ caseRuns, r.holds c = false) :
    upperChar c = [c] := by
  have hsmall : ¬('a' ≤ c ∧ c ≤ 'z') := by
    rintro ⟨ha, hz⟩
    have ha' : 97 ≤ c.toNat := ha
    have hz' : c.toNat ≤ 122 := hz
    omega
  have hlookup : longCases.lookup c.toNat = none := by
    refine List.lookup_eq_none_iff.2 fun e he ↦ ?_
    simpa using (hlong e he).symm
  have hfind : caseRuns.find? (·.holds c) = none := by
    refine List.find?_eq_none.2 fun r hr ↦ ?_
    simp [hrun r hr]
  have hwide : upperWide c = [c] := by
    rw [upperWide, hlookup]
    dsimp only
    rw [hfind]
  rw [upperChar, if_neg hsmall, hwide, ite_self]

/-! ### Runs against runs -/

namespace CaseRun

/-- No code point from `low` to `high` at the distance `stride` belongs to the run: they lie apart,
or on different residues. -/
def avoids (r : CaseRun) (low high stride : Nat) : Bool :=
  high.blt r.first || r.last.blt low ||
    ((stride % r.stride).beq 0 || low.beq high) && !(low % r.stride).beq (r.first % r.stride)

/-- The images of the run are characters, no small ASCII letters, and none that are mapped. -/
def isFinal (r : CaseRun) : Bool :=
  let low := (r.first + r.shift).toNat
  let high := (r.last + r.shift).toNat
  decide (0 ≤ r.first + r.shift) &&
    (high.blt 0xD800 || (Nat.blt 0xDFFF low && high.blt 0x110000)) &&
    (high.blt 97 || Nat.blt 122 low) && longCases.all (fun e ↦ e.1.blt low || high.blt e.1) &&
    caseRuns.all (·.avoids low high r.stride)

/-- No image of a run is mapped any further. This is the check of the table. -/
theorem isFinal_of_mem : ∀ r ∈ caseRuns, r.isFinal = true :=
  List.all_eq_true.1 (by decide +kernel)

/-- Runs that avoid each other share no character: they are apart by their ends or by their steps.
-/
theorem holds_eq_false_of_avoids {r : CaseRun} {low high stride n : Nat} {c : Char}
    (h : r.avoids low high stride = true) (hhigh : c.toNat ≤ high)
    (hstep : c.toNat = low + stride * n) : r.holds c = false := by
  simp only [avoids, Bool.or_eq_true, Bool.and_eq_true, Nat.blt_eq, Nat.beq_eq, Bool.not_eq_true',
    ← Bool.not_eq_true] at h
  rw [← Bool.not_eq_true]
  intro hholds
  simp only [holds, Bool.and_eq_true, decide_eq_true_eq, beq_iff_eq] at hholds
  obtain ⟨⟨hfirst, hlast⟩, hresidue⟩ := hholds
  rcases h with (h | h) | ⟨hstride, hne⟩
  · omega
  · omega
  · -- the code point would lie on the residue of `low` and on that of `r.first`
    have hcode : c.toNat % r.stride = r.first % r.stride := by
      obtain ⟨k, hk⟩ := Nat.dvd_of_mod_eq_zero hresidue
      rw [show c.toNat = r.first + r.stride * k by omega, Nat.add_mul_mod_self_left]
    have himage : c.toNat % r.stride = low % r.stride := by
      rcases hstride with hstride | rfl
      · obtain ⟨k, rfl⟩ := Nat.dvd_of_mod_eq_zero hstride
        rw [hstep, Nat.mul_assoc, Nat.add_mul_mod_self_left]
      · rw [show c.toNat = low by omega]
    exact hne (himage.symm.trans hcode)

/-- The upper case of a character of a run is its own upper case. -/
theorem upperChar_image {r : CaseRun} (hr : r ∈ caseRuns) {c : Char} (hc : r.holds c = true) :
    upperChar (Char.ofNat (c.toNat + r.shift).toNat) = [Char.ofNat (c.toNat + r.shift).toNat] := by
  have hfinal := isFinal_of_mem r hr
  simp only [isFinal, Bool.and_eq_true, Bool.or_eq_true, Nat.blt_eq, decide_eq_true_eq,
    List.all_eq_true] at hfinal
  obtain ⟨⟨⟨⟨hnonneg, hvalid⟩, hascii⟩, hlong⟩, hruns⟩ := hfinal
  simp only [holds, Bool.and_eq_true, decide_eq_true_eq, beq_iff_eq] at hc
  obtain ⟨⟨hfirst, hlast⟩, hresidue⟩ := hc
  obtain ⟨n, hn⟩ := Nat.dvd_of_mod_eq_zero hresidue
  generalize himage : (c.toNat + r.shift).toNat = image
  have hlow : image = (r.first + r.shift).toNat + r.stride * n := by omega
  have hhigh : image ≤ (r.last + r.shift).toNat := by omega
  have htoNat : (Char.ofNat image).toNat = image := toNat_ofNat_of_isValidChar (by
    rcases hvalid with hvalid | hvalid
    · exact Or.inl (by omega)
    · exact Or.inr ⟨by omega, by omega⟩)
  refine upperChar_eq_self ?_ (fun e he ↦ ?_) (fun other hother ↦ ?_)
  · rw [htoNat]
    omega
  · rw [htoNat]
    have := hlong e he
    omega
  · exact holds_eq_false_of_avoids (hruns other hother) (by rwa [htoNat]) (by rwa [htoNat])

end CaseRun

/-! ### Texts -/

/-- The ways in which a character gets its upper case. -/
theorem upperChar_cases (c : Char) :
    c.toNat < 128 ∨ (∃ e ∈ longCases, upperChar c = e.2.map Char.ofNat) ∨
      (∃ r ∈ caseRuns, r.holds c = true ∧
        upperChar c = [Char.ofNat (c.toNat + r.shift).toNat]) ∨
      upperChar c = [c] := by
  by_cases hascii : c.toNat < 128
  · exact Or.inl hascii
  · refine Or.inr ?_
    rw [upperChar, if_neg hascii, upperWide]
    cases hlong : longCases.lookup c.toNat with
    | some codes =>
      obtain ⟨before, after, hsplit, -⟩ := List.lookup_eq_some_iff.1 hlong
      refine Or.inl ⟨(c.toNat, codes), ?_, rfl⟩
      rw [hsplit]
      exact List.mem_append_right _ (List.mem_cons_self ..)
    | none =>
      refine Or.inr ?_
      cases hfind : caseRuns.find? (·.holds c) with
      | some r =>
        have hholds : r.holds c = true := by simpa using List.find?_some hfind
        exact Or.inl ⟨r, List.mem_of_find?_eq_some hfind, hholds, rfl⟩
      | none => exact Or.inr rfl

/-- The characters of a mapping to several characters are their own upper case. -/
theorem upperChar_of_mem_longCases : ∀ e ∈ longCases, ∀ n ∈ e.2,
    upperChar (Char.ofNat n) = [Char.ofNat n] := by
  decide +kernel

/-- An ASCII character is its own upper case, or its upper case is a capital ASCII letter. -/
theorem mem_upperChar_of_toNat_lt {c d : Char} (hc : c.toNat < 128) (h : d ∈ upperChar c) :
    (upperChar c = [c] ∧ d = c) ∨ (65 ≤ d.toNat ∧ d.toNat ≤ 90) := by
  have hupper : upperChar c = if 'a' ≤ c ∧ c ≤ 'z' then [Char.ofNat (c.toNat - 32)] else [c] := by
    rw [upperChar, if_pos hc]
  by_cases hsmall : 'a' ≤ c ∧ c ≤ 'z'
  · have hlow : 97 ≤ c.toNat := hsmall.1
    have hhigh : c.toNat ≤ 122 := hsmall.2
    rw [hupper, if_pos hsmall, List.mem_singleton] at h
    have hd : d.toNat = c.toNat - 32 := by
      rw [h]
      exact toNat_ofNat_of_isValidChar (Or.inl (by omega))
    exact Or.inr (by omega)
  · rw [if_neg hsmall] at hupper
    rw [hupper, List.mem_singleton] at h
    exact Or.inl ⟨hupper, h⟩

/-- The characters of an upper case are their own upper cases. -/
theorem upperChar_of_mem_upperChar {c d : Char} (h : d ∈ upperChar c) : upperChar d = [d] := by
  rcases upperChar_cases c with hascii | ⟨e, he, hc⟩ | ⟨r, hr, hholds, hc⟩ | hc
  · rcases mem_upperChar_of_toNat_lt hascii h with ⟨hc, rfl⟩ | ⟨hlow, hhigh⟩
    · exact hc
    · have hnot : ¬('a' ≤ d ∧ d ≤ 'z') := fun hsmall ↦ by
        have hlow' : 97 ≤ d.toNat := hsmall.1
        omega
      rw [upperChar, if_pos (by omega), if_neg hnot]
  · rw [hc] at h
    obtain ⟨n, hn, rfl⟩ := List.mem_map.1 h
    exact upperChar_of_mem_longCases e he n hn
  · rw [hc, List.mem_singleton] at h
    rw [h]
    exact CaseRun.upperChar_image hr hholds
  · rw [hc, List.mem_singleton] at h
    rw [h, hc]

/-- **Upper case is final.** -/
@[simp] theorem upper_upper (t : Text) : upper (upper t) = upper t := by
  induction t with
  | nil => rfl
  | cons c t ih =>
    have hc : upper (upperChar c) = upperChar c := by
      have hall : ∀ d ∈ upperChar c, upperChar d = [d] := fun d hd ↦ upperChar_of_mem_upperChar hd
      rw [upper, List.flatMap_congr hall, List.flatMap_singleton']
    rw [show c :: t = [c] ++ t from rfl, upper_append, upper_append, ih]
    congr 1
    rw [show upper [c] = upperChar c from List.append_nil _, hc]

/-- No character is mapped to nothing. -/
theorem upperChar_ne_nil (c : Char) : upperChar c ≠ [] := by
  have hlong : ∀ e ∈ longCases, e.2 ≠ [] := by decide +kernel
  rcases upperChar_cases c with hascii | ⟨e, he, hc⟩ | ⟨r, -, -, hc⟩ | hc
  · rw [upperChar, if_pos hascii]
    split <;> exact List.cons_ne_nil _ _
  · rw [hc]
    exact mt List.map_eq_nil_iff.1 (hlong e he)
  · exact hc ▸ List.cons_ne_nil _ _
  · exact hc ▸ List.cons_ne_nil _ _

/-- A text does not get shorter in upper case. -/
theorem length_le_length_upper (t : Text) : t.length ≤ (upper t).length := by
  induction t with
  | nil => exact Nat.le_refl 0
  | cons c t ih =>
    have hc : 0 < (upperChar c).length := List.length_pos_iff.2 (upperChar_ne_nil c)
    show t.length + 1 ≤ (upperChar c ++ upper t).length
    rw [List.length_append]
    omega

/-- What stands in a text stands in it in upper case too. -/
theorem upper_isInfix {s t : Text} (h : s <:+: t) : upper s <:+: upper t := by
  obtain ⟨before, after, rfl⟩ := h
  rw [upper_append, upper_append]
  exact ⟨upper before, upper after, rfl⟩

end Cobol.Text
