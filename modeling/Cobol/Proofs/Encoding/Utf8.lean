import Mathlib.Data.List.Basic
import Cobol.Encoding.Utf8

/-!
# UTF-8 is read as it is written

The bytes of a text are well formed, so nothing in them is replaced: reading them gives the text
back (`decodeReplacing_encode`).

A character has one form, and the form is found by its lead byte. What has to be shown of a form is
that the lead byte announces it, and that the first continuation byte keeps within the range that
the lead byte leaves for it: the narrowed ranges exclude overlong forms, surrogates and numbers
beyond the last code point, and the number of a character is none of these (`exists_lead_three`,
`exists_lead_four`).

## Shape decisions

* There is one case per width. The decoder is opened once in each, and the arithmetic of the bytes
  is kept apart from it.
* A reader in blocks is not looked at here: the bytes of a file are decoded at once.
-/

namespace Cobol.Utf8

/-- A number below 256 is the value of its byte. -/
theorem toNat_toUInt8 {n : Nat} (h : n < 256) : n.toUInt8.toNat = n :=
  Nat.mod_eq_of_lt h

/-! ### Lead bytes -/

/-- The lead byte of a form of two bytes announces one byte more, of any value that can continue a
character. -/
theorem ofByte?_two {n : Nat} (hlow : 2 ≤ n) (hhigh : n < 32) :
    Lead.ofByte? (0xC0 + n) = some ⟨n, 1, 0x80, 0xBF⟩ := by
  rw [Lead.ofByte?, if_pos (by omega)]
  simp

/-- The lead byte of a form of three bytes leaves room for the second byte. -/
theorem exists_lead_three {n : Nat} (hlow : 0x800 ≤ n) (hhigh : n < 0x10000)
    (hsurrogate : n < 0xD800 ∨ 0xDFFF < n) : ∃ low high,
      Lead.ofByte? (0xE0 + n / 4096) = some ⟨n / 4096, 2, low, high⟩ ∧
        low ≤ 0x80 + n / 64 % 64 ∧ 0x80 + n / 64 % 64 ≤ high := by
  unfold Lead.ofByte?
  rw [if_neg (by omega)]
  by_cases hfirst : n / 4096 = 0
  · exact ⟨0xA0, 0xBF, by rw [hfirst]; rfl, by omega, by omega⟩
  · rw [if_neg (by omega)]
    by_cases hlast : n / 4096 = 13
    · exact ⟨0x80, 0x9F, by rw [hlast]; rfl, by omega, by omega⟩
    · rw [if_neg (by omega), if_pos (by omega), Nat.add_sub_cancel_left]
      exact ⟨0x80, 0xBF, rfl, by omega, by omega⟩

/-- The lead byte of a form of four bytes leaves room for the second byte. -/
theorem exists_lead_four {n : Nat} (hlow : 0x10000 ≤ n) (hhigh : n < 0x110000) : ∃ low high,
      Lead.ofByte? (0xF0 + n / 262144) = some ⟨n / 262144, 3, low, high⟩ ∧
        low ≤ 0x80 + n / 4096 % 64 ∧ 0x80 + n / 4096 % 64 ≤ high := by
  unfold Lead.ofByte?
  rw [if_neg (by omega), if_neg (by omega), if_neg (by omega), if_neg (by omega)]
  by_cases hfirst : n / 262144 = 0
  · exact ⟨0x90, 0xBF, by rw [hfirst]; rfl, by omega, by omega⟩
  · rw [if_neg (by omega)]
    by_cases hlast : n / 262144 = 4
    · exact ⟨0x80, 0x8F, by rw [hlast]; rfl, by omega, by omega⟩
    · rw [if_neg (by omega), if_pos (by omega), Nat.add_sub_cancel_left]
      exact ⟨0x80, 0xBF, rfl, by omega, by omega⟩

/-! ### Characters -/

/-- A byte that continues the character adds its six bits. -/
theorem continueChar_cons {count taken code low high n : Nat} (hbyte : n < 256) (hlow : low ≤ n)
    (hhigh : n ≤ high) (rest : List UInt8) :
    continueChar (count + 1) taken code low high (n.toUInt8 :: rest) =
      continueChar count (taken + 1) (code * 64 + (n - 0x80)) 0x80 0xBF rest := by
  rw [continueChar, toNat_toUInt8 hbyte, if_pos ⟨hlow, hhigh⟩]

/-- Behind a lead byte the continuation bytes are read as it announces. -/
theorem step_lead {n : Nat} {lead : Lead} (hlow : 0x80 ≤ n) (hbyte : n < 256)
    (hlead : Lead.ofByte? n = some lead) (rest : List UInt8) :
    step n.toUInt8 rest = continueChar lead.count 0 lead.payload lead.low lead.high rest := by
  rw [step, toNat_toUInt8 hbyte, if_neg (by omega), hlead]

/-- **The bytes of a character are read as the character**, whatever stands behind them. -/
theorem exists_step_encodeChar (c : Char) (bytes : List UInt8) : ∃ first more,
    encodeChar c = first :: more ∧ step first (more ++ bytes) = .char c more.length := by
  have hvalid : c.toNat < 0xD800 ∨ 0xDFFF < c.toNat ∧ c.toNat < 0x110000 := c.valid
  have hchar {code : Nat} (hcode : code = c.toNat) : Char.ofNat code = c := by
    rw [hcode, Char.ofNat_toNat]
  unfold encodeChar
  generalize c.toNat = n at hvalid hchar
  dsimp only
  -- one case for each length of the encoding, from one byte to four
  split_ifs with hone htwo hthree
  · refine ⟨_, [], rfl, ?_⟩
    rw [step, toNat_toUInt8 (by omega), if_pos hone, hchar rfl]
    rfl
  · refine ⟨_, _, rfl, ?_⟩
    rw [step_lead (by omega) (by omega) (ofByte?_two (by omega) (by omega))]
    dsimp only [List.cons_append]
    rw [continueChar_cons (by omega) (by omega) (by omega), continueChar, hchar (by omega)]
    rfl
  · obtain ⟨low, high, hlead, hlow, hhigh⟩ :=
      exists_lead_three (n := n) (by omega) hthree (by omega)
    refine ⟨_, _, rfl, ?_⟩
    rw [step_lead (by omega) (by omega) hlead]
    dsimp only [List.cons_append]
    rw [continueChar_cons (by omega) hlow hhigh, continueChar_cons (by omega) (by omega) (by omega),
      continueChar, hchar (by omega)]
    rfl
  · obtain ⟨low, high, hlead, hlow, hhigh⟩ := exists_lead_four (n := n) (by omega) (by omega)
    refine ⟨_, _, rfl, ?_⟩
    rw [step_lead (by omega) (by omega) hlead]
    dsimp only [List.cons_append]
    rw [continueChar_cons (by omega) hlow hhigh, continueChar_cons (by omega) (by omega) (by omega),
      continueChar_cons (by omega) (by omega) (by omega), continueChar, hchar (by omega)]
    rfl

/-- **The bytes of a text are read as the text.** -/
@[simp]
theorem decodeReplacing_encode (t : Text) : decodeReplacing (encode t) = t := by
  induction t with
  | nil => rw [encode, List.flatMap_nil, decodeReplacing]
  | cons c t ih =>
    obtain ⟨first, more, hbytes, hstep⟩ := exists_step_encodeChar c (encode t)
    have happend : encode (c :: t) = first :: (more ++ encode t) := by
      rw [encode, List.flatMap_cons, hbytes]
      rfl
    rw [happend, decodeReplacing, hstep]
    dsimp only
    rw [List.drop_left, ih]

end Cobol.Utf8
