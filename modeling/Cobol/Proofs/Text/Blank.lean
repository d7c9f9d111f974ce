import Mathlib.Data.List.DropRight
import Cobol.Proofs.Text.Upper

/-!
# Blanks around and between words

Trimming and cutting into words both go by `isBlank`, so each is blind to what the other removes.

* `exists_blanks_trim` cuts a text into its leading blanks, its trimmed part and its trailing
  blanks; what does not see blanks at either end then only has to be checked on the trimmed part.
* `words_append_blank` is the one equation from which the laws of `words` follow: a blank ends every
  word. `words_of_not_allBlank` takes the first word off, so that words are found by going from left
  to right: each is a part of the text (`isInfix_of_mem_words`).
* `upperChar_of_isBlank`, `isBlank_of_mem_upperChar`: a blank is its own upper case, and no other
  character becomes one, so upper case moves no word boundary.

## Shape decisions

* Blanks are those of the program's own classes and not of ASCII. They are a finite list, so what
  has to be known of a blank is checked on the list.
* Each law is stated for a text with blanks behind it or in front of it. A law about trimming is
  then a case of it, by `exists_blanks_trim`.
-/

namespace Cobol.Text

/-- What holds of each character of a text is decided by going through the text: there are finitely
many characters, but far too many to go through those. -/
instance decidableForallMem (t : Text) (p : Char → Prop) [DecidablePred p] :
    Decidable (∀ c ∈ t, p c) :=
  List.decidableBAll p t

/-- A text of blanks only. -/
def AllBlank (t : Text) : Prop :=
  ∀ c ∈ t, isBlank c = true

instance : DecidablePred AllBlank := fun t ↦
  inferInstanceAs (Decidable (∀ c ∈ t, isBlank c = true))

/-- Nothing is all blank. -/
theorem AllBlank.nil : AllBlank [] := by
  simp [AllBlank]

theorem allBlank_cons {c : Char} {t : Text} :
    AllBlank (c :: t) ↔ isBlank c = true ∧ AllBlank t :=
  List.forall_mem_cons

theorem allBlank_append {s t : Text} : AllBlank (s ++ t) ↔ AllBlank s ∧ AllBlank t :=
  List.forall_mem_append

/-! ### Which characters are blank -/

/-- The code points of the blanks. -/
def blankCodes : List Nat :=
  [9, 10, 11, 12, 13, 32, 0x1C, 0x1D, 0x1E, 0x1F, 0x85, 0xA0, 0x1680, 0x2000, 0x2001, 0x2002,
   0x2003, 0x2004, 0x2005, 0x2006, 0x2007, 0x2008, 0x2009, 0x200A, 0x2028, 0x2029, 0x202F, 0x205F,
   0x3000]

/-- The blanks are finitely many, and listed. -/
theorem toNat_mem_blankCodes {c : Char} (h : isBlank c = true) : c.toNat ∈ blankCodes := by
  have hcases : c.toNat = 32 ∨ (9 ≤ c.toNat ∧ c.toNat ≤ 13) ∨
      ∃ r ∈ wideBlanks, r.1 ≤ c.toNat ∧ c.toNat ≤ r.2 := by
    simp only [isBlank, inRanges, Bool.or_eq_true, beq_iff_eq, Bool.and_eq_true,
      decide_eq_true_eq, List.any_eq_true] at h
    rcases h with (rfl | h) | h
    · exact Or.inl rfl
    · exact Or.inr (Or.inl h)
    · exact Or.inr (Or.inr h)
  simp only [wideBlanks, List.mem_cons, List.not_mem_nil, or_false, exists_eq_or_imp,
    exists_eq_left] at hcases
  simp only [blankCodes, List.mem_cons, List.not_mem_nil, or_false]
  omega

/-- What holds of the listed blanks holds of every blank. -/
theorem forall_isBlank {P : Char → Prop} (h : ∀ n ∈ blankCodes, P (Char.ofNat n)) {c : Char}
    (hc : isBlank c = true) : P c := by
  have := h _ (toNat_mem_blankCodes hc)
  rwa [Char.ofNat_toNat] at this

/-- A blank is its own upper case. -/
theorem upperChar_of_isBlank {c : Char} (h : isBlank c = true) : upperChar c = [c] :=
  forall_isBlank (P := fun c ↦ upperChar c = [c]) (by decide +kernel) h

/-- No run of letters is mapped onto a blank. -/
theorem CaseRun.not_blank_image : ∀ r ∈ caseRuns, ∀ n ∈ blankCodes,
    ¬((r.first : Int) + r.shift ≤ n ∧ (n : Int) ≤ r.last + r.shift) := by
  decide +kernel

/-- A character that is no blank has none in its upper case. -/
theorem isBlank_of_mem_upperChar {c d : Char} (hc : isBlank c = false) (hd : d ∈ upperChar c) :
    isBlank d = false := by
  have hlong : ∀ e ∈ longCases, ∀ n ∈ e.2, isBlank (Char.ofNat n) = false := by decide +kernel
  rcases upperChar_cases c with hlt | ⟨e, he, hupper⟩ | ⟨r, hr, hholds, hupper⟩ | hupper
  · rcases mem_upperChar_of_toNat_lt hlt hd with ⟨-, rfl⟩ | ⟨hlow, hhigh⟩
    · exact hc
    · rw [← Bool.not_eq_true]
      intro hblank
      have hmem := toNat_mem_blankCodes hblank
      simp only [blankCodes, List.mem_cons, List.not_mem_nil, or_false] at hmem
      omega
  · rw [hupper] at hd
    obtain ⟨n, hn, rfl⟩ := List.mem_map.1 hd
    exact hlong e he n hn
  · rw [hupper, List.mem_singleton] at hd
    rw [← Bool.not_eq_true]
    intro hblank
    have hmem := toNat_mem_blankCodes hblank
    simp only [CaseRun.holds, Bool.and_eq_true, decide_eq_true_eq] at hholds
    obtain ⟨⟨hfirst, hlast⟩, -⟩ := hholds
    -- a code point that is no character would become the null character
    have himage : d.toNat = (c.toNat + r.shift).toNat ∨ d.toNat = 0 := by
      rw [hd]
      by_cases hvalid : (c.toNat + r.shift).toNat.isValidChar
      · exact Or.inl (toNat_ofNat_of_isValidChar hvalid)
      · rw [Char.ofNat, dif_neg hvalid]
        exact Or.inr rfl
    rcases himage with himage | hzero
    · refine CaseRun.not_blank_image r hr d.toNat hmem ?_
      have hpos : d.toNat ≠ 0 := fun h ↦ absurd (h ▸ hmem) (by decide)
      omega
    · exact absurd (hzero ▸ hmem) (by decide)
  · rw [hupper, List.mem_singleton] at hd
    exact hd ▸ hc

/-- A blank is no quote. -/
theorem isQuote_of_isBlank {c : Char} (h : isBlank c = true) : isQuote c = false :=
  forall_isBlank (P := fun c ↦ isQuote c = false) (by decide +kernel) h

/-- A blank is no mark. -/
theorem ne_of_isBlank {c mark : Char} (h : isBlank c = true) (hm : isBlank mark = false) :
    c ≠ mark := by
  rintro rfl
  rw [h] at hm
  exact absurd hm (by simp)

/-- Blanks are their own upper case. -/
theorem upper_of_allBlank {t : Text} (h : AllBlank t) : upper t = t := by
  induction t with
  | nil => rfl
  | cons c t ih =>
    obtain ⟨hc, ht⟩ := allBlank_cons.1 h
    rw [upper, List.flatMap_cons, upperChar_of_isBlank hc]
    exact congrArg (c :: ·) (ih ht)

/-! ### Trimming -/

/-- A scanner of one class of characters stops in front of what is not of the class. -/
theorem takeWhile_append_of_stop {p : Char → Bool} {xs ys : Text} (hxs : ∀ c ∈ xs, p c = true)
    (hys : ∀ c ∈ ys.head?, p c = false) :
    (xs ++ ys).takeWhile p = xs ∧ (xs ++ ys).dropWhile p = ys := by
  rw [List.takeWhile_append_of_pos hxs, List.dropWhile_append_of_pos hxs]
  cases ys with
  | nil => simp
  | cons c rest =>
    have hc : p c = false := hys c rfl
    simp [hc]

theorem trimRight_eq_rdropWhile (t : Text) : trimRight t = t.rdropWhile isBlank := rfl

@[simp] theorem trimLeft_nil : trimLeft [] = [] := rfl

@[simp] theorem trimRight_nil : trimRight [] = [] := rfl

@[simp] theorem trim_nil : trim [] = [] := rfl

theorem trimLeft_eq_nil_iff {t : Text} : trimLeft t = [] ↔ AllBlank t :=
  List.dropWhile_eq_nil_iff

theorem trimRight_eq_nil_iff {t : Text} : trimRight t = [] ↔ AllBlank t :=
  List.rdropWhile_eq_nil_iff

/-- Blanks in front are trimmed. -/
theorem trimLeft_append_of_allBlank {s : Text} (h : AllBlank s) (t : Text) :
    trimLeft (s ++ t) = trimLeft t :=
  List.dropWhile_append_of_pos h

/-- In front of a text that is not blank the same is trimmed, whatever follows. -/
theorem trimLeft_append_of_not_allBlank {t : Text} (h : ¬AllBlank t) (b : Text) :
    trimLeft (t ++ b) = trimLeft t ++ b := by
  have hne : ¬(t.dropWhile isBlank).isEmpty = true := by
    rw [List.isEmpty_iff]
    exact fun hnil ↦ h (trimLeft_eq_nil_iff.1 hnil)
  rw [trimLeft, List.dropWhile_append, if_neg hne]
  rfl

theorem trimLeft_cons_of_isBlank {c : Char} (h : isBlank c = true) (t : Text) :
    trimLeft (c :: t) = trimLeft t := by
  simp [trimLeft, h]

theorem trimLeft_cons_of_not {c : Char} (h : isBlank c = false) (t : Text) :
    trimLeft (c :: t) = c :: t := by
  simp [trimLeft, h]

/-- Blanks behind are trimmed. -/
theorem trimRight_append_of_allBlank (s : Text) {t : Text} (h : AllBlank t) :
    trimRight (s ++ t) = trimRight s := by
  have hreverse : AllBlank t.reverse := fun c hc ↦ h c (List.mem_reverse.1 hc)
  rw [trimRight, List.reverse_append, List.dropWhile_append_of_pos hreverse]
  rfl

/-- Trailing blanks are cut off the second part alone, unless it is nothing but blanks. -/
theorem trimRight_append_of_not_allBlank (s : Text) {t : Text} (h : ¬AllBlank t) :
    trimRight (s ++ t) = s ++ trimRight t := by
  have hne : ¬(t.reverse.dropWhile isBlank).isEmpty = true := by
    rw [List.isEmpty_iff, ← List.reverse_eq_nil_iff]
    exact fun he ↦ h (trimRight_eq_nil_iff.1 he)
  rw [trimRight, List.reverse_append, List.dropWhile_append, if_neg hne, List.reverse_append,
    List.reverse_reverse]
  rfl

/-- A character in front that is no blank stays. -/
theorem trimRight_cons_of_not {c : Char} (h : isBlank c = false) (t : Text) :
    trimRight (c :: t) = c :: trimRight t := by
  by_cases ht : AllBlank t
  · rw [trimRight_eq_nil_iff.2 ht, show c :: t = [c] ++ t from rfl,
      trimRight_append_of_allBlank _ ht]
    simp [trimRight, h]
  · exact trimRight_append_of_not_allBlank [c] ht

/-- Nothing is trimmed behind a last character that is no blank. -/
theorem trimRight_of_getLast? {t : Text} {c : Char} (h : t.getLast? = some c)
    (hc : isBlank c = false) : trimRight t = t := by
  obtain ⟨s, rfl⟩ := List.getLast?_eq_some_iff.1 h
  exact List.rdropWhile_concat_neg _ _ _ (by simp [hc])

@[simp] theorem trimLeft_trimLeft (t : Text) : trimLeft (trimLeft t) = trimLeft t :=
  List.dropWhile_idempotent _ _

@[simp] theorem trimRight_trimRight (t : Text) : trimRight (trimRight t) = trimRight t :=
  List.rdropWhile_idempotent _ _

/-- The two ends are trimmed independently of each other. -/
theorem trimLeft_trimRight (t : Text) : trimLeft (trimRight t) = trimRight (trimLeft t) := by
  induction t with
  | nil => rfl
  | cons c t ih =>
    by_cases hc : isBlank c = true
    · rw [trimLeft_cons_of_isBlank hc]
      by_cases ht : AllBlank t
      · have hct : AllBlank (c :: t) := allBlank_cons.2 ⟨hc, ht⟩
        rw [trimRight_eq_nil_iff.2 hct, trimLeft_eq_nil_iff.2 ht]
        rfl
      · rw [show c :: t = [c] ++ t from rfl, trimRight_append_of_not_allBlank _ ht,
          List.singleton_append, trimLeft_cons_of_isBlank hc]
        exact ih
    · have hc' : isBlank c = false := by simpa using hc
      rw [trimLeft_cons_of_not hc', trimRight_cons_of_not hc', trimLeft_cons_of_not hc']

/-- What is trimmed in front first is trimmed in any case. -/
theorem trim_trimLeft (t : Text) : trim (trimLeft t) = trim t := by
  rw [trim, ← trimLeft_trimRight, trimLeft_trimLeft]
  rfl

/-- What is trimmed behind first is trimmed in any case. -/
theorem trim_trimRight (t : Text) : trim (trimRight t) = trim t := by
  rw [trim, trimRight_trimRight]
  rfl

@[simp] theorem trim_trim (t : Text) : trim (trim t) = trim t := by
  rw [show trim t = trimLeft (trimRight t) from rfl, trim_trimLeft, trim_trimRight]
  rfl

/-- A text that neither starts nor ends with a blank is trimmed. -/
theorem trim_eq_self {t : Text} {a b : Char} (hhead : t.head? = some a) (ha : isBlank a = false)
    (hlast : t.getLast? = some b) (hb : isBlank b = false) : trim t = t := by
  obtain ⟨rest, rfl⟩ := List.head?_eq_some_iff.1 hhead
  rw [trim, trimRight_of_getLast? hlast hb, trimLeft_cons_of_not ha]

/-- A trimmed text begins with no blank. -/
theorem trimLeft_trim (t : Text) : trimLeft (trim t) = trim t :=
  trimLeft_trimLeft _

/-- Nothing is left of a text exactly if it is blank. -/
theorem trim_eq_nil_iff {t : Text} : trim t = [] ↔ AllBlank t := by
  rw [trim, trimLeft_trimRight, trimRight_eq_nil_iff]
  constructor
  · intro h
    refine trimLeft_eq_nil_iff.1 (List.eq_nil_iff_forall_not_mem.2 fun c hc ↦ ?_)
    -- the first character that `trimLeft` leaves is no blank
    obtain ⟨d, rest, hd⟩ := List.exists_cons_of_ne_nil (List.ne_nil_of_mem hc)
    have hblank := h d (by rw [hd]; exact List.mem_cons_self ..)
    rw [isBlank_of_trimLeft hd] at hblank
    exact absurd hblank (by simp)
  · intro h
    rw [trimLeft_eq_nil_iff.2 h]
    exact AllBlank.nil

/-- A text is its trimmed part between blanks. -/
theorem exists_blanks_trim (t : Text) :
    ∃ lead trail, AllBlank lead ∧ AllBlank trail ∧ t = lead ++ (trim t ++ trail) := by
  have hleft : AllBlank (t.takeWhile isBlank) := fun c hc ↦ List.mem_takeWhile_imp hc
  have hright : AllBlank ((trimLeft t).rtakeWhile isBlank) :=
    fun c hc ↦ List.mem_rtakeWhile_imp hc
  refine ⟨_, _, hleft, hright, ?_⟩
  rw [trim, trimLeft_trimRight, trimRight_eq_rdropWhile, List.rdropWhile_append_rtakeWhile]
  exact (List.takeWhile_append_dropWhile).symm

/-- A trimmed text is cut out of the text. -/
theorem trim_isInfix (t : Text) : trim t <:+: t := by
  obtain ⟨lead, trail, -, -, ht⟩ := exists_blanks_trim t
  exact ⟨lead, trail, by rw [List.append_assoc, ← ht]⟩

/-! ### Words -/

@[simp] theorem words_nil : words [] = [] := by
  simp [words, List.splitOnP_nil]

/-- A blank ends every word. -/
theorem words_append_blank {c : Char} (h : isBlank c = true) (s t : Text) :
    words (s ++ c :: t) = words s ++ words t := by
  unfold words
  rw [List.splitOnP_append_cons s t h, List.filter_append]

theorem words_cons_blank {c : Char} (h : isBlank c = true) (t : Text) :
    words (c :: t) = words t := by
  simpa using words_append_blank h [] t

/-- Blanks in front of a text do not change its words. -/
theorem words_append_of_allBlank {s : Text} (h : AllBlank s) (t : Text) :
    words (s ++ t) = words t := by
  induction s with
  | nil => rfl
  | cons c s ih =>
    obtain ⟨hc, hs⟩ := allBlank_cons.1 h
    rw [List.cons_append, words_cons_blank hc, ih hs]

/-- Blanks behind a text do not change its words. -/
theorem words_append_allBlank (s : Text) {t : Text} (h : AllBlank t) :
    words (s ++ t) = words s := by
  cases t with
  | nil => rw [List.append_nil]
  | cons c t =>
    obtain ⟨hc, ht⟩ := allBlank_cons.1 h
    have hnil : words t = [] := by
      simpa using words_append_of_allBlank ht []
    rw [words_append_blank hc, hnil, List.append_nil]

/-- Blanks around a text do not change its words. -/
theorem words_trim (t : Text) : words (trim t) = words t := by
  obtain ⟨lead, trail, hlead, htrail, h⟩ := exists_blanks_trim t
  conv_rhs => rw [h]
  rw [words_append_of_allBlank hlead, words_append_allBlank _ htrail]

/-- A text without blanks is one word. -/
theorem words_of_forall_not {w : Text} (hne : w ≠ []) (h : ∀ c ∈ w, isBlank c = false) :
    words w = [w] := by
  rw [words, List.splitOnP_eq_singleton h]
  simp [hne]

/-- The words of a text make up what is not blank of it. -/
theorem flatten_words (t : Text) : (words t).flatten = t.filter fun c ↦ !isBlank c := by
  have hsplit : (t.splitOnP isBlank).flatten = t.filter fun c ↦ !isBlank c := by
    induction t with
    | nil => rfl
    | cons c t ih =>
      rw [List.splitOnP_cons_eq_if_modifyHead]
      by_cases hc : isBlank c = true
      · rw [if_pos hc, List.filter_cons_of_neg (by simp [hc])]
        exact ih
      · obtain ⟨first, more, hsplit⟩ := List.exists_cons_of_ne_nil (List.splitOnP_ne_nil isBlank t)
        rw [if_neg hc, List.filter_cons_of_pos (by simpa using hc), ← ih, hsplit]
        rfl
  rw [← hsplit, words]
  induction t.splitOnP isBlank with
  | nil => rfl
  | cons w rest ih =>
    cases w with
    | nil => exact ih
    | cons c w =>
      rw [List.filter_cons_of_pos rfl, List.flatten_cons, List.flatten_cons, ih]

/-- No word is empty. -/
theorem ne_nil_of_mem_words {t w : Text} (h : w ∈ words t) : w ≠ [] := by
  simpa using List.of_mem_filter h

/-- There is no blank in a word. -/
theorem not_blank_of_mem_words {t w : Text} (h : w ∈ words t) : ∀ c ∈ w, isBlank c = false := by
  intro c hc
  have hmem : c ∈ (words t).flatten := List.mem_flatten.2 ⟨w, h, hc⟩
  rw [flatten_words] at hmem
  simpa using List.of_mem_filter hmem

/-- The first word of a text that goes on behind a blank. -/
theorem words_word_append {w : Text} (hne : w ≠ []) (h : ∀ c ∈ w, isBlank c = false) {c : Char}
    (hc : isBlank c = true) (t : Text) : words (w ++ c :: t) = w :: words t := by
  rw [words_append_blank hc, words_of_forall_not hne h, List.singleton_append]

/-- Words that are joined by spaces are found again. -/
theorem words_intercalate {ws : List Text} (hne : ∀ w ∈ ws, w ≠ [])
    (hblank : ∀ w ∈ ws, ∀ c ∈ w, isBlank c = false) : words ([' '].intercalate ws) = ws := by
  induction ws with
  | nil => exact words_nil
  | cons w rest ih =>
    obtain ⟨hw, hrest⟩ := List.forall_mem_cons.1 hne
    obtain ⟨hwBlank, hrestBlank⟩ := List.forall_mem_cons.1 hblank
    cases rest with
    | nil => rw [List.intercalate_singleton, words_of_forall_not hw hwBlank]
    | cons next more =>
      rw [List.intercalate_cons_cons, List.append_assoc, List.singleton_append,
        words_word_append hw hwBlank rfl, ih hrest hrestBlank]

/-- What stands behind the first word. -/
theorem afterWord_word_append {w : Text} (hne : w ≠ []) (h : ∀ c ∈ w, isBlank c = false)
    {c : Char} (hc : isBlank c = true) (t : Text) : afterWord (w ++ c :: t) = trim t := by
  obtain ⟨first, more, rfl⟩ := List.exists_cons_of_ne_nil hne
  have hall : ∀ a ∈ first :: more, (!isBlank a) = true := fun a ha ↦ by simp [h a ha]
  rw [afterWord, List.cons_append, trimLeft_cons_of_not (h first (List.mem_cons_self ..)),
    ← List.cons_append, List.dropWhile_append_of_pos hall,
    List.dropWhile_cons_of_neg (by simp [hc]), ← trim_trimLeft, trimLeft_cons_of_isBlank hc,
    trim_trimLeft]

/-- Nothing stands behind a text of one word. -/
theorem afterWord_word {w : Text} (h : ∀ c ∈ w, isBlank c = false) : afterWord w = [] := by
  have hall : ∀ a ∈ w, (!isBlank a) = true := fun a ha ↦ by simp [h a ha]
  have htrim : trimLeft w = w := by
    cases w with
    | nil => rfl
    | cons c w => exact trimLeft_cons_of_not (h c (List.mem_cons_self ..)) w
  rw [afterWord, htrim, List.dropWhile_eq_nil_iff.2 hall]
  rfl

theorem afterWord_trimLeft (t : Text) : afterWord (trimLeft t) = afterWord t := by
  rw [afterWord, trimLeft_trimLeft]
  rfl

/-! ### Words from the left -/

/-- There are no words in blanks. -/
theorem words_of_allBlank {t : Text} (h : AllBlank t) : words t = [] := by
  simpa using words_append_allBlank [] h

/-- A word ends at a blank. -/
theorem isBlank_of_dropWhile_eq_cons {t after : Text} {d : Char}
    (h : (t.dropWhile fun c ↦ !isBlank c) = d :: after) : isBlank d = true := by
  have hne : (t.dropWhile fun c ↦ !isBlank c) ≠ [] := by rw [h]; exact List.cons_ne_nil d after
  simpa [h] using List.head_dropWhile_not (fun c ↦ !isBlank c) hne

/-- A text that is not blank starts, behind its leading blanks, with its first word. -/
theorem words_of_not_allBlank {t : Text} (h : ¬AllBlank t) :
    words t = ((trimLeft t).takeWhile fun c ↦ !isBlank c) ::
      words ((trimLeft t).dropWhile fun c ↦ !isBlank c) := by
  obtain ⟨c, rest, hsplit⟩ := List.exists_cons_of_ne_nil fun he ↦ h (trimLeft_eq_nil_iff.1 he)
  have hc : isBlank c = false := isBlank_of_trimLeft hsplit
  have hne : ((trimLeft t).takeWhile fun c ↦ !isBlank c) ≠ [] := by
    rw [hsplit, List.takeWhile_cons_of_pos (by simp [hc])]
    exact List.cons_ne_nil _ _
  have hchars : ∀ a ∈ (trimLeft t).takeWhile fun c ↦ !isBlank c, isBlank a = false := fun a ha ↦ by
    simpa using List.mem_takeWhile_imp ha
  have htrim : words t = words (trimLeft t) := by
    rw [← words_trim t, ← trim_trimLeft, words_trim]
  rw [htrim]
  conv_lhs => rw [← List.takeWhile_append_dropWhile (p := fun c ↦ !isBlank c) (l := trimLeft t)]
  rcases hafter : (trimLeft t).dropWhile fun c ↦ !isBlank c with _ | ⟨d, after⟩
  · rw [List.append_nil, words_of_forall_not hne hchars, words_nil]
  · have hd := isBlank_of_dropWhile_eq_cons hafter
    rw [words_word_append hne hchars hd, words_cons_blank hd]

/-- A text without words is blank. -/
theorem allBlank_of_words_eq_nil {t : Text} (h : words t = []) : AllBlank t := by
  by_contra hblank
  rw [words_of_not_allBlank hblank] at h
  cases h

/-- The words behind the first one. -/
theorem words_afterWord (t : Text) : words (afterWord t) = (words t).tail := by
  by_cases h : AllBlank t
  · rw [afterWord, trimLeft_eq_nil_iff.2 h, words_of_allBlank h]
    exact words_nil
  · rw [afterWord, words_trim, words_of_not_allBlank h, List.tail_cons]

/-- A text with a word is not blank. -/
theorem not_allBlank_of_mem_words {t w : Text} (h : w ∈ words t) : ¬AllBlank t := by
  intro hblank
  rw [words_of_allBlank hblank] at h
  exact absurd h List.not_mem_nil

/-- A word is a part of the text. -/
theorem isInfix_of_mem_words {t w : Text} (h : w ∈ words t) : w <:+: t := by
  have hblank := not_allBlank_of_mem_words h
  have htrim : trimLeft t <:+: t := (List.dropWhile_suffix _).isInfix
  rw [words_of_not_allBlank hblank] at h
  rcases List.mem_cons.1 h with rfl | h
  · exact (List.takeWhile_prefix _).isInfix.trans htrim
  · have hshorter : ((trimLeft t).dropWhile fun c ↦ !isBlank c).length < t.length := by
      obtain ⟨c, rest, hsplit⟩ :=
        List.exists_cons_of_ne_nil fun he ↦ hblank (trimLeft_eq_nil_iff.1 he)
      have hc : isBlank c = false := isBlank_of_trimLeft hsplit
      rw [hsplit, List.dropWhile_cons_of_pos (by simp [hc])]
      exact Nat.lt_of_le_of_lt (length_dropWhile_le _ rest) (length_lt_of_trimLeft hsplit)
    exact (isInfix_of_mem_words h).trans ((List.dropWhile_suffix _).isInfix.trans htrim)
termination_by t.length

/-- Behind the first word stands a blank, so the words from there on are words of every text that
ends in this one. -/
theorem mem_words_append_of_mem_tail {t w : Text} (h : w ∈ (words t).tail) (s : Text) :
    w ∈ words (s ++ t) := by
  have hblank : ¬AllBlank t := not_allBlank_of_mem_words (List.mem_of_mem_tail h)
  rw [words_of_not_allBlank hblank, List.tail_cons] at h
  rcases hafter : (trimLeft t).dropWhile fun c ↦ !isBlank c with _ | ⟨d, after⟩
  · rw [hafter, words_nil] at h
    exact absurd h List.not_mem_nil
  · have hd := isBlank_of_dropWhile_eq_cons hafter
    have hsuffix : d :: after <:+ s ++ t := by
      rw [← hafter]
      exact ((List.dropWhile_suffix _).trans (List.dropWhile_suffix _)).trans
        (List.suffix_append s t)
    obtain ⟨front, hfront⟩ := hsuffix
    rw [hafter, words_cons_blank hd] at h
    rw [← hfront, words_append_blank hd]
    exact List.mem_append_right _ h

/-- A character at the end that is no blank makes the last word longer, or is a word of its own. -/
theorem words_concat {c : Char} (hc : isBlank c = false) (t : Text) :
    words (t ++ [c]) = words t ++ [[c]] ∨
      ∃ before w, words t = before ++ [w] ∧ words (t ++ [c]) = before ++ [w ++ [c]] := by
  have ht : t = (t.rdropWhile fun c ↦ !isBlank c) ++ t.rtakeWhile fun c ↦ !isBlank c :=
    (List.rdropWhile_append_rtakeWhile ..).symm
  have hlast : ∀ a ∈ t.rtakeWhile fun c ↦ !isBlank c, isBlank a = false := fun a ha ↦ by
    simpa using List.mem_rtakeWhile_imp ha
  -- the words before the last blank stay as they are
  obtain ⟨before, hbefore⟩ : ∃ before, ∀ u,
      words ((t.rdropWhile fun c ↦ !isBlank c) ++ u) = before ++ words u := by
    rcases List.eq_nil_or_concat (t.rdropWhile fun c ↦ !isBlank c) with hnil | ⟨s, b, hs⟩
    · exact ⟨[], fun u ↦ by rw [hnil]; rfl⟩
    · have hb : isBlank b = true := by
        have := List.rdropWhile_last_not (fun c ↦ !isBlank c) t (by simp [hs])
        simpa [hs] using this
      refine ⟨words s, fun u ↦ ?_⟩
      rw [hs, List.concat_append, words_append_blank hb]
  have hchars : ∀ a ∈ (t.rtakeWhile fun c ↦ !isBlank c) ++ [c], isBlank a = false := by
    intro a ha
    rcases List.mem_append.1 ha with ha | ha
    · exact hlast a ha
    · rw [List.mem_singleton.1 ha]
      exact hc
  have hlonger : words (t ++ [c]) = before ++ [(t.rtakeWhile fun c ↦ !isBlank c) ++ [c]] := by
    conv_lhs => rw [ht]
    rw [List.append_assoc, hbefore, words_of_forall_not (by simp) hchars]
  have hshorter : words t = before ++ words (t.rtakeWhile fun c ↦ !isBlank c) := by
    conv_lhs => rw [ht]
    exact hbefore _
  by_cases hnil : (t.rtakeWhile fun c ↦ !isBlank c) = []
  · rw [hnil, words_nil, List.append_nil] at hshorter
    rw [hnil, ← hshorter] at hlonger
    exact Or.inl hlonger
  · rw [words_of_forall_not hnil hlast] at hshorter
    exact Or.inr ⟨before, _, hshorter, hlonger⟩

end Cobol.Text
