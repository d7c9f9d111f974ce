import Cobol.Proofs.Statement

/-!
# Sentences on joined lines

A line that ends in a period can take the next line behind it, with a blank between the two, and
nothing is lost: the sentences of the joined line are those of the two lines (`sentences_joined`),
and a joined line is its own content if the two lines are (`IsContent.joined`), so it is not read as
a comment and no part of it is.

Both laws rest on the same fact: behind a period outside literals no literal is open, so what
follows is read as at the start of a line.

## Shape decisions

* Pieces are looked at before their blanks are gone. The blanks in front of a piece are what a line
  begins with, so the pieces behind a period are those of the next line up to these.
* A content is a structure with one field for each thing that was taken away. A joined line has to
  meet each of them again, and each rests on the period between the two lines.
-/

namespace Cobol.Sentence

open Text

/-- Two lines on one line, with a blank between them. -/
def joined (line next : Text) : Text :=
  line ++ ' ' :: next

/-! ### Pieces -/

/-- **A period outside literals ends a piece**, if a blank follows: what stands behind it is cut as
if it began a line. -/
theorem pieces_append {open? : Option Char} {body : Text}
    (h : body.foldl literalAfter open? = none) {c : Char} (hc : isBlank c = true) (t : Text) :
    pieces open? (body ++ '.' :: c :: t) =
      pieces open? (body ++ ['.']) ++ pieces none (c :: t) := by
  induction body generalizing open? with
  | nil =>
    obtain rfl : open? = none := h
    simp [pieces, hc]
  | cons a rest ih =>
    have hhead : (rest ++ '.' :: c :: t).head? = (rest ++ ['.']).head? := by
      cases rest <;> rfl
    rw [List.cons_append, List.cons_append, pieces, pieces, hhead]
    split
    · rename_i hcut
      simp only [Bool.and_eq_true, Option.isNone_iff_eq_none, beq_iff_eq] at hcut
      obtain ⟨⟨rfl, rfl⟩, -⟩ := hcut
      have hrest : pieces none (rest ++ '.' :: c :: t) =
          pieces none (rest ++ ['.']) ++ pieces none (c :: t) := ih h
      rw [hrest]
      rfl
    · rw [ih h]
      obtain ⟨first, more, hpieces⟩ := List.exists_cons_of_ne_nil
        (pieces_ne_nil (literalAfter open? a) (rest ++ ['.']))
      rw [hpieces]
      rfl

/-- A blank in front of a line is trimmed with its first piece. -/
theorem map_trim_pieces_cons {c : Char} (hc : isBlank c = true) (t : Text) :
    (pieces none (c :: t)).map trim = (pieces none t).map trim := by
  have hdot : c ≠ '.' := ne_of_isBlank hc (by decide)
  have hliteral : literalAfter none c = none := by simp [literalAfter, isQuote_of_isBlank hc]
  rw [pieces, if_neg (by simp [hdot]), hliteral]
  obtain ⟨first, more, hpieces⟩ := List.exists_cons_of_ne_nil (pieces_ne_nil none t)
  rw [hpieces]
  show trim (c :: first) :: more.map trim = _
  rw [← trim_trimLeft, trimLeft_cons_of_isBlank hc, trim_trimLeft]
  rfl

/-- Blanks in front of a text do not change its pieces, once the pieces have lost theirs. -/
theorem map_trim_pieces_append {s : Text} (hs : AllBlank s) (t : Text) :
    (pieces none (s ++ t)).map trim = (pieces none t).map trim := by
  induction s with
  | nil => rfl
  | cons c s ih =>
    obtain ⟨hc, hs⟩ := allBlank_cons.1 hs
    rw [List.cons_append, map_trim_pieces_cons hc, ih hs]

/-- The sentences behind a period and at least one blank are those of what stands there. -/
theorem sentences_append {line body : Text} (hline : line = body ++ ['.'])
    (hbody : openLiteral body = none) {gap : Text} (hne : gap ≠ []) (hgap : AllBlank gap)
    (next : Text) : sentences (line ++ (gap ++ next)) = sentences line ++ sentences next := by
  obtain ⟨c, more, rfl⟩ := List.exists_cons_of_ne_nil hne
  have hpieces : pieces none (body ++ '.' :: c :: (more ++ next)) = _ :=
    pieces_append hbody (allBlank_cons.1 hgap).1 (more ++ next)
  have hparts : line ++ (c :: more ++ next) = body ++ '.' :: c :: (more ++ next) := by
    rw [hline, List.append_assoc]
    rfl
  rw [sentences, hparts, hpieces, List.map_append, ← List.cons_append,
    map_trim_pieces_append hgap, List.filter_append, ← hline]
  rfl

/-- **The sentences of a joined line** are those of the two lines. -/
theorem sentences_joined {line body : Text} (hline : line = body ++ ['.'])
    (hbody : openLiteral body = none) (next : Text) :
    sentences (joined line next) = sentences line ++ sentences next :=
  sentences_append hline hbody (List.cons_ne_nil ' ' []) (by decide) next

/-! ### Comments -/

/-- A line has no comment if no `*>` of it stands outside literals. -/
theorem beforeComment?_eq_none_iff {open? : Option Char} {t : Text} :
    beforeComment? open? t = none ↔
      ∀ s u, t = s ++ '*' :: '>' :: u → s.foldl literalAfter open? ≠ none := by
  induction t generalizing open? with
  | nil => simp [beforeComment?]
  | cons c rest ih =>
    rw [beforeComment?]
    split
    · rename_i hcomment
      -- a comment starts here
      simp only [Bool.and_eq_true, Option.isNone_iff_eq_none, beq_iff_eq] at hcomment
      obtain ⟨⟨rfl, rfl⟩, hhead⟩ := hcomment
      obtain ⟨u, rfl⟩ : ∃ u, rest = '>' :: u := by
        cases rest with
        | nil => cases hhead
        | cons d u => exact ⟨u, by rw [Option.some.inj hhead]⟩
      simp only [reduceCtorEq, false_iff]
      exact fun h ↦ h [] u rfl rfl
    · rename_i hcomment
      rw [Option.map_eq_none_iff, ih]
      constructor
      · intro h s u hsplit
        cases s with
        | nil =>
          obtain ⟨rfl, rfl⟩ := List.cons.inj hsplit
          simpa using hcomment
        | cons a s =>
          obtain ⟨rfl, hrest⟩ := List.cons.inj hsplit
          exact h s u hrest
      · intro h s u hsplit
        exact h (c :: s) u (by rw [hsplit]; rfl)

/-- A text without a comment has none in any beginning of it. -/
theorem beforeComment?_mono {open? : Option Char} {s t : Text} (hs : s <+: t)
    (h : beforeComment? open? t = none) : beforeComment? open? s = none := by
  obtain ⟨v, rfl⟩ := hs
  rw [beforeComment?_eq_none_iff] at h ⊢
  intro a u hsplit
  exact h a (u ++ v) (by rw [hsplit]; simp)

/-- A text without a comment has none when the blanks in front of it are gone. -/
theorem beforeComment?_trimLeft {t : Text} (h : beforeComment? none t = none) :
    beforeComment? none (trimLeft t) = none := by
  rw [beforeComment?_eq_none_iff] at h ⊢
  intro s u hsplit
  have hblank : openLiteral (t.takeWhile isBlank) = none :=
    openLiteral_of_allBlank fun c hc ↦ List.mem_takeWhile_imp hc
  have hwhole := h (t.takeWhile isBlank ++ s) u (by
    rw [List.append_assoc, ← hsplit]
    exact List.takeWhile_append_dropWhile.symm)
  rw [List.foldl_append] at hwhole
  rwa [show (t.takeWhile isBlank).foldl literalAfter none = none from hblank] at hwhole

/-- The comment of a line in two parts is that of the first part, else that of the second. -/
theorem beforeComment?_append {s t : Text} (h : s.getLast? = some '*' → t.head? ≠ some '>')
    (open? : Option Char) :
    beforeComment? open? (s ++ t) =
      (beforeComment? open? s).or
        ((beforeComment? (s.foldl literalAfter open?) t).map (s ++ ·)) := by
  induction s generalizing open? with
  | nil => simp [beforeComment?]
  | cons c rest ih =>
    have hrest : rest.getLast? = some '*' → t.head? ≠ some '>' := fun hlast ↦
      h (by rw [List.getLast?_cons, hlast]; rfl)
    -- the next character is the same, or a `*` at the end of the first part has no `>` behind it
    have hnext : (open?.isNone && c == '*' && (rest ++ t).head? == some '>') =
        (open?.isNone && c == '*' && rest.head? == some '>') := by
      cases rest with
      | cons d more => rfl
      | nil =>
        rw [Bool.eq_iff_iff]
        simp only [Bool.and_eq_true, beq_iff_eq, List.nil_append, List.head?_nil, reduceCtorEq,
          and_false, iff_false]
        rintro ⟨⟨-, rfl⟩, hhead⟩
        exact h rfl hhead
    rw [List.cons_append, beforeComment?, beforeComment?, hnext]
    split
    · rfl
    · rw [ih hrest, Option.map_or, Option.map_map, List.foldl_cons]
      rfl

/-- There is no comment in blanks. -/
theorem beforeComment?_of_allBlank {t : Text} (h : AllBlank t) (open? : Option Char) :
    beforeComment? open? t = none := by
  rw [beforeComment?_eq_none_iff]
  rintro s u rfl
  have hstar := h '*' (by simp)
  exact absurd hstar (by decide)

/-- What stands before a comment is a part of the line without a comment. -/
theorem beforeComment?_of_eq_some {open? : Option Char} {t s : Text}
    (h : beforeComment? open? t = some s) : s <+: t ∧ beforeComment? open? s = none := by
  induction t generalizing open? s with
  | nil => cases h
  | cons c rest ih =>
    rw [beforeComment?] at h
    split at h
    · cases h
      exact ⟨List.nil_prefix, rfl⟩
    · rename_i hcomment
      obtain ⟨before, hbefore, rfl⟩ := Option.map_eq_some_iff.1 h
      obtain ⟨hpre, hnone⟩ := ih hbefore
      refine ⟨(List.prefix_cons_inj c).2 hpre, ?_⟩
      have hhead : ¬(open?.isNone && c == '*' && before.head? == some '>') = true := by
        intro hstart
        refine hcomment ?_
        simp only [Bool.and_eq_true, beq_iff_eq] at hstart ⊢
        obtain ⟨u, rfl⟩ := hpre
        cases before with
        | nil => cases hstart.2
        | cons d before => exact hstart
      rw [beforeComment?, if_neg hhead, hnone]
      rfl

/-! ### Contents -/

/-- The line is its own content, and has one. -/
structure IsContent (line : Text) : Prop where
  /-- There is something on the line. -/
  ne_nil : line ≠ []
  /-- It has no blanks around it. -/
  trim_eq : trim line = line
  /-- It is no comment. -/
  not_comment : line.head? ≠ some '*'
  /-- It has no comment on it. -/
  no_comment : beforeComment? none line = none

/-- A content begins with no blank. -/
theorem IsContent.trimLeft_eq {line : Text} (h : IsContent line) : trimLeft line = line := by
  rw [← h.trim_eq, trimLeft_trim]

/-- A content ends in no blank. -/
theorem IsContent.trimRight_eq {line : Text} (h : IsContent line) : trimRight line = line := by
  have htrim := h.trim_eq
  rwa [trim, trimLeft_trimRight, h.trimLeft_eq] at htrim

/-- A content is not blank. -/
theorem IsContent.not_allBlank {line : Text} (h : IsContent line) : ¬AllBlank line := fun hblank ↦
  h.ne_nil (by rw [← h.trim_eq, trim_eq_nil_iff.2 hblank])

/-- A content is its own content. -/
theorem IsContent.content_eq {line : Text} (h : IsContent line) : content line = line := by
  have hcomment : isComment line = false := by
    rw [isComment, h.trimLeft_eq]
    simpa using h.not_comment
  rw [content, hcomment, dropComment, h.no_comment]
  exact h.trim_eq

/-- **What is left of a line is a content**, unless nothing is left. -/
theorem isContent_content {line : Text} (hne : content line ≠ []) : IsContent (content line) := by
  have hcomment : ¬isComment line = true := fun hcomment ↦ hne (by rw [content, if_pos hcomment])
  have hcontent : content line = trim (dropComment line) := by rw [content, if_neg hcomment]
  obtain ⟨hstart, hnone⟩ : dropComment line <+: line ∧
      beforeComment? none (dropComment line) = none := by
    unfold dropComment
    split
    · rename_i before hbefore
      obtain ⟨hstart, hnone⟩ := beforeComment?_of_eq_some hbefore
      have htrim : trimRight before <+: before := List.rdropWhile_prefix _ _
      exact ⟨htrim.trans hstart, beforeComment?_mono htrim hnone⟩
    · exact ⟨List.prefix_refl _, ‹_›⟩
  rw [hcontent] at hne ⊢
  refine ⟨hne, trim_trim _, ?_, ?_⟩
  · -- the first character of the content is the first of the line that is not blank
    have hblank : ¬AllBlank (dropComment line) := fun h ↦ hne (trim_eq_nil_iff.2 h)
    obtain ⟨rest, hrest⟩ := hstart
    have hline : trimLeft line = trimLeft (dropComment line) ++ rest := by
      rw [← trimLeft_append_of_not_allBlank hblank, hrest]
    have htrim : trim (dropComment line) <+: trimLeft (dropComment line) := by
      rw [trim, trimLeft_trimRight]
      exact List.rdropWhile_prefix _ _
    intro hstar
    refine hcomment ?_
    rw [isComment, hline, beq_iff_eq]
    obtain ⟨more, hmore⟩ := htrim
    cases hhead : trim (dropComment line) with
    | nil => exact absurd hhead hne
    | cons c after =>
      rw [hhead] at hstar hmore
      rw [← hmore]
      exact hstar
  · have htrim : trimRight (dropComment line) <+: dropComment line := List.rdropWhile_prefix _ _
    exact beforeComment?_trimLeft (beforeComment?_mono htrim hnone)

/-- Normalised lines are contents. -/
theorem isContent_of_mem_normalize {lines : List Text} {line : Text}
    (h : line ∈ normalize lines) : IsContent line := by
  obtain ⟨hmem, hne⟩ := List.mem_filter.1 h
  obtain ⟨source, -, rfl⟩ := List.mem_map.1 hmem
  exact isContent_content (by simpa using hne)

/-- Lines that are their own contents are left as they are. -/
theorem normalize_eq_self {lines : List Text} (h : ∀ line ∈ lines, IsContent line) :
    normalize lines = lines := by
  have hcontent : lines.map content = lines := by
    conv_rhs => rw [← List.map_id lines]
    exact List.map_congr_left fun line hline ↦ (h line hline).content_eq
  rw [normalize, hcontent, List.filter_eq_self]
  intro line hline
  simpa using (h line hline).ne_nil

/-- **A joined line is its own content** if the two lines are. -/
theorem IsContent.joined {line next body : Text} (hline : IsContent line) (hnext : IsContent next)
    (hend : line = body ++ ['.']) (hbody : openLiteral body = none) :
    IsContent (joined line next) := by
  have hopen : openLiteral (line ++ [' ']) = none := by
    rw [hend, List.append_assoc, openLiteral_append_of_none hbody]
    rfl
  have happend : Sentence.joined line next = (line ++ [' ']) ++ next := by
    rw [List.append_assoc]
    rfl
  refine ⟨by simp [Sentence.joined, hline.ne_nil], ?_, ?_, ?_⟩
  · rw [happend, trim, trimRight_append_of_not_allBlank _ hnext.not_allBlank, hnext.trimRight_eq,
      List.append_assoc, trimLeft_append_of_not_allBlank hline.not_allBlank, hline.trimLeft_eq]
  · intro hstar
    refine hline.not_comment ?_
    cases line with
    | nil => exact absurd rfl hline.ne_nil
    | cons c rest => exact hstar
  · have hblank : line.getLast? = some '*' → [' '].head? ≠ some '>' := fun _ ↦ by decide
    have hcut : (line ++ [' ']).getLast? = some '*' → next.head? ≠ some '>' := by
      rw [List.getLast?_concat]
      exact fun hblank ↦ absurd hblank (by decide)
    have hfold : (line ++ [' ']).foldl literalAfter none = none := hopen
    rw [happend, beforeComment?_append hcut, beforeComment?_append hblank, hline.no_comment,
      beforeComment?_of_allBlank (by decide), hfold, hnext.no_comment]
    rfl

end Cobol.Sentence
