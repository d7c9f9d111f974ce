import Cobol.Proofs.Sentence

/-!
# Splitting a line into sentences

A line in which no sentence ends is one sentence, or none if it is blank. In any other line there is
a first place where a sentence ends, and the rest is split like a line of its own (`SplitsInto`).
So the splitter, which runs over the whole line once, is known by what it does up to there.

* `pieces_eq_singleton_iff` says when no sentence ends in a line, by the literals that are open at
  its periods alone. From it the blanks around such a line can go (`pieces_trim`).
* `SplitsInto.exists_whole`: a sentence is such a line without the blanks around it, so it is not
  split again.
* `SplitsInto.exists_period`: a sentence that is not the last one ends in a period, and no literal
  is open there for a scan that starts with the sentence. This is where the splitter and the test
  for the final period meet: the one has scanned the line from its start, the other starts anew.

## Shape decisions

* `SplitsInto` is an inductive relation with one rule for a line without an end of a sentence and
  one for a line with a first such end. The laws are inductions on it, with these two cases.
* The place where a sentence ends is a period outside literals with a blank or nothing behind it.
  Which literals are open is decided by a scan from the start of the line, and it is a result that a
  scan from the start of the sentence decides the same.
-/

namespace Cobol.Sentence

open Text

/-! ### Lines in which no sentence ends -/

/-- No sentence ends in a line if its periods with a blank behind them all stand in literals. -/
theorem pieces_eq_singleton_iff {open? : Option Char} {t : Text} :
    pieces open? t = [t] ↔
      ∀ s c u, t = s ++ '.' :: c :: u → isBlank c = true → s.foldl literalAfter open? ≠ none := by
  induction t generalizing open? with
  | nil => simp [pieces]
  | cons a rest ih =>
    rw [pieces]
    split
    · rename_i hcut
      -- a sentence ends here
      simp only [Bool.and_eq_true, Option.isNone_iff_eq_none, beq_iff_eq] at hcut
      obtain ⟨⟨rfl, rfl⟩, hhead⟩ := hcut
      cases rest with
      | nil => cases hhead
      | cons c u =>
        simp only [List.cons.injEq, reduceCtorEq, and_false, false_and, false_iff]
        exact fun h ↦ h [] c u rfl hhead rfl
    · rename_i hcut
      obtain ⟨first, more, hpieces⟩ := List.exists_cons_of_ne_nil
        (pieces_ne_nil (literalAfter open? a) rest)
      have hrest : (pieces (literalAfter open? a) rest).modifyHead (a :: ·) = [a :: rest] ↔
          pieces (literalAfter open? a) rest = [rest] := by
        rw [hpieces]
        simp
      rw [hrest, ih]
      constructor
      · intro h s c u hsplit hc
        cases s with
        | nil =>
          obtain ⟨rfl, rfl⟩ := List.cons.inj hsplit
          simpa [hc] using hcut
        | cons b s =>
          obtain ⟨rfl, hafter⟩ := List.cons.inj hsplit
          exact h s c u hafter hc
      · intro h s c u hsplit hc
        exact h (a :: s) c u (by rw [hsplit]; rfl) hc

/-- A line in which no sentence ends is one piece, with the blanks around it or without them. -/
theorem pieces_trim {t : Text} (h : pieces none t = [t]) : pieces none (trim t) = [trim t] := by
  obtain ⟨lead, trail, hlead, -, ht⟩ := exists_blanks_trim t
  have hopen : lead.foldl literalAfter none = none := openLiteral_of_allBlank hlead
  rw [pieces_eq_singleton_iff] at h ⊢
  intro s c u hsplit hc
  have hwhole := h (lead ++ s) c (u ++ trail) (by rw [ht, hsplit]; simp) hc
  rwa [List.foldl_append, hopen] at hwhole

/-- A line in which no sentence ends is one sentence without the blanks around it, or none if it is
blank. -/
theorem sentences_of_whole {t : Text} (h : pieces none t = [t]) :
    sentences t = lineOf (trim t) := by
  rw [sentences, h, List.map_singleton, lineOf]
  cases trim t <;> rfl

/-- No sentence ends in a line, or there is a first one that does. -/
theorem whole_or_cut (open? : Option Char) (t : Text) :
    pieces open? t = [t] ∨
      ∃ body c rest, t = body ++ '.' :: c :: rest ∧ isBlank c = true ∧
        body.foldl literalAfter open? = none ∧
        pieces open? (body ++ ['.']) = [body ++ ['.']] := by
  induction t generalizing open? with
  | nil => exact Or.inl rfl
  | cons a t ih =>
    by_cases hcut : (open?.isNone && a == '.' && t.head?.any isBlank) = true
    · simp only [Bool.and_eq_true, Option.isNone_iff_eq_none, beq_iff_eq] at hcut
      obtain ⟨⟨rfl, rfl⟩, hhead⟩ := hcut
      cases t with
      | nil => cases hhead
      | cons c rest => exact Or.inr ⟨[], c, rest, rfl, hhead, rfl, rfl⟩
    · rcases ih (literalAfter open? a) with hwhole | ⟨body, c, rest, rfl, hc, hclosed, hwhole⟩
      · left
        rw [pieces, if_neg hcut, hwhole]
        rfl
      · have hhead : (body ++ ['.']).head? = (body ++ '.' :: c :: rest).head? := by
          cases body <;> rfl
        refine Or.inr ⟨a :: body, c, rest, rfl, hc, hclosed, ?_⟩
        rw [List.cons_append, pieces, hhead, if_neg hcut, hwhole]
        rfl

/-! ### Sentence by sentence -/

/-- A line and its sentences, from the first sentence on. -/
inductive SplitsInto : Text → List Text → Prop
  /-- No sentence ends in the line. -/
  | last {t : Text} (hwhole : pieces none t = [t]) : SplitsInto t (lineOf (trim t))
  /-- A sentence ends for the first time, and the line goes on behind a blank. -/
  | next {body rest : Text} {c : Char} {more : List Text} (hclosed : openLiteral body = none)
      (hwhole : pieces none (body ++ ['.']) = [body ++ ['.']]) (hc : isBlank c = true)
      (hmore : SplitsInto rest more) :
      SplitsInto (body ++ '.' :: c :: rest) (trim (body ++ ['.']) :: more)

/-- A period at the end keeps the blanks in front of it. -/
theorem trim_period (body : Text) : trim (body ++ ['.']) = trimLeft body ++ ['.'] := by
  have hlast : trimRight (body ++ ['.']) = body ++ ['.'] :=
    trimRight_of_getLast? List.getLast?_concat (by decide)
  rw [trim, hlast]
  by_cases hbody : AllBlank body
  · rw [trimLeft_append_of_allBlank hbody, trimLeft_eq_nil_iff.2 hbody]
    rfl
  · exact trimLeft_append_of_not_allBlank hbody ['.']

/-- **The splitter splits sentence by sentence.** It runs over a line once, and at each end of a
sentence it is where it would be at the start of the rest. -/
theorem splitsInto_sentences (line : Text) : SplitsInto line (sentences line) := by
  rcases whole_or_cut none line with hwhole | ⟨body, c, rest, rfl, hc, hclosed, hwhole⟩
  · rw [sentences_of_whole hwhole]
    exact .last hwhole
  · have hparts : body ++ '.' :: c :: rest = (body ++ ['.']) ++ ([c] ++ rest) := by simp
    have hfirst : lineOf (trim (body ++ ['.'])) = [trim (body ++ ['.'])] := by
      rw [lineOf, trim_period, if_neg (by simp)]
    have hsplit : sentences (body ++ '.' :: c :: rest) =
        trim (body ++ ['.']) :: sentences rest := by
      rw [hparts, sentences_append rfl hclosed (List.cons_ne_nil c []) (by simpa [AllBlank]) rest,
        sentences_of_whole hwhole, hfirst]
      rfl
    rw [hsplit]
    exact .next hclosed hwhole hc (splitsInto_sentences rest)
termination_by line.length
decreasing_by
  subst_vars
  simp only [List.length_append, List.length_cons]
  omega

namespace SplitsInto

variable {line sentence : Text} {all : List Text}

/-- A sentence is a line in which no sentence ends, without the blanks around it. -/
theorem exists_whole (h : SplitsInto line all) (hmem : sentence ∈ all) :
    sentence ≠ [] ∧ ∃ t, pieces none t = [t] ∧ sentence = trim t := by
  induction h with
  | @last t hwhole =>
    rw [lineOf] at hmem
    split at hmem
    · exact absurd hmem List.not_mem_nil
    · rename_i hne
      rw [List.mem_singleton.1 hmem]
      exact ⟨by simpa using hne, t, hwhole, rfl⟩
  | @next body _ _ _ _ hwhole _ _ ih =>
    rcases List.mem_cons.1 hmem with rfl | hmem
    · exact ⟨by rw [trim_period]; simp, body ++ ['.'], hwhole, rfl⟩
    · exact ih hmem

/-- Every sentence but the last ends in a period outside its literals. -/
theorem exists_period (h : SplitsInto line all) (hmem : sentence ∈ all.dropLast) :
    ∃ body, sentence = body ++ ['.'] ∧ openLiteral body = none := by
  induction h with
  | @last t hwhole =>
    rw [lineOf] at hmem
    split at hmem <;> exact absurd hmem List.not_mem_nil
  | @next body _ _ more hclosed _ _ _ ih =>
    have hcases : sentence = trim (body ++ ['.']) ∨ sentence ∈ more.dropLast := by
      cases more with
      | nil => exact absurd hmem List.not_mem_nil
      | cons first more => exact List.mem_cons.1 hmem
    rcases hcases with rfl | hmem
    · -- the blanks in front of the sentence open no literal
      have hlead : AllBlank (body.takeWhile isBlank) := fun c hc ↦ List.mem_takeWhile_imp hc
      have hsplit : body = body.takeWhile isBlank ++ trimLeft body :=
        List.takeWhile_append_dropWhile.symm
      refine ⟨trimLeft body, trim_period body, ?_⟩
      rw [← openLiteral_append_of_none (openLiteral_of_allBlank hlead), ← hsplit, hclosed]
    · exact ih hmem

end SplitsInto

/-! ### The laws of the splitter -/

/-- Nothing but blanks is lost. -/
theorem filter_flatten_sentences (line : Text) :
    (sentences line).flatten.filter (fun c ↦ !isBlank c) = line.filter (fun c ↦ !isBlank c) := by
  have htrim : List.filter (fun c ↦ !isBlank c) ∘ trim = List.filter (fun c ↦ !isBlank c) :=
    funext fun t ↦ by rw [Function.comp, ← flatten_words, words_trim, flatten_words]
  calc (sentences line).flatten.filter (fun c ↦ !isBlank c)
      = ((pieces none line).map trim).flatten.filter (fun c ↦ !isBlank c) := by
        rw [sentences, List.flatten_filter_not_isEmpty]
    _ = ((pieces none line).map (List.filter fun c ↦ !isBlank c)).flatten := by
        rw [List.filter_flatten, List.map_map, htrim]
    _ = line.filter (fun c ↦ !isBlank c) := by
        rw [← List.filter_flatten, flatten_pieces]

/-- **Splitting is lossless and stable.** But for blanks the sentences are the line; each of them is
trimmed, holds something, and is its own only sentence; each but the last ends in a period that is
dropped as the final period of a statement; and behind a line that ends in a period outside literals
any other line is split as if it stood alone. -/
theorem sentences_lossless (line : Text) :
    (sentences line).flatten.filter (fun c ↦ !isBlank c) = line.filter (fun c ↦ !isBlank c) ∧
      (∀ s ∈ sentences line, s ≠ [] ∧ trim s = s ∧ sentences s = [s]) ∧
      (∀ s ∈ (sentences line).dropLast,
        ∃ body, s = body ++ ['.'] ∧ openLiteral body = none ∧ dropPeriod s = trimRight body) ∧
      ∀ body, line = body ++ ['.'] → openLiteral body = none → ∀ next,
        sentences (line ++ ' ' :: next) = sentences line ++ sentences next := by
  have hline := splitsInto_sentences line
  refine ⟨filter_flatten_sentences line, fun s hs ↦ ?_, fun s hs ↦ ?_,
    fun body hbody hclosed next ↦ sentences_joined hbody hclosed next⟩
  · obtain ⟨hne, t, hwhole, rfl⟩ := hline.exists_whole hs
    refine ⟨hne, trim_trim t, ?_⟩
    rw [sentences_of_whole (pieces_trim hwhole), trim_trim, lineOf, if_neg (by simpa using hne)]
  · obtain ⟨body, rfl, hclosed⟩ := hline.exists_period hs
    have hends : EndsIn (body ++ ['.']) body :=
      ⟨trimRight_of_getLast? List.getLast?_concat (by decide), hclosed⟩
    exact ⟨body, rfl, hclosed, dropPeriod_of_endsIn hends⟩

/-- A literal with the other quote and a period in it, two periods in a row, and a wide blank. -/
def crowdedLine : Text := "\tDISPLAY 'A. \"B' ..\u2003 STOP RUN.".toList

/-- A line with a period in a literal, several periods behind each other and an open literal at its
end. -/
theorem sentences_lossless_crowded :
    sentences crowdedLine = ["DISPLAY 'A. \"B' ..".toList, "STOP RUN.".toList] ∧
      sentences "DISPLAY 'A. \"B' ..".toList = ["DISPLAY 'A. \"B' ..".toList] ∧
      (∃ body, "DISPLAY 'A. \"B' ..".toList = body ++ ['.'] ∧ openLiteral body = none ∧
        dropPeriod "DISPLAY 'A. \"B' ..".toList = trimRight body) ∧
      sentences (crowdedLine ++ ' ' :: "DISPLAY 'C. ".toList) =
        ["DISPLAY 'A. \"B' ..".toList, "STOP RUN.".toList, "DISPLAY 'C.".toList] := by
  have hsplit : sentences crowdedLine = ["DISPLAY 'A. \"B' ..".toList, "STOP RUN.".toList] := by
    decide +kernel
  have hnext : sentences "DISPLAY 'C. ".toList = ["DISPLAY 'C.".toList] := by decide +kernel
  obtain ⟨-, hstable, hperiod, hjoined⟩ := sentences_lossless crowdedLine
  have hmem : "DISPLAY 'A. \"B' ..".toList ∈ sentences crowdedLine := by simp [hsplit]
  have hearly : "DISPLAY 'A. \"B' ..".toList ∈ (sentences crowdedLine).dropLast := by
    simp [hsplit]
  refine ⟨hsplit, (hstable _ hmem).2.2, hperiod _ hearly, ?_⟩
  rw [hjoined crowdedLine.dropLast (by decide +kernel) (by decide +kernel), hsplit, hnext]
  rfl

end Cobol.Sentence
