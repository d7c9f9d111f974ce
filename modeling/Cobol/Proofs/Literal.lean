import Cobol.Execution
import Cobol.Proofs.Sentence

/-!
# Quoted literals

A literal is a text between two quotes of a kind that it does not hold itself. Four scanners meet it
on the way from a line to an operand: the comment finder, the sentence splitter, the test for the
final period and the operand cutter. All of them take it for what it is, whatever it holds.

* `IsClear` and `IsPart` are what the scanners of a line need to know of a piece of it: they pass
  over it, and they are where they were before. Both are closed under appending, so a line is
  scanned piece by piece.
* `Sentence.sentences_spread`: a line of sentences, each a piece with its period, is cut into them.
* `Literal.isPart_written`: a literal is such a piece.
* `Literal.firstOperand_written` and `Literal.operandValue_written`: as an operand it ends with its
  own quote and stands for its text.

## Shape decisions

* A scanner is characterised by its state behind a piece. For a literal that state is the one in
  front of it, so the proofs about a line never look into the literal.
* The condition on a literal is that its text does not hold its own quote. The other quote, periods
  and markers of comments are what it is there for.
* Blanks between sentences are given with the sentence that follows them (`Gap`), so a line without
  margins has one way to be written.
-/

namespace Cobol

open Text

/-! ### Pieces of a line -/

namespace Sentence

/-- A piece of a line that leaves no literal open and has no comment in it, nor the start of one at
its end. -/
structure IsClear (t : Text) : Prop where
  /-- No literal is left open. -/
  closed : openLiteral t = none
  /-- There is no comment. -/
  no_comment : beforeComment? none t = none
  /-- No comment starts at the end. -/
  last_ne_star : t.getLast? ≠ some '*'

/-- A piece of a sentence: no sentence ends in it, and none at its end. -/
structure IsPart (t : Text) : Prop extends IsClear t where
  /-- No sentence ends inside. -/
  whole : pieces none t = [t]
  /-- No sentence ends at the end. -/
  last_ne_period : t.getLast? ≠ some '.'

theorem getLast?_append_ne {s t : Text} {c : Char} (hs : s.getLast? ≠ some c)
    (ht : t.getLast? ≠ some c) : (s ++ t).getLast? ≠ some c := by
  rw [List.getLast?_append]
  cases h : t.getLast? with
  | none => simpa using hs
  | some d =>
    rw [h] at ht
    exact ht

/-- Clear pieces behind each other are clear. -/
theorem IsClear.append {s t : Text} (hs : IsClear s) (ht : IsClear t) : IsClear (s ++ t) where
  closed := by rw [openLiteral_append_of_none hs.closed, ht.closed]
  no_comment := by
    have hfold : s.foldl literalAfter none = none := hs.closed
    rw [beforeComment?_append fun hstar ↦ absurd hstar hs.last_ne_star, hs.no_comment, hfold,
      ht.no_comment]
    rfl
  last_ne_star := getLast?_append_ne hs.last_ne_star ht.last_ne_star

/-- Behind a piece in which no sentence ends, the line is cut as it would be without it. -/
theorem pieces_append_of_whole {s t : Text} {open? : Option Char} (hs : pieces open? s = [s])
    (hlast : s.getLast? ≠ some '.') :
    pieces open? (s ++ t) = (pieces (s.foldl literalAfter open?) t).modifyHead (s ++ ·) := by
  induction s generalizing open? with
  | nil =>
    obtain ⟨first, more, h⟩ := List.exists_cons_of_ne_nil (pieces_ne_nil open? t)
    rw [List.nil_append, List.foldl_nil, h]
    rfl
  | cons c rest ih =>
    rw [pieces] at hs
    split at hs
    · -- a cut behind the first character would leave two pieces
      obtain ⟨first, more, h⟩ := List.exists_cons_of_ne_nil (pieces_ne_nil none rest)
      rw [h] at hs
      simp at hs
    · rename_i hcut
      have hrest : pieces (literalAfter open? c) rest = [rest] := by
        obtain ⟨first, more, h⟩ :=
          List.exists_cons_of_ne_nil (pieces_ne_nil (literalAfter open? c) rest)
        rw [h] at hs ⊢
        simpa using hs
      have hlastRest : rest.getLast? ≠ some '.' := fun h ↦
        hlast (by rw [List.getLast?_cons, h]; rfl)
      have hnext : ¬(open?.isNone && c == '.' && (rest ++ t).head?.any isBlank) = true := by
        cases rest with
        | cons d more => exact hcut
        | nil =>
          have hc : c ≠ '.' := fun hc ↦ hlast (by rw [hc]; rfl)
          simp [hc]
      rw [List.cons_append, pieces, if_neg hnext, ih hrest hlastRest, List.modifyHead_modifyHead]
      rfl

/-- Parts of a sentence behind each other are a part of one. -/
theorem IsPart.append {s t : Text} (hs : IsPart s) (ht : IsPart t) : IsPart (s ++ t) where
  toIsClear := hs.toIsClear.append ht.toIsClear
  whole := by
    have hfold : s.foldl literalAfter none = none := hs.closed
    rw [pieces_append_of_whole hs.whole hs.last_ne_period, hfold, ht.whole]
    rfl
  last_ne_period := getLast?_append_ne hs.last_ne_period ht.last_ne_period

/-- Nothing is a part of a sentence. -/
theorem IsPart.nil : IsPart [] :=
  ⟨⟨rfl, rfl, nofun⟩, rfl, nofun⟩

/-- Any number of parts behind each other are a part. -/
theorem IsPart.flatMap {α : Type} {f : α → Text} {xs : List α} (h : ∀ x ∈ xs, IsPart (f x)) :
    IsPart (xs.flatMap f) := by
  induction xs with
  | nil => exact .nil
  | cons x xs ih =>
    obtain ⟨hx, hxs⟩ := List.forall_mem_cons.1 h
    rw [List.flatMap_cons]
    exact hx.append (ih hxs)

/-- Blanks are one piece: no sentence ends in them. -/
theorem pieces_of_allBlank {t : Text} (h : AllBlank t) : pieces none t = [t] := by
  induction t with
  | nil => rfl
  | cons c t ih =>
    obtain ⟨hc, ht⟩ := allBlank_cons.1 h
    have hdot : c ≠ '.' := ne_of_isBlank hc (by decide)
    have hliteral : literalAfter none c = none := by simp [literalAfter, isQuote_of_isBlank hc]
    rw [pieces, if_neg (by simp [hdot]), hliteral, ih ht]
    rfl

/-- Blanks are a part of a sentence. -/
theorem isPart_of_allBlank {t : Text} (h : AllBlank t) : IsPart t := by
  have hlast {c : Char} (hc : isBlank c = false) : t.getLast? ≠ some c := fun hmem ↦ by
    rw [h c (List.mem_of_getLast? hmem)] at hc
    cases hc
  exact ⟨⟨openLiteral_of_allBlank h, beforeComment?_of_allBlank h none, hlast (by decide)⟩,
    pieces_of_allBlank h, hlast (by decide)⟩

/-- A text without quotes, stars and periods is a piece. -/
theorem isPart_of_forall {t : Text} (h : ∀ c ∈ t, isQuote c = false ∧ c ≠ '*' ∧ c ≠ '.') :
    IsPart t := by
  have hone : ∀ c ∈ t, IsPart [c] := fun c hc ↦ by
    obtain ⟨hquote, hstar, hperiod⟩ := h c hc
    refine ⟨⟨?_, ?_, by simpa using hstar⟩, ?_, by simpa using hperiod⟩
    · simp [openLiteral, literalAfter, hquote]
    · simp [beforeComment?]
    · simp [pieces]
  rw [← List.flatMap_singleton' t]
  exact .flatMap hone

/-- A piece is a sentence with the period behind it. -/
theorem IsPart.pieces_period {t : Text} (h : IsPart t) :
    pieces none (t ++ ['.']) = [t ++ ['.']] := by
  have hfold : t.foldl literalAfter none = none := h.closed
  rw [pieces_append_of_whole h.whole h.last_ne_period, hfold]
  rfl

/-- A part with its period is clear. -/
theorem IsPart.isClear_period {t : Text} (h : IsPart t) : IsClear (t ++ ['.']) :=
  h.toIsClear.append ⟨rfl, rfl, by decide⟩

end Sentence

/-! ### Sentences on a line -/

/-- Blanks, if any. -/
abbrev Blanks := { t : Text // AllBlank t }

/-- At least one blank. -/
abbrev Gap := { t : Text // t ≠ [] ∧ AllBlank t }

namespace Sentence

/-- A piece with a period behind it and no blanks around. -/
structure IsSentence (t : Text) : Prop where
  /-- The piece. -/
  isPart : ∃ body, t = body ++ ['.'] ∧ IsPart body
  /-- There are no blanks around it. -/
  trim_eq : trim t = t

/-- Sentences with blanks between them. -/
def spread (first : Text) (more : List (Gap × Text)) : Text :=
  first ++ more.flatMap fun e ↦ e.1.1 ++ e.2

theorem spread_cons (first : Text) (gap : Gap) (next : Text) (more : List (Gap × Text)) :
    spread first ((gap, next) :: more) = first ++ (gap.1 ++ spread next more) := by
  rw [spread, List.flatMap_cons, List.append_assoc]
  rfl

/-- A sentence alone on its line is its only sentence. -/
theorem IsSentence.sentences_eq {t : Text} (h : IsSentence t) : sentences t = [t] := by
  obtain ⟨body, rfl, hbody⟩ := h.isPart
  rw [sentences, hbody.pieces_period, List.map_singleton, h.trim_eq,
    List.filter_eq_self.2 (by simp)]

/-- The sentences of a line are those that were written on it. -/
theorem sentences_spread {first : Text} {more : List (Gap × Text)} (hfirst : IsSentence first)
    (hmore : ∀ e ∈ more, IsSentence e.2) :
    sentences (spread first more) = first :: more.map (·.2) := by
  induction more generalizing first with
  | nil => rw [spread, List.flatMap_nil, List.append_nil, hfirst.sentences_eq, List.map_nil]
  | cons e rest ih =>
    obtain ⟨gap, next⟩ := e
    obtain ⟨hnext, hrest⟩ := List.forall_mem_cons.1 hmore
    obtain ⟨body, hbody, hpart⟩ := hfirst.isPart
    rw [spread_cons, sentences_append hbody hpart.closed gap.2.1 gap.2.2, ih hnext hrest,
      hfirst.sentences_eq]
    rfl

/-- Sentences spread over a line are clear, and the last character is a period. -/
theorem isClear_spread {first : Text} {more : List (Gap × Text)} (hfirst : IsSentence first)
    (hmore : ∀ e ∈ more, IsSentence e.2) :
    IsClear (spread first more) ∧ (spread first more).getLast? = some '.' := by
  obtain ⟨body, hbody, hpart⟩ := hfirst.isPart
  induction more generalizing first body with
  | nil =>
    rw [spread, List.flatMap_nil, List.append_nil, hbody]
    exact ⟨hpart.isClear_period, List.getLast?_concat⟩
  | cons e rest ih =>
    obtain ⟨gap, next⟩ := e
    obtain ⟨hnext, hrest⟩ := List.forall_mem_cons.1 hmore
    obtain ⟨nextBody, hnextBody, hnextPart⟩ := hnext.isPart
    obtain ⟨hclear, hlast⟩ := ih hnext hrest nextBody hnextBody hnextPart
    rw [spread_cons]
    refine ⟨(hbody ▸ hpart.isClear_period).append
      ((isPart_of_allBlank gap.2.2).toIsClear.append hclear), ?_⟩
    rw [← List.append_assoc, List.getLast?_append, hlast]
    rfl

/-- A line of sentences is its own content, unless it starts like a comment. -/
theorem isContent_spread {first : Text} {more : List (Gap × Text)} (hfirst : IsSentence first)
    (hmore : ∀ e ∈ more, IsSentence e.2) {c : Char} (hhead : (spread first more).head? = some c)
    (hblank : isBlank c = false) (hstar : c ≠ '*') : IsContent (spread first more) := by
  obtain ⟨hclear, hlast⟩ := isClear_spread hfirst hmore
  refine ⟨?_, trim_eq_self hhead hblank hlast (by decide), ?_, hclear.no_comment⟩
  · rintro hnil
    rw [hnil] at hhead
    cases hhead
  · rw [hhead]
    simpa using hstar

end Sentence

/-! ### Literals -/

/-- A text between two quotes of a kind that it does not hold. -/
structure Literal where
  /-- The quote. -/
  quote : Char
  /-- The text. -/
  text : Text
  /-- The quote is one. -/
  isQuote_quote : isQuote quote = true
  /-- The text does not hold the quote. -/
  quote_not_mem : quote ∉ text

theorem Text.isQuote_apostrophe : isQuote '\'' = true := rfl

namespace Literal

/-- The literal as it is written. -/
def written (l : Literal) : Text :=
  l.quote :: (l.text ++ [l.quote])

/-- The quote of a literal is one of the two kinds. -/
theorem quote_eq (l : Literal) : l.quote = '\'' ∨ l.quote = '"' := by
  simpa [isQuote] using l.isQuote_quote

theorem quote_ne (l : Literal) {c : Char} (hc : isQuote c = false) : l.quote ≠ c := fun heq ↦ by
  rw [← heq, l.isQuote_quote] at hc
  cases hc

theorem isBlank_quote (l : Literal) : isBlank l.quote = false := by
  rcases l.quote_eq with h | h <;> rw [h] <;> decide

theorem getLast?_written (l : Literal) : l.written.getLast? = some l.quote := by
  rw [written, ← List.cons_append, List.getLast?_concat]

/-- Its quote opens a literal. -/
theorem literalAfter_quote (l : Literal) :
    Sentence.literalAfter none l.quote = some l.quote := by
  rw [Sentence.literalAfter, if_pos l.isQuote_quote]

/-- Inside a literal neither a comment nor the end of a sentence is seen. -/
theorem scans_open {q : Char} {t : Text} (h : q ∉ t) :
    Sentence.beforeComment? (some q) (t ++ [q]) = none ∧
      Sentence.pieces (some q) (t ++ [q]) = [t ++ [q]] := by
  induction t with
  | nil => exact ⟨rfl, rfl⟩
  | cons c t ih =>
    obtain ⟨hc, ht⟩ := not_or.1 (mt List.mem_cons.2 h)
    obtain ⟨hcomment, hpieces⟩ := ih ht
    have hopen : Sentence.literalAfter (some q) c = some q := if_neg (by simpa using Ne.symm hc)
    constructor
    · rw [List.cons_append, Sentence.beforeComment?, if_neg (by simp), hopen, hcomment]
      rfl
    · rw [List.cons_append, Sentence.pieces, if_neg (by simp), hopen, hpieces]
      rfl

/-- **The scanners of a line pass over a literal**, whatever it holds. -/
theorem isPart_written (l : Literal) : Sentence.IsPart l.written := by
  have hstar : l.quote ≠ '*' := l.quote_ne (by decide)
  have hperiod : l.quote ≠ '.' := l.quote_ne (by decide)
  obtain ⟨hcomment, hpieces⟩ := scans_open l.quote_not_mem
  refine ⟨⟨?_, ?_, ?_⟩, ?_, ?_⟩
  · rw [Sentence.openLiteral, written, List.foldl_cons, literalAfter_quote, List.foldl_append,
      Sentence.foldl_literalAfter_some l.quote_not_mem]
    exact if_pos (by simp)
  · rw [written, Sentence.beforeComment?, if_neg (by simp [hstar]), literalAfter_quote, hcomment]
    rfl
  · rw [getLast?_written]
    simpa using hstar
  · rw [written, Sentence.pieces, if_neg (by simp [hperiod]), literalAfter_quote, hpieces]
    rfl
  · rw [getLast?_written]
    simpa using hperiod

/-! ### Literals as operands -/

/-- A written literal is quoted. -/
theorem isQuoted_written (l : Literal) : isQuoted l.written = true := by
  cases htext : l.text with
  | nil => simp [written, htext, isQuoted, l.isQuote_quote]
  | cons c rest =>
    rw [written, htext, List.cons_append]
    simp only [isQuoted, l.isQuote_quote, Bool.true_and, beq_iff_eq]
    rw [← List.cons_append, List.getLast?_concat]

/-- Without its quotes a written literal is its text. -/
theorem unquote_written (l : Literal) : unquote l.written = l.text :=
  List.dropLast_concat

/-- A literal ends with its own quote. -/
theorem firstOperand_written (l : Literal) (t : Text) :
    firstOperand (l.written ++ t) = (l.written, t) := by
  have hcut : cutAt? l.quote (l.text ++ [l.quote] ++ t) = some (l.text, t) :=
    cutAt?_eq_some_iff.2 ⟨by rw [List.append_assoc]; rfl, l.quote_not_mem⟩
  rw [written, List.cons_append, firstOperand, if_pos l.isQuote_quote, hcut]
  rfl

/-- A text that starts with a quote is no integer literal. -/
theorem isLiteral_cons_of_isQuote {q : Char} (hq : isQuote q = true) (t : Text) :
    Numeral.isLiteral (q :: t) = false := by
  have hcases : q = '\'' ∨ q = '"' := by simpa [isQuote] using hq
  obtain ⟨rest, hrest⟩ : ∃ rest, Numeral.dropFinalNewline (q :: t) = q :: rest := by
    rw [Numeral.dropFinalNewline]
    split
    · cases t with
      | nil => rcases hcases with rfl | rfl <;> rename_i hlast <;> exact absurd hlast (by decide)
      | cons c t => exact ⟨_, rfl⟩
    · exact ⟨t, rfl⟩
  rw [Numeral.isLiteral, hrest]
  rcases hcases with rfl | rfl <;> simp [Numeral.isDigits, isDecimal, decimalValue?]

/-- A literal stands for its text. -/
theorem operandValue_written (l : Literal) (store : Store) :
    operandValue store l.written = .ok (.text l.text) := by
  rw [operandValue, if_pos l.isQuoted_written, unquote_written]

/-- A written literal is shown as its text, whatever the slots hold. -/
theorem displayed_written (l : Literal) (store : Store) :
    displayed store l.written = .ok l.text := by
  have hliteral : Numeral.isLiteral l.written = false :=
    isLiteral_cons_of_isQuote l.isQuote_quote _
  rw [displayed, hliteral, operandValue_written]
  rfl

end Literal

end Cobol
