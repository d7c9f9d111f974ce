import Cobol.Proofs.Block.Composition
import Cobol.Proofs.Conversion
import Cobol.Proofs.Literal
import Cobol.Proofs.ProgramLayout
import Mathlib.Algebra.Ring.Nat

/-!
# Declarations as they are written

A declaration is written as a level, a name, a picture and a value. It is read by searching: the
first place where a picture clause can be read makes a sentence a declaration, and the first place
behind it where a value clause can be read gives the value. What is written is found there and
nowhere before, whatever the name, the picture and the value hold.

* `Clause.search_append`: a clause is found behind a text in which none can be read.
* `Clause.picture?_word`: in a word in front of the keyword no picture clause can be read, also if
  the word ends in the keyword itself.
* `PictureText.parse_written`: a picture is read as its kind and its width.
* `WrittenDeclaration.ofSentence_written`: a declaration is read as it is written.

## Shape decisions

* What can be written carries its own well-formedness: a run of digits (`DigitRun`), a picture
  (`PictureText`), a value (`WrittenValue`), a declaration (`WrittenDeclaration`). The laws have no
  side conditions.
* A search is settled by two facts: the clause can be read here, and it can be read at no place
  before. The second is shown character by character, by what a clause has to begin with.
* The text behind a clause is kept general until a clause behind it has to be found.
-/

namespace Cobol

open Text

/-! ### Characters -/

/-- The characters of levels, names and pictures. -/
def isFormChar (c : Char) : Bool :=
  Program.isLabelChar c || c == '(' || c == ')'

/-- The characters of names and pictures are their own upper case, and none of the marks that cut a
line or a sentence. -/
theorem plain_of_isFormChar {c : Char} (h : isFormChar c = true) :
    upperChar c = [c] ∧ isBlank c = false ∧ c ≠ '.' ∧ c ≠ '*' ∧ isQuote c = false := by
  rw [isFormChar, Bool.or_eq_true, Bool.or_eq_true, beq_iff_eq, beq_iff_eq] at h
  rcases h with (h | rfl) | rfl
  · obtain ⟨hupper, hblank, hdot⟩ := plain_of_isLabelChar h
    refine ⟨hupper, hblank, hdot, ?_, ?_⟩
    · rintro rfl
      exact absurd h (by decide)
    · rw [← Bool.not_eq_true]
      intro hquote
      rcases (by simpa [isQuote] using hquote : c = '\'' ∨ c = '"') with rfl | rfl
      · exact absurd h (by decide)
      · exact absurd h (by decide)
  · decide +kernel
  · decide +kernel

theorem isLabelChar_of_isDigit {c : Char} (h : c.isDigit = true) :
    Program.isLabelChar c = true := by
  obtain ⟨hlow, hhigh⟩ := le_and_le_of_isDigit h
  simp [Program.isLabelChar, hlow, hhigh]

/-- The characters of labels can stand in names. -/
theorem isFormChar_of_isLabelChar {c : Char} (h : Program.isLabelChar c = true) :
    isFormChar c = true := by
  rw [isFormChar, h, Bool.true_or, Bool.true_or]

/-- A character that is its own upper case is no letter but itself. -/
theorem Text.sameLetter_of_isFormChar {capital c : Char} (h : isFormChar c = true)
    (hne : c ≠ capital) : sameLetter capital c = false := by
  have hupper : upperChar c = [c] := (plain_of_isFormChar h).1
  have hdotted : c ≠ '\u0130' := by
    rintro rfl
    exact absurd h (by decide)
  have hkelvin : c ≠ '\u212A' := by
    rintro rfl
    exact absurd h (by decide)
  simp [sameLetter, hupper, hne, hdotted, hkelvin]

/-- What is left behind a keyword is the end of the text. -/
theorem Text.suffix_of_dropKeyword? {word t rest : Text} (h : dropKeyword? word t = some rest) :
    rest <:+ t := by
  induction word generalizing t with
  | nil =>
    cases h
    exact List.suffix_refl _
  | cons w word ih =>
    cases t with
    | nil => cases h
    | cons c t =>
      rw [dropKeyword?] at h
      split at h
      · exact (ih h).trans (List.suffix_cons c t)
      · cases h

/-! ### Searching -/

namespace Clause

/-- The search goes on behind a text in which no clause can be read. -/
theorem search_append {α : Type} {clause? : Text → Option α} {skipped rest : Text}
    (h : ∀ v, v <:+ skipped → v ≠ [] → clause? (v ++ rest) = none) (previous? : Option Char) :
    search clause? previous? (skipped ++ rest) =
      (search clause? (skipped.getLast?.or previous?) rest).map fun found ↦
        (skipped ++ found.1, found.2) := by
  induction skipped generalizing previous? with
  | nil => simp
  | cons c skipped ih =>
    have hhere : clause? (c :: (skipped ++ rest)) = none :=
      h (c :: skipped) (List.suffix_refl _) (List.cons_ne_nil c skipped)
    have hlast : (c :: skipped).getLast?.or previous? = skipped.getLast?.or (some c) := by
      rw [List.getLast?_cons]
      cases skipped.getLast? <;> rfl
    rw [List.cons_append, search, hhere, ite_self, hlast,
      ih (fun v hv ↦ h v (hv.trans (List.suffix_cons c skipped))), Option.map_map]
    rfl

/-- The search ends where a clause can be read. -/
theorem search_of_eq_some {α : Type} {clause? : Text → Option α} {t : Text} {a : α}
    (hne : t ≠ []) {previous? : Option Char} (hstart : startsWord previous? = true)
    (h : clause? t = some a) : search clause? previous? t = some ([], a) := by
  obtain ⟨c, t, rfl⟩ := List.exists_cons_of_ne_nil hne
  rw [search, if_pos hstart, h]

/-- Without the word `IS` a clause begins behind the blank. -/
theorem afterIs?_space {t : Text} {c : Char} (hblank : isBlank c = false)
    (hletter : sameLetter 'I' c = false) : afterIs? (' ' :: c :: t) = some (c :: t) := by
  have htrim : trimLeft (' ' :: c :: t) = c :: t := by
    rw [trimLeft_cons_of_isBlank (by decide), trimLeft_cons_of_not hblank]
  have hkeyword : dropKeyword? "IS".toList (c :: t) = none := by
    show (if sameLetter 'I' c then _ else none) = none
    rw [hletter]
    rfl
  have hafter : afterBlanks? (' ' :: c :: t) = some (c :: t) := congrArg some htrim
  rw [afterIs?, hafter, Option.map_some, hkeyword]
  rfl

/-- No picture clause begins with another letter than `P`. -/
theorem picture?_cons {c : Char} (h : sameLetter 'P' c = false) (t : Text) :
    picture? (c :: t) = none := by
  have hkeyword : dropKeyword? "PIC".toList (c :: t) = none := by
    show (if sameLetter 'P' c then _ else none) = none
    rw [h]
    rfl
  rw [picture?, hkeyword]
  rfl

/-- No picture clause can be read in a word in front of the keyword. -/
theorem picture?_word {w : Text} (hw : ∀ c ∈ w, isFormChar c = true) (t : Text) :
    picture? (w ++ ' ' :: 'P' :: t) = none := by
  have hpic : ∀ k ∈ "PIC".toList, sameLetter k ' ' = false := by decide
  have hture : ∀ k ∈ "TURE".toList, sameLetter k ' ' = false := by decide
  rw [picture?, dropKeyword?_append hpic]
  cases hrest : dropKeyword? "PIC".toList w with
  | none => rfl
  | some rest =>
    -- what is left of the word behind the keyword, long or short
    obtain ⟨left, hleft, hchars⟩ : ∃ left,
        (dropKeyword? "TURE".toList (rest ++ ' ' :: 'P' :: t)).getD (rest ++ ' ' :: 'P' :: t) =
          left ++ ' ' :: 'P' :: t ∧ ∀ c ∈ left, isFormChar c = true := by
      have hsuffix := suffix_of_dropKeyword? hrest
      rw [dropKeyword?_append hture]
      cases hlong : dropKeyword? "TURE".toList rest with
      | none => exact ⟨rest, rfl, fun c hc ↦ hw c (hsuffix.mem hc)⟩
      | some left =>
        exact ⟨left, rfl, fun c hc ↦
          hw c (((suffix_of_dropKeyword? hlong).trans hsuffix).mem hc)⟩
    rw [Option.map_some, Option.bind_eq_bind, Option.bind_some, hleft]
    cases left with
    | nil =>
      rw [List.nil_append, afterIs?_space (by decide) (by decide)]
      rfl
    | cons c left =>
      have hc : isBlank c = false := (plain_of_isFormChar (hchars c List.mem_cons_self)).2.1
      have hafter : afterIs? (c :: left ++ ' ' :: 'P' :: t) = none := by
        rw [afterIs?, afterBlanks?, List.cons_append, if_neg (by simp [hc])]
        rfl
      rw [hafter]
      rfl

end Clause

/-! ### Pictures -/

/-- Decimal digits. -/
structure DigitRun where
  /-- The digits. -/
  text : Text
  /-- There is one. -/
  ne_nil : text ≠ []
  /-- They are digits. -/
  isDigit : ∀ c ∈ text, c.isDigit = true

namespace DigitRun

/-- The digits of a number can stand in pictures and names. -/
theorem isFormChar (d : DigitRun) : ∀ c ∈ d.text, isFormChar c = true := fun c hc ↦
  isFormChar_of_isLabelChar (isLabelChar_of_isDigit (d.isDigit c hc))

/-- The digits of a number have a place value. -/
theorem isDecimal (d : DigitRun) : ∀ c ∈ d.text, isDecimal c = true := fun c hc ↦ by
  rw [Text.isDecimal, decimalValue?_of_isDigit (d.isDigit c hc)]
  rfl

/-- Behind a sign, a run that is short enough is read as its number. -/
theorem read_sign (d : DigitRun) {sign : Text} (hsign : Expression.IsSign sign)
    (hshort : d.text.length ≤ digitLimit) :
    Numeral.read (sign ++ d.text) = .ok (Expression.numberValue sign d.text) :=
  Numeral.read_append_of_isDecimal hsign d.ne_nil d.isDecimal hshort

end DigitRun

namespace Picture

/-- A symbol without a count is one place wide. -/
theorem widthOf_of_none {c : Char} (hc : (c == '9' || c == 'X') = true) {t : Text}
    (h : repeatCount? t = none) : widthOf (c :: t) = (widthOf t).map (1 + ·) := by
  rw [widthOf, if_pos hc]
  split
  · rename_i hcount
    rw [h] at hcount
    cases hcount
  · cases widthOf t <;> rfl

/-- A symbol with a count is as wide as the count says. -/
theorem widthOf_of_some {c : Char} (hc : (c == '9' || c == 'X') = true) {t digits after : Text}
    (h : repeatCount? t = some (digits, after)) {n : Int} (hn : Numeral.read digits = .ok n) :
    widthOf (c :: t) = (widthOf after).map (n.toNat + ·) := by
  rw [widthOf, if_pos hc]
  split
  · rename_i hcount
    rw [h] at hcount
    cases hcount
    rw [hn]
    cases widthOf after <;> rfl
  · rename_i hcount
    rw [h] at hcount
    cases hcount

/-- A number in parentheses is a count. -/
theorem repeatCount?_digits (d : DigitRun) (t : Text) :
    repeatCount? ('(' :: (d.text ++ ')' :: t)) = some (d.text, t) := by
  obtain ⟨c, more, hd⟩ := List.exists_cons_of_ne_nil d.ne_nil
  have hstop : ∀ c ∈ (')' :: t).head?, isDecimal c = false := by
    rintro _ ⟨⟩
    decide
  obtain ⟨htake, hdrop⟩ := takeWhile_append_of_stop d.isDecimal hstop
  rw [repeatCount?, htake, hdrop, hd]
  rfl

end Picture

/-- A symbol of a picture with its repeat count. -/
structure PictureSymbol where
  /-- The symbol is a nine. -/
  isNine : Bool
  /-- The repeat count. -/
  count : Option DigitRun := none
  /-- The repeat count can be read. -/
  short : ∀ digits ∈ count, digits.text.length ≤ digitLimit

namespace PictureSymbol

/-- The symbol itself. -/
def char (s : PictureSymbol) : Char :=
  if s.isNine then '9' else 'X'

/-- The symbol as it is written. -/
def written (s : PictureSymbol) : Text :=
  s.char ::
    match s.count with
    | none => []
    | some digits => '(' :: (digits.text ++ [')'])

/-- The characters for which the symbol stands. -/
def width (s : PictureSymbol) : Nat :=
  match s.count with
  | none => 1
  | some digits => Numeral.ofDigits digits.text

/-- A symbol is written with characters of pictures. -/
theorem isFormChar_written (s : PictureSymbol) : ∀ c ∈ s.written, isFormChar c = true := by
  intro c hc
  rcases List.mem_cons.1 hc with rfl | hc
  · rw [char]
    split <;> decide
  · cases hcount : s.count with
    | none =>
      rw [hcount] at hc
      cases hc
    | some digits =>
      rw [hcount] at hc
      rcases List.mem_cons.1 hc with rfl | hc
      · decide
      · rcases List.mem_append.1 hc with hc | hc
        · exact digits.isFormChar c hc
        · rw [List.mem_singleton.1 hc]
          decide

/-- A symbol in front of symbols adds its count to the width. -/
theorem widthOf_written (s : PictureSymbol) {t : Text} (ht : t.head? ≠ some '(') :
    Picture.widthOf (s.written ++ t) = (Picture.widthOf t).map (s.width + ·) := by
  have hchar : (s.char == '9' || s.char == 'X') = true := by
    rw [char]
    split <;> decide
  cases hcount : s.count with
  | none =>
    have hnone : Picture.repeatCount? t = none := by
      rw [Picture.repeatCount?.eq_def]
      split
      · exact absurd rfl ht
      · rfl
    rw [written, hcount, width, hcount, List.cons_append, List.nil_append,
      Picture.widthOf_of_none hchar hnone]
  | some digits =>
    have hread : Numeral.read digits.text = .ok (Numeral.ofDigits digits.text : Int) :=
      digits.read_sign .nil (s.short digits hcount)
    rw [written, hcount, width, hcount, List.cons_append, List.cons_append, List.append_assoc,
      List.singleton_append,
      Picture.widthOf_of_some hchar (Picture.repeatCount?_digits digits t) hread]
    rfl

end PictureSymbol

/-- A picture as it is written. -/
structure PictureText where
  /-- A sign symbol stands in front. -/
  signed : Bool := false
  /-- The first symbol. -/
  first : PictureSymbol
  /-- The other symbols. -/
  more : List PictureSymbol := []

namespace PictureText

/-- All symbols. -/
def symbols (p : PictureText) : List PictureSymbol :=
  p.first :: p.more

/-- The symbols as they are written. -/
def body (p : PictureText) : Text :=
  p.symbols.flatMap PictureSymbol.written

/-- The picture as it is written. -/
def written (p : PictureText) : Text :=
  (if p.signed then ['S'] else []) ++ p.body

/-- What the picture describes: the first symbol decides the kind, and the width is the sum of the
counts. -/
def shape (p : PictureText) : Picture where
  isNumeric := p.first.isNine
  width := (p.symbols.map PictureSymbol.width).sum

/-- A picture is written with characters of pictures. -/
theorem isFormChar_written (p : PictureText) : ∀ c ∈ p.written, isFormChar c = true := by
  intro c hc
  rcases List.mem_append.1 hc with hc | hc
  · split at hc
    · rw [List.mem_singleton.1 hc]
      decide
    · cases hc
  · obtain ⟨s, -, hs⟩ := List.mem_flatMap.1 hc
    exact s.isFormChar_written c hs

theorem body_eq (p : PictureText) : ∃ t, p.body = p.first.char :: t :=
  ⟨_, rfl⟩

/-- **The width of written symbols is the sum of their widths.** -/
theorem widthOf_symbols (symbols : List PictureSymbol) :
    Picture.widthOf (symbols.flatMap PictureSymbol.written) =
      .ok (symbols.map PictureSymbol.width).sum := by
  induction symbols with
  | nil => rw [List.flatMap_nil, Picture.widthOf]; rfl
  | cons s rest ih =>
    have hhead : (rest.flatMap PictureSymbol.written).head? ≠ some '(' := by
      cases rest with
      | nil => simp
      | cons s rest =>
        rw [List.flatMap_cons, PictureSymbol.written, List.cons_append, List.head?_cons,
          PictureSymbol.char]
        split <;> decide
    rw [List.flatMap_cons, s.widthOf_written hhead, ih]
    rfl

/-- Names and pictures are their own upper case. -/
theorem upper_of_isFormChar {t : Text} (h : ∀ c ∈ t, isFormChar c = true) : upper t = t := by
  have hchars : ∀ c ∈ t, upperChar c = [c] := fun c hc ↦ (plain_of_isFormChar (h c hc)).1
  rw [upper, List.flatMap_congr hchars, List.flatMap_singleton']

/-- The sign of a picture is passed over, and all else is its symbols. -/
theorem symbols_written (p : PictureText) : Picture.symbols p.written = p.body := by
  have hblank : ∀ c ∈ p.written, isBlank c = false := fun c hc ↦
    (plain_of_isFormChar (p.isFormChar_written c hc)).2.1
  rw [Picture.symbols, trim_of_forall_not hblank, upper_of_isFormChar p.isFormChar_written, written]
  cases p.signed with
  | true => rfl
  | false =>
    obtain ⟨t, ht⟩ := p.body_eq
    rw [if_neg (by decide), List.nil_append, ht, PictureSymbol.char]
    cases p.first.isNine <;> rfl

/-- **A picture is read as it is written**: as the kind of its first symbol and the sum of its
counts. -/
theorem parse_written (p : PictureText) : Picture.parse p.written = .ok p.shape := by
  have hhead : (p.body.head? == some '9') = p.first.isNine := by
    obtain ⟨t, ht⟩ := p.body_eq
    rw [ht, List.head?_cons, PictureSymbol.char]
    cases p.first.isNine <;> decide
  rw [Picture.parse, symbols_written, hhead, body, widthOf_symbols]
  rfl

/-- A picture begins with a character that is neither a blank nor the beginning of `IS`. -/
theorem exists_written_eq_cons (p : PictureText) :
    ∃ c t, p.written = c :: t ∧ isBlank c = false ∧ sameLetter 'I' c = false := by
  obtain ⟨t, ht⟩ := p.body_eq
  rw [written, ht]
  cases p.signed with
  | true => exact ⟨'S', _, rfl, by decide, by decide +kernel⟩
  | false =>
    refine ⟨p.first.char, t, rfl, ?_⟩
    rw [PictureSymbol.char]
    split <;> decide +kernel

/-- A written picture can be the picture of a clause, whatever stands behind it. -/
theorem startsPicture_written (p : PictureText) (t : Text) :
    Clause.startsPicture (p.written ++ t) = true := by
  obtain ⟨rest, hrest⟩ := p.body_eq
  have hsymbol : Clause.isSymbol p.first.char = true := by
    rw [PictureSymbol.char]
    split <;> decide +kernel
  rw [written, hrest]
  cases p.signed with
  | true =>
    have hsign : (sameLetter 'S' 'S') = true := by decide +kernel
    show (Clause.isSymbol 'S' || (sameLetter 'S' 'S' && Clause.isSymbol p.first.char)) = true
    rw [hsymbol, hsign, Bool.and_true, Bool.or_true]
  | false =>
    show (Clause.isSymbol p.first.char || _) = true
    rw [hsymbol, Bool.true_or]

end PictureText

/-! ### Values -/

/-- A value as it is written. -/
inductive WrittenValue
  /-- An integer that can be read. -/
  | number (sign : Text) (digits : DigitRun) (isSign : Expression.IsSign sign)
    (short : digits.text.length ≤ digitLimit)
  /-- A literal whose text is as long as a numeral may be. -/
  | literal (l : Literal) (short : l.text.length ≤ digitLimit)

namespace WrittenValue

/-- The value as it is written. -/
def written : WrittenValue → Text
  | number sign digits _ _ => sign ++ digits.text
  | literal l _ => l.written

/-- The value that is meant. -/
def value : WrittenValue → Value
  | number sign digits _ _ => .number (Expression.numberValue sign digits.text)
  | literal l _ => .text l.text

/-- A number and a period behind a clause are read as that number. -/
theorem integer?_number (digits : DigitRun) {sign : Text} (hsign : Expression.IsSign sign)
    (t : Text) : Clause.integer? (sign ++ (digits.text ++ '.' :: t)) =
      some (Numeral.read (sign ++ digits.text)) := by
  have hstop : ∀ c ∈ ('.' :: t).head?, isDecimal c = false := by
    rintro _ ⟨⟩
    decide
  have htake := (takeWhile_append_of_stop digits.isDecimal hstop).1
  obtain ⟨d, more, hdigits⟩ := List.exists_cons_of_ne_nil digits.ne_nil
  rw [hdigits] at htake ⊢
  have hsigned : ∀ s : Char, (s == '+' || s == '-') = true →
      Clause.integer? ([s] ++ (d :: more ++ '.' :: t)) =
        some (Numeral.read ([s] ++ d :: more)) := by
    intro s hs
    have hlead : (if (s == '+' || s == '-') = true then [s] else []) = [s] := if_pos hs
    rw [List.singleton_append, Clause.integer?, hlead, List.length_singleton,
      List.drop_succ_cons, List.drop_zero, htake]
  rcases hsign with rfl | rfl | rfl
  · have hd : (d == '+' || d == '-') = false := by
      have hd : d.isDigit = true := digits.isDigit d (hdigits ▸ List.mem_cons_self)
      rw [Bool.or_eq_false_iff, beq_eq_false_iff_ne, beq_eq_false_iff_ne]
      constructor <;> rintro rfl <;> exact absurd hd (by decide)
    have hlead : (if (d == '+' || d == '-') = true then [d] else []) = [] := by rw [hd]; rfl
    rw [List.nil_append, List.cons_append, Clause.integer?, hlead, List.length_nil, List.drop_zero,
      ← List.cons_append, htake]
  · exact hsigned '+' rfl
  · exact hsigned '-' rfl

/-- What a value starts with. -/
theorem exists_written_eq_cons (v : WrittenValue) :
    ∃ c t, v.written = c :: t ∧ isBlank c = false ∧ sameLetter 'I' c = false := by
  cases v with
  | number sign digits hsign hshort =>
    obtain ⟨d, more, hdigits⟩ := List.exists_cons_of_ne_nil digits.ne_nil
    rcases hsign with rfl | rfl | rfl
    · have hd : d.isDigit = true := digits.isDigit d (hdigits ▸ List.mem_cons_self)
      have hform := isFormChar_of_isLabelChar (isLabelChar_of_isDigit hd)
      refine ⟨d, more, hdigits, (plain_of_isFormChar hform).2.1, sameLetter_of_isFormChar hform ?_⟩
      rintro rfl
      exact absurd hd (by decide)
    · exact ⟨'+', digits.text, rfl, by decide, by decide +kernel⟩
    · exact ⟨'-', digits.text, rfl, by decide, by decide +kernel⟩
  | literal l hshort =>
    refine ⟨l.quote, _, rfl, l.isBlank_quote, ?_⟩
    rcases l.quote_eq with h | h <;> rw [h] <;> decide +kernel

/-- A number is no literal. -/
theorem literal?_number (digits : DigitRun) {sign : Text} (hsign : Expression.IsSign sign)
    (t : Text) : Clause.literal? (sign ++ digits.text ++ t) = none := by
  obtain ⟨d, more, hdigits⟩ := List.exists_cons_of_ne_nil digits.ne_nil
  rcases hsign with rfl | rfl | rfl
  · have hform := digits.isFormChar d (hdigits ▸ List.mem_cons_self)
    rw [List.nil_append, hdigits, List.cons_append, Clause.literal?,
      (plain_of_isFormChar hform).2.2.2.2]
    rfl
  · rfl
  · rfl

/-- A written literal is read as its text, whatever stands behind it. -/
theorem literal?_written (l : Literal) (t : Text) :
    Clause.literal? (l.written ++ t) = some l.text := by
  have hcut : cutAt? l.quote (l.text ++ [l.quote] ++ t) = some (l.text, t) :=
    cutAt?_eq_some_iff.2 ⟨by rw [List.append_assoc]; rfl, l.quote_not_mem⟩
  rw [Literal.written, List.cons_append, Clause.literal?, if_pos l.isQuote_quote, hcut]
  rfl

/-- A value clause gives the value that is written in it. -/
theorem value?_written (v : WrittenValue) :
    Clause.value? ("VALUE".toList ++ ' ' :: (v.written ++ ['.'])) = some (.ok v.value) := by
  obtain ⟨c, t, hcons, hblank, hletter⟩ := v.exists_written_eq_cons
  have hkeyword : dropKeyword? "VALUE".toList ("VALUE".toList ++ ' ' :: (v.written ++ ['.'])) =
      some (' ' :: (v.written ++ ['.'])) := rfl
  have hafter : Clause.afterIs? (' ' :: (v.written ++ ['.'])) = some (v.written ++ ['.']) := by
    rw [hcons]
    exact Clause.afterIs?_space hblank hletter
  rw [Clause.value?, hkeyword, Option.bind_eq_bind, Option.bind_some, hafter, Option.bind_some]
  cases v with
  | number sign digits hsign hshort =>
    rw [written, literal?_number digits hsign, List.append_assoc, integer?_number digits hsign,
      digits.read_sign hsign hshort]
    rfl
  | literal l hshort =>
    rw [written, literal?_written]
    rfl

end WrittenValue

/-! ### Declarations -/

/-- A declaration as it is written. -/
structure WrittenDeclaration where
  /-- The level. -/
  level : DigitRun
  /-- The name. -/
  name : Text
  /-- The name is made of capital letters, digits and hyphens. -/
  isLabel_name : IsLabel name
  /-- The picture. -/
  picture : PictureText
  /-- The value. -/
  value : Option WrittenValue := none

namespace WrittenDeclaration

/-- The value clause, if there is a value. -/
def valueClause (d : WrittenDeclaration) : Text :=
  match d.value with
  | none => []
  | some v => ' ' :: ("VALUE".toList ++ ' ' :: v.written)

/-- The declaration before its period. -/
def body (d : WrittenDeclaration) : Text :=
  d.level.text ++ ' ' :: (d.name ++ ' ' :: ("PIC".toList ++ ' ' ::
    (d.picture.written ++ d.valueClause)))

/-- The declaration as it is written. -/
def written (d : WrittenDeclaration) : Text :=
  d.body ++ ['.']

/-- The declaration that is meant, on the line of the given number. -/
def declared (d : WrittenDeclaration) (line : Nat) : Declaration where
  name := d.name
  picture := d.picture.shape
  value := d.value.map WrittenValue.value
  line := line

/-- The name of a declaration is written with characters of names. -/
theorem isFormChar_name (d : WrittenDeclaration) : ∀ c ∈ d.name, isFormChar c = true := fun c hc ↦
  isFormChar_of_isLabelChar (d.isLabel_name.2 c hc)

/-- The value of a value clause is found, and none is found without it. -/
theorem initialValue_valueClause (d : WrittenDeclaration) :
    Declaration.initialValue (d.valueClause ++ ['.']) = .ok (d.value.map WrittenValue.value) := by
  rw [valueClause]
  cases d.value with
  | none => decide +kernel
  | some v =>
    have hblank : ∀ u, u <:+ [' '] → u ≠ [] →
        Clause.value? (u ++ ("VALUE".toList ++ ' ' :: (v.written ++ ['.']))) = none := by
      intro u hu hne
      rcases List.suffix_cons_iff.1 hu with rfl | hu
      · rfl
      · exact absurd (List.suffix_nil.1 hu) hne
    have hread : Clause.search Clause.value? (some ' ')
        ("VALUE".toList ++ ' ' :: (v.written ++ ['.'])) = some ([], .ok v.value) :=
      Clause.search_of_eq_some (by simp) (by decide) v.value?_written
    have hfound : Clause.search Clause.value? none
        (' ' :: ("VALUE".toList ++ ' ' :: (v.written ++ ['.']))) = some ([' '], .ok v.value) :=
      (Clause.search_append hblank none).trans (congrArg _ hread)
    have hclause : ' ' :: ("VALUE".toList ++ ' ' :: v.written) ++ ['.'] =
        ' ' :: ("VALUE".toList ++ ' ' :: (v.written ++ ['.'])) := by simp
    rw [Declaration.initialValue, hclause, hfound]
    rfl

/-- The picture of a picture clause is read up to the value clause or the period. -/
theorem picture?_written (p : PictureText) {t : Text}
    (ht : ∀ c ∈ t.head?, Clause.isPictureChar c = false) :
    Clause.picture? ("PIC".toList ++ ' ' :: (p.written ++ t)) = some (p.written, t) := by
  have hchars : ∀ c ∈ p.written, Clause.isPictureChar c = true := fun c hc ↦ by
    obtain ⟨-, hblank, hdot, -⟩ := plain_of_isFormChar (p.isFormChar_written c hc)
    simp [Clause.isPictureChar, hblank, hdot]
  obtain ⟨htake, hdrop⟩ := takeWhile_append_of_stop hchars ht
  have hkeyword : dropKeyword? "PIC".toList ("PIC".toList ++ ' ' :: (p.written ++ t)) =
      some (' ' :: (p.written ++ t)) := rfl
  have hlong : dropKeyword? "TURE".toList (' ' :: (p.written ++ t)) = none := rfl
  have hafter : Clause.afterIs? (' ' :: (p.written ++ t)) = some (p.written ++ t) := by
    obtain ⟨c, rest, hcons, hblank, hletter⟩ := p.exists_written_eq_cons
    rw [hcons]
    exact Clause.afterIs?_space hblank hletter
  rw [Clause.picture?, hkeyword, Option.bind_eq_bind, Option.bind_some, hlong, Option.getD_none,
    hafter, Option.bind_some, if_pos (p.startsPicture_written t), htake, hdrop]

/-- The picture clause is found behind the level and the name. -/
theorem search_written (d : WrittenDeclaration) :
    Clause.search Clause.picture? none d.written =
      some (d.level.text ++ ' ' :: (d.name ++ [' ']), d.picture.written,
        d.valueClause ++ ['.']) := by
  -- no clause starts inside the level, and none inside the name, also if the name has `PIC` in it
  have hlevel (rest : Text) : ∀ v, v <:+ d.level.text ++ [' '] → v ≠ [] →
      Clause.picture? (v ++ rest) = none := by
    intro v hv hne
    obtain ⟨c, v, rfl⟩ := List.exists_cons_of_ne_nil hne
    refine Clause.picture?_cons ?_ (v ++ rest)
    rcases List.mem_append.1 (hv.mem List.mem_cons_self) with hc | hc
    · refine sameLetter_of_isFormChar (d.level.isFormChar c hc) ?_
      rintro rfl
      exact absurd (d.level.isDigit 'P' hc) (by decide)
    · rw [List.mem_singleton.1 hc]
      decide +kernel
  have hname (rest : Text) : ∀ v, v <:+ d.name ++ [' '] → v ≠ [] →
      Clause.picture? (v ++ ("PIC".toList ++ rest)) = none := by
    intro v hv hne
    rcases List.suffix_concat_iff.1 hv with rfl | ⟨w, rfl, hw⟩
    · exact absurd rfl hne
    · rw [List.append_assoc]
      exact Clause.picture?_word (fun c hc ↦ d.isFormChar_name c (hw.mem hc)) ('I' :: 'C' :: rest)
  have htail : ∀ c ∈ (d.valueClause ++ ['.']).head?, Clause.isPictureChar c = false := by
    rw [valueClause]
    cases d.value with
    | none =>
      rintro _ ⟨⟩
      decide
    | some v =>
      rintro _ ⟨⟩
      decide
  have hread : Clause.search Clause.picture? (some ' ')
      ("PIC".toList ++ ' ' :: (d.picture.written ++ (d.valueClause ++ ['.']))) =
        some ([], d.picture.written, d.valueClause ++ ['.']) :=
    Clause.search_of_eq_some (by simp) (by decide) (picture?_written d.picture htail)
  have hparts : d.written = (d.level.text ++ [' ']) ++ ((d.name ++ [' ']) ++
      ("PIC".toList ++ ' ' :: (d.picture.written ++ (d.valueClause ++ ['.'])))) := by
    simp [written, body]
  rw [hparts, Clause.search_append (hlevel _), Clause.search_append (hname _), List.getLast?_concat,
    List.getLast?_concat, Option.some_or, hread]
  simp

/-- **A declaration is read as it is written.** -/
theorem ofSentence_written (d : WrittenDeclaration) (line : Nat) :
    Declaration.ofSentence line d.written = .ok (.declaration (d.declared line)) := by
  have hblank : isBlank ' ' = true := by decide
  have hlevel : ∀ c ∈ d.level.text, isBlank c = false := fun c hc ↦
    (plain_of_isFormChar (d.level.isFormChar c hc)).2.1
  have hname : ∀ c ∈ d.name, isBlank c = false := fun c hc ↦
    (plain_of_isFormChar (d.isFormChar_name c hc)).2.1
  have hwords : words (d.level.text ++ ' ' :: (d.name ++ [' '])) = [d.level.text, d.name] := by
    rw [words_word_append d.level.ne_nil hlevel hblank,
      words_word_append d.isLabel_name.1 hname hblank, words_nil]
  have hupper : upper (d.name.filter (· != '.')) = d.name := by
    rw [List.filter_eq_self.2, PictureText.upper_of_isFormChar d.isFormChar_name]
    intro c hc
    simpa using (plain_of_isFormChar (d.isFormChar_name c hc)).2.2.1
  rw [Declaration.ofSentence, search_written]
  dsimp only
  rw [hwords]
  show (Picture.parse d.picture.written >>= fun p ↦
    Declaration.initialValue (d.valueClause ++ ['.']) >>= fun v ↦ _) = _
  rw [d.picture.parse_written, d.initialValue_valueClause, hupper]
  rfl

end WrittenDeclaration

end Cobol
