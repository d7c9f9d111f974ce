import Cobol.CommandLine.Command
import Cobol.Proofs.Json.Document
import Cobol.Proofs.Json.Reader
import Cobol.Proofs.Numeral

/-!
# Written documents are read back

A document that is written in any style is read back as what it says (`render_read`).

The proof goes by the tokens of a document (`Document.tokens`), which say nothing of its layout.

* `exists_printAt`: the written form of a document is cut into its tokens, whatever the unit of
  indentation, and is on one line if there is none. A word ends only where something else begins, so
  the law is about written forms with something apart from them behind (`Written.cut`).
* `run_tokens`: the machine takes the tokens of a document as one value.

## Shape decisions

* Blanks between the parts of a document are not part of its tokens, so the machine never sees the
  unit of indentation. It counts in `exists_printAt` alone, where it has to be white space.
* A word and a quoted text are each one token. The cutter stops at the quote that ends a text, and
  at the first character that belongs to no word. So the two kinds of written forms are kept apart:
  those with any text behind them (`Cut`), and those with something apart from them (`CutApart`).
* The induction on documents is stated for the printer and for the machine separately, and the two
  are joined by the tokens at the end.
* Whether there is a style is said for every integer (`CommandLine.exists_styleWith_iff`), and what
  is read back for every style that there is.
-/

namespace Cobol

open Text

namespace Json

/-! ### Numbers -/

/-- Digits are taken to their end. -/
theorem takeDigits_of_forall {t : Text} (h : ∀ c ∈ t, isDecimal c = true) :
    Binary64.takeDigits t = (t, []) := by
  induction t with
  | nil => rfl
  | cons c t ih =>
    obtain ⟨hc, ht⟩ := List.forall_mem_cons.1 h
    rw [Binary64.takeDigits, if_pos hc, ih ht]

/-- The digits of a number have no leading zero, so they are the whole part of a number. -/
theorem isWhole_digits (n : Nat) : isWhole (Numeral.digits n) = true := by
  by_cases hn : n = 0
  · rw [hn]
    rfl
  · have hhead := Numeral.head?_digits hn
    have hlength : 0 < (Numeral.digits n).length := Nat.length_toDigits_pos
    unfold isWhole
    split
    · rename_i heq
      rw [heq] at hlength
      cases hlength
    · rfl
    · rename_i heq
      rw [heq, List.head?_cons] at hhead
      simpa using hhead

/-- Digits without places and without an exponent are an integer. -/
theorem unsigned?_digits (minus : Bool) (n : Nat) :
    unsigned? minus (Numeral.digits n) = some (.integer (if minus then -(n : Int) else n)) := by
  have htake : Binary64.takeDigits (Numeral.digits n) = (Numeral.digits n, []) :=
    takeDigits_of_forall fun c hc ↦ Numeral.isDecimal_of_mem_digits hc
  have hascii : (Numeral.digits n).any (128 ≤ ·.toNat) = false := by
    rw [List.any_eq_false]
    intro c hc hwide
    have hnat : c.toNat ≤ 57 := (le_and_le_of_isDigit (Numeral.isDigit_of_mem_digits hc)).2
    simp only [decide_eq_true_eq] at hwide
    omega
  rw [unsigned?, htake]
  dsimp only
  rw [hascii, isWhole_digits, if_neg (by decide), Numeral.ofDigits_digits]

/-- The decimal form of an integer is read as the integer. -/
theorem number?_decimal (n : Int) : number? (Numeral.decimal n) = some (.integer n) := by
  cases n with
  | ofNat n =>
    rw [Numeral.decimal, number?, unsigned?_digits]
    · rfl
    · intro w heq
      have hminus : '-'.isDigit = true := Numeral.isDigit_of_mem_digits (heq ▸ List.mem_cons_self)
      revert hminus
      decide
  | negSucc n =>
    rw [Numeral.decimal, number?, unsigned?_digits]
    rfl

/-- As a word, the decimal form of an integer stands for the integer: it is none of the three names.
-/
theorem wordValue?_decimal (n : Int) : wordValue? (Numeral.decimal n) = some (.integer n) := by
  have hword : ∀ w : Text, number? w = none → Numeral.decimal n ≠ w := by
    intro w hw heq
    rw [← heq, number?_decimal] at hw
    cases hw
  rw [wordValue?, if_neg (hword _ rfl), if_neg (hword _ rfl), if_neg (hword _ rfl), number?_decimal]

/-! ### Quoted texts -/

/-- **An escaped character is read as its code point**, in whichever of the ways it was escaped. -/
theorem readUnits_escape (c : Char) (t : Text) :
    readUnits (escape c ++ t) = pushUnit (some c.toNat) (readUnits t) := by
  unfold escape
  split_ifs with h₁ h₂ h₃ h₄ h₅ h₆ h₇ h₈
  · rw [beq_iff_eq.1 h₁]; rfl
  · rw [beq_iff_eq.1 h₂]; rfl
  · rw [beq_iff_eq.1 h₃]; rfl
  · rw [beq_iff_eq.1 h₄]; rfl
  · rw [beq_iff_eq.1 h₅]; rfl
  · rw [beq_iff_eq.1 h₆]; rfl
  · rw [beq_iff_eq.1 h₇]; rfl
  · have hunit : ∀ n < 32,
        hexNumber? ['0', '0', Nat.digitChar (n / 16), Nat.digitChar (n % 16)] = some n := by
      decide
    rw [← hunit _ h₈]
    rfl
  · rw [List.singleton_append, readUnits]
    · rw [plainUnit?, if_pos (by omega)]
    · simpa using h₁
    · rintro _ _ _ _ _ rfl
      simp at h₂
    · rintro _ _ rfl
      simp at h₂

/-- Escaped characters are read up to the quote behind them. -/
theorem readUnits_flatMap_escape (t behind : Text) :
    readUnits (t.flatMap escape ++ '"' :: behind) = some (t.map Char.toNat, behind) := by
  induction t with
  | nil => rfl
  | cons c t ih =>
    rw [List.flatMap_cons, List.append_assoc, readUnits_escape, ih]
    rfl

/-- No character is a surrogate, so every character is a unit of its own. -/
theorem ofUnits?_toNat (t : Text) : ofUnits? (t.map Char.toNat) = some t := by
  induction t with
  | nil => rfl
  | cons c t ih =>
    have hvalid : c.toNat.isValidChar := c.valid
    rw [List.map_cons, ofUnits?.eq_def]
    dsimp only
    rw [if_pos hvalid, ih, Char.ofNat_toNat]
    rfl

/-- A text between quotes is read as it was. -/
theorem readText_flatMap_escape (t behind : Text) :
    readText (t.flatMap escape ++ '"' :: behind) = some (t, behind) := by
  rw [readText, readUnits_flatMap_escape, Option.bind_some, ofUnits?_toNat]
  rfl

/-! ### Cutting written forms -/

/-- The text is cut into the tokens, whatever stands behind it. -/
def Cut (t : Text) (tokens : List Token) : Prop :=
  ∀ rest, tokens? (t ++ rest) = (tokens? rest).map (tokens ++ ·)

/-- The text is cut into the tokens, if what stands behind it does not go on with a word. -/
def CutApart (t : Text) (tokens : List Token) : Prop :=
  ∀ rest, Apart rest → tokens? (t ++ rest) = (tokens? rest).map (tokens ++ ·)

theorem Cut.apart {t : Text} {tokens : List Token} (h : Cut t tokens) : CutApart t tokens :=
  fun rest _ ↦ h rest

/-- Written forms behind each other are cut one after the other. -/
theorem Cut.append {t u : Text} {tokens more : List Token} (h : Cut t tokens) (hu : Cut u more) :
    Cut (t ++ u) (tokens ++ more) := by
  intro rest
  rw [List.append_assoc, h, hu, Option.map_map]
  simp [Function.comp_def]

/-- A written form in front does not keep the one behind it from being cut, if it is apart from it.
-/
theorem Cut.append_apart {t u : Text} {tokens more : List Token} (h : Cut t tokens)
    (hu : CutApart u more) : CutApart (t ++ u) (tokens ++ more) := by
  intro rest hrest
  rw [List.append_assoc, h, hu rest hrest, Option.map_map]
  simp [Function.comp_def]

/-- A character that belongs to no word sets apart what stands in front of it. -/
theorem CutApart.append_cons {t u : Text} {c : Char} {tokens more : List Token}
    (h : CutApart t tokens) (hc : isWordChar c = false) (hu : Cut (c :: u) more) :
    Cut (t ++ c :: u) (tokens ++ more) := by
  intro rest
  have hapart : Apart (c :: u ++ rest) := by
    rintro _ ⟨⟩
    exact hc
  rw [List.append_assoc, h _ hapart, hu, Option.map_map]
  simp [Function.comp_def]

/-- White space holds no tokens. -/
theorem cut_spaces {blanks : Text} (h : ∀ c ∈ blanks, isSpace c = true) : Cut blanks [] := by
  intro rest
  rw [tokens?_spaces h]
  simp

/-- A mark is cut as itself. -/
theorem cut_mark {c : Char} {mark : Token} (h : (c, mark) ∈ marks) : Cut [c] [mark] :=
  fun rest ↦ tokens?_mark h rest

/-- A quoted text is cut as one token. -/
theorem cut_quote (t : Text) : Cut (quote t) [.text t] := by
  intro rest
  rw [quote, List.cons_append, List.append_assoc, List.singleton_append,
    tokens?_text (readText_flatMap_escape t rest)]
  rfl

/-- A word is cut as one token, with something apart from it behind. -/
theorem cutApart_word {w : Text} (hne : w ≠ []) (hw : ∀ c ∈ w, isWordChar c = true) :
    CutApart w [.word w] :=
  fun _ hrest ↦ tokens?_word hne hw hrest

/-! ### Written forms -/

/-- A text without control characters, so without line breaks. -/
def IsSingleLine (t : Text) : Prop :=
  ∀ c ∈ t, 32 ≤ c.toNat

instance : DecidablePred IsSingleLine := fun t ↦
  inferInstanceAs (Decidable (∀ c ∈ t, 32 ≤ c.toNat))

theorem isSingleLine_append {t u : Text} :
    IsSingleLine (t ++ u) ↔ IsSingleLine t ∧ IsSingleLine u :=
  List.forall_mem_append

theorem isSingleLine_cons {c : Char} {t : Text} :
    IsSingleLine (c :: t) ↔ 32 ≤ c.toNat ∧ IsSingleLine t :=
  List.forall_mem_cons

/-- No line break is left in an escaped character. -/
theorem isSingleLine_escape (c : Char) : IsSingleLine (escape c) := by
  unfold escape
  split_ifs with _ _ _ _ _ _ _ h
  · decide
  · decide
  · decide
  · decide
  · decide
  · decide
  · decide
  · have hunit : ∀ n < 32,
        ∀ e ∈ ['\\', 'u', '0', '0', Nat.digitChar (n / 16), Nat.digitChar (n % 16)],
          32 ≤ e.toNat := by
      decide
    exact hunit _ h
  · rw [isSingleLine_cons]
    exact ⟨by omega, by decide⟩

/-- A quoted text is on one line, whatever the text is. -/
theorem isSingleLine_quote (t : Text) : IsSingleLine (quote t) := by
  rw [quote, isSingleLine_cons, isSingleLine_append]
  refine ⟨by decide, fun c hc ↦ ?_, by decide⟩
  obtain ⟨d, -, hd⟩ := List.mem_flatMap.1 hc
  exact isSingleLine_escape d c hd

/-- Indentation is by white space. -/
def IsBlankIndent (indent : Indent) : Prop :=
  ∀ unit ∈ indent, ∀ c ∈ unit, isSpace c = true

/-- The text is a written form of tokens: it is cut into them, and on one line if there is no unit
of indentation. -/
structure Written (indent : Indent) (t : Text) (tokens : List Token) : Prop where
  /-- The tokens. -/
  cut : CutApart t tokens
  /-- The line. -/
  singleLine : indent = none → IsSingleLine t

namespace Written

variable {indent : Indent} {t u : Text} {tokens more : List Token}

/-- A word is a written form of itself. -/
theorem word {w : Text} (hne : w ≠ []) (hw : ∀ c ∈ w, isWordChar c = true)
    (hline : IsSingleLine w) : Written indent w [.word w] :=
  ⟨cutApart_word hne hw, fun _ ↦ hline⟩

/-- A quoted text is a written form of its token. -/
theorem quote (t : Text) : Written indent (quote t) [.text t] :=
  ⟨(cut_quote t).apart, fun _ ↦ isSingleLine_quote t⟩

theorem nil : Written indent [] [] :=
  ⟨(cut_spaces (by decide)).apart, fun _ ↦ by decide⟩

/-- A name and what is written under it. -/
theorem field (name : Text) (h : Written indent t tokens) :
    Written indent (Json.quote name ++ ':' :: ' ' :: t) (.text name :: .colon :: tokens) where
  cut := by
    have hcolon : Cut [':', ' '] [.colon] := (cut_mark (by decide)).append (cut_spaces (by decide))
    exact (cut_quote name).append_apart (hcolon.append_apart h.cut)
  singleLine hnone := by
    rw [isSingleLine_append, isSingleLine_cons, isSingleLine_cons]
    exact ⟨isSingleLine_quote name, by decide, by decide, h.singleLine hnone⟩

/-- A line break with its indentation is white space. -/
theorem isSpace_of_mem_lineBreak (hindent : IsBlankIndent indent) (level : Nat) :
    ∀ c ∈ lineBreak indent level, isSpace c = true := by
  intro c hc
  cases indent with
  | none => cases hc
  | some unit =>
    rcases List.mem_cons.1 hc with rfl | hc
    · decide
    · obtain ⟨u, hu, hc⟩ := List.mem_flatten.1 hc
      rw [List.eq_of_mem_replicate hu] at hc
      exact hindent unit rfl c hc

/-- A separator is a comma, whatever blanks stand behind it. -/
theorem cut_separator (hindent : IsBlankIndent indent) (level : Nat) :
    ∃ blanks, separator indent level = ',' :: blanks ∧ Cut (',' :: blanks) [.comma] := by
  have hcomma : Cut [','] [.comma] := cut_mark (by decide)
  cases indent with
  | none => exact ⟨[' '], rfl, hcomma.append (cut_spaces (by decide))⟩
  | some unit =>
    exact ⟨_, rfl, hcomma.append (cut_spaces (isSpace_of_mem_lineBreak hindent level))⟩

/-- Two written forms with a separator. -/
theorem join (hindent : IsBlankIndent indent) (level : Nat) (h : Written indent t tokens)
    (hu : Written indent u more) :
    Written indent (t ++ separator indent level ++ u) (tokens ++ .comma :: more) where
  cut := by
    obtain ⟨blanks, hseparator, hcut⟩ := cut_separator hindent level
    rw [hseparator, List.append_cons tokens]
    exact (h.cut.append_cons (by decide) hcut).append_apart hu.cut
  singleLine hnone := by
    rw [isSingleLine_append, isSingleLine_append]
    refine ⟨⟨h.singleLine hnone, ?_⟩, hu.singleLine hnone⟩
    rw [hnone]
    exact (by decide : IsSingleLine [',', ' '])

/-- A closing mark is cut as itself, also on a line of its own. -/
theorem cut_closing (hindent : IsBlankIndent indent) (level : Nat) {closing : Char} {last : Token}
    (hclosing : (closing, last) ∈ marks) :
    ∃ c u, lineBreak indent level ++ [closing] = c :: u ∧ isWordChar c = false ∧
      Cut (c :: u) [last] := by
  cases indent with
  | none => exact ⟨closing, [], rfl, (marks_apart _ hclosing).2.2.2.1, cut_mark hclosing⟩
  | some unit =>
    exact ⟨'\n', _, rfl, by decide,
      (cut_spaces (isSpace_of_mem_lineBreak hindent level)).append (cut_mark hclosing)⟩

/-- A written form between brackets. -/
theorem enclose (hindent : IsBlankIndent indent) (level : Nat) {opening closing : Char}
    {first last : Token} (hopening : (opening, first) ∈ marks) (hclosing : (closing, last) ∈ marks)
    (h : Written indent t tokens) :
    Written indent (enclose indent level opening closing t) (first :: (tokens ++ [last])) where
  cut := by
    obtain ⟨c, u, heq, hc, hcut⟩ := cut_closing hindent level hclosing
    have hopen : Cut (opening :: lineBreak indent (level + 1)) [first] :=
      (cut_mark hopening).append (cut_spaces (isSpace_of_mem_lineBreak hindent (level + 1)))
    rw [Json.enclose, List.append_assoc, List.append_assoc, heq, ← List.cons_append]
    exact (hopen.append (h.cut.append_cons hc hcut)).apart
  singleLine hnone := by
    subst hnone
    obtain ⟨_, _, _, _, hopening⟩ := marks_apart _ hopening
    obtain ⟨_, _, _, _, hclosing⟩ := marks_apart _ hclosing
    rw [Json.enclose, isSingleLine_cons, isSingleLine_append, isSingleLine_append,
      isSingleLine_append, isSingleLine_cons]
    have hnil : IsSingleLine [] := by decide
    exact ⟨hopening, ⟨⟨hnil, h.singleLine rfl⟩, hnil⟩, hclosing, hnil⟩

/-- Brackets with nothing between them. -/
theorem empty {opening closing : Char} {first last : Token} (hopening : (opening, first) ∈ marks)
    (hclosing : (closing, last) ∈ marks) : Written indent [opening, closing] [first, last] where
  cut := ((cut_mark hopening).append (cut_mark hclosing)).apart
  singleLine _ := by
    obtain ⟨_, _, _, _, hopening⟩ := marks_apart _ hopening
    obtain ⟨_, _, _, _, hclosing⟩ := marks_apart _ hclosing
    rw [isSingleLine_cons, isSingleLine_cons]
    exact ⟨hopening, hclosing, by decide⟩

end Written

/-! ### The tokens of a document -/

namespace Document

mutual

/-- The tokens of a document. -/
def tokens : Document → List Token
  | .null => [.word "null".toList]
  | .bool b => [.word (if b then "true".toList else "false".toList)]
  | .integer n => [.word (Numeral.decimal n)]
  | .number x => [.word (numberLayout.text x)]
  | .text t => [.text t]
  | .path p => [.text p.text]
  | .array items => .openArray :: (itemTokens items ++ [.closeArray])
  | .object fields => .openObject :: (fieldTokens fields ++ [.closeObject])
  | .foreign => []

/-- The tokens of the items of a list. -/
def itemTokens : List Document → List Token
  | [] => []
  | [d] => tokens d
  | d :: e :: rest => tokens d ++ .comma :: itemTokens (e :: rest)

/-- The tokens of the fields of an object. -/
def fieldTokens : List (Text × Document) → List Token
  | [] => []
  | [(name, d)] => .text name :: .colon :: tokens d
  | (name, d) :: e :: rest =>
    .text name :: .colon :: (tokens d ++ .comma :: fieldTokens (e :: rest))

end

end Document

open Document

/-- The decimal form of a number is a word, and on one line. -/
theorem isWordChar_of_mem_decimal {n : Int} {c : Char} (h : c ∈ Numeral.decimal n) :
    isWordChar c = true ∧ 32 ≤ c.toNat := by
  have hcode : ∀ m < 58, 48 ≤ m → isWordChar (Char.ofNat m) = true := by decide
  have hdigit : ∀ c : Char, c.isDigit = true → isWordChar c = true ∧ 32 ≤ c.toNat := by
    intro c hc
    have hlow : 48 ≤ c.toNat := (le_and_le_of_isDigit hc).1
    have hhigh : c.toNat ≤ 57 := (le_and_le_of_isDigit hc).2
    refine ⟨?_, by omega⟩
    rw [← Char.ofNat_toNat c]
    exact hcode _ (by omega) hlow
  cases n with
  | ofNat n => exact hdigit c (Numeral.isDigit_of_mem_digits h)
  | negSucc n =>
    rcases List.mem_cons.1 h with rfl | hc
    · decide
    · exact hdigit c (Numeral.isDigit_of_mem_digits hc)

/-- The decimal form of a number is a written form of its word. -/
theorem written_decimal (indent : Indent) (n : Int) :
    Written indent (Numeral.decimal n) [.word (Numeral.decimal n)] := by
  have hne : Numeral.decimal n ≠ [] := by
    cases n with
    | ofNat n => exact List.ne_nil_of_length_pos Nat.length_toDigits_pos
    | negSucc n => exact List.cons_ne_nil _ _
  exact .word hne (fun c hc ↦ (isWordChar_of_mem_decimal hc).1)
    fun c hc ↦ (isWordChar_of_mem_decimal hc).2

section Printing

variable {indent : Indent}

/-- The document has a written form on every level. -/
def Prints (indent : Indent) (d : Document) : Prop :=
  ∀ level, ∃ t, printAt indent level d = .ok t ∧ Written indent t d.tokens

/-- The items of an array are written with commas between them, if each of them can be written. -/
theorem exists_printItems (hindent : IsBlankIndent indent) {items : List Document}
    (h : ∀ d ∈ items, Prints indent d) (level : Nat) :
    ∃ t, printItems indent level items = .ok t ∧ Written indent t (itemTokens items) := by
  induction items with
  | nil => exact ⟨[], rfl, .nil⟩
  | cons d rest ih =>
    obtain ⟨hd, hrest⟩ := List.forall_mem_cons.1 h
    obtain ⟨first, hfirst, hwritten⟩ := hd level
    cases rest with
    | nil => exact ⟨first, hfirst, hwritten⟩
    | cons e rest =>
      obtain ⟨more, hmore, hmoreWritten⟩ := ih hrest
      refine ⟨first ++ separator indent level ++ more, ?_, hwritten.join hindent level hmoreWritten⟩
      rw [printItems, hfirst, hmore]
      rfl

/-- The fields of an object are written with their names and commas between them, if each of them
can be written. -/
theorem exists_printFields (hindent : IsBlankIndent indent) {fields : List (Text × Document)}
    (h : ∀ f ∈ fields, Prints indent f.2) (level : Nat) :
    ∃ t, printFields indent level fields = .ok t ∧ Written indent t (fieldTokens fields) := by
  induction fields with
  | nil => exact ⟨[], rfl, .nil⟩
  | cons f rest ih =>
    obtain ⟨hf, hrest⟩ := List.forall_mem_cons.1 h
    obtain ⟨first, hfirst, hwritten⟩ := hf level
    cases rest with
    | nil =>
      refine ⟨quote f.1 ++ ':' :: ' ' :: first, ?_, hwritten.field f.1⟩
      rw [printFields, hfirst]
      rfl
    | cons e rest =>
      obtain ⟨more, hmore, hmoreWritten⟩ := ih hrest
      refine ⟨quote f.1 ++ ':' :: ' ' :: first ++ separator indent level ++ more, ?_,
        (hwritten.field f.1).join hindent level hmoreWritten⟩
      rw [printFields, hfirst, hmore]
      rfl

/-- A plain document has a written form, which is cut into its tokens. -/
theorem exists_printAt (hindent : IsBlankIndent indent) {d : Document} (h : d.isPlain = true) :
    Prints indent d := by
  induction d with
  | null => exact fun level ↦ ⟨_, rfl, .word (by decide) (by decide) (by decide)⟩
  | bool b =>
    cases b with
    | true => exact fun level ↦ ⟨_, rfl, .word (by decide) (by decide) (by decide)⟩
    | false => exact fun level ↦ ⟨_, rfl, .word (by decide) (by decide) (by decide)⟩
  | integer n =>
    intro level
    have hlimit : n.natAbs < Nat.pow 10 digitLimit := by simpa [isPlain] using h
    refine ⟨Numeral.decimal n, ?_, written_decimal indent n⟩
    rw [printAt, Numeral.write, if_pos hlimit]
    rfl
  | number x => cases h
  | text t => exact fun level ↦ ⟨_, rfl, .quote t⟩
  | path p => exact fun level ↦ ⟨_, rfl, .quote p.text⟩
  | array items ih =>
    -- with nothing inside there is no line feed between the brackets
    intro level
    rw [isPlain, plainItems_iff] at h
    cases items with
    | nil => exact ⟨_, rfl, .empty (by decide) (by decide)⟩
    | cons d rest =>
      obtain ⟨t, ht, hwritten⟩ :=
        exists_printItems hindent (fun d hd ↦ ih d hd (h d hd)) (level + 1)
      refine ⟨enclose indent level '[' ']' t, ?_,
        hwritten.enclose hindent level (by decide) (by decide)⟩
      rw [printAt, ht]
      rfl
  | object fields ih =>
    intro level
    obtain ⟨-, h⟩ := isPlain_object_iff.1 h
    cases fields with
    | nil => exact ⟨_, rfl, .empty (by decide) (by decide)⟩
    | cons f rest =>
      obtain ⟨t, ht, hwritten⟩ :=
        exists_printFields hindent (fun f hf ↦ ih f hf (h f hf)) (level + 1)
      refine ⟨enclose indent level '\x7b' '\x7d' t, ?_,
        hwritten.enclose hindent level (by decide) (by decide)⟩
      rw [printAt, ht]
      rfl
  | foreign => cases h

end Printing

/-! ### Taking the tokens -/

namespace Awaited

/-- The tokens of the document are taken as one value. -/
def Takes (d : Document) : Prop :=
  ∀ frames rest, run (value frames) (d.tokens ++ rest) = run (after d.textual frames) rest

/-- The machine takes the items of an array one after another, into the frame that is open. -/
theorem run_itemTokens {items : List Document} (h : ∀ d ∈ items, Takes d) (hne : items ≠ [])
    (done : List Document) (frames : List Frame) (rest : List Token) :
    run (value (.array done :: frames)) (itemTokens items ++ rest) =
      run (moreItems (done ++ textualItems items) frames) rest := by
  induction items generalizing done with
  | nil => exact absurd rfl hne
  | cons d items ih =>
    obtain ⟨hd, hitems⟩ := List.forall_mem_cons.1 h
    cases items with
    | nil => exact hd (.array done :: frames) rest
    | cons e items =>
      rw [itemTokens, List.append_assoc, hd]
      refine (ih hitems (List.cons_ne_nil e items) (done ++ [d.textual])).trans ?_
      rw [List.append_assoc]
      rfl

/-- The machine takes the fields of an object one after another, into the frame that is open. -/
theorem run_fieldTokens {fields : List (Text × Document)} (h : ∀ f ∈ fields, Takes f.2)
    (hne : fields ≠ []) (done : List (Text × Document)) (frames : List Frame)
    (rest : List Token) :
    run (nextName done frames) (fieldTokens fields ++ rest) =
      run (moreFields (done ++ textualFields fields) frames) rest := by
  induction fields generalizing done with
  | nil => exact absurd rfl hne
  | cons f fields ih =>
    obtain ⟨hf, hfields⟩ := List.forall_mem_cons.1 h
    cases fields with
    | nil => exact hf (.object done f.1 :: frames) rest
    | cons e fields =>
      rw [fieldTokens, List.cons_append, List.cons_append, List.append_assoc]
      refine (hf (.object done f.1 :: frames) _).trans ?_
      refine (ih hfields (List.cons_ne_nil e fields) (done ++ [(f.1, f.2.textual)])).trans ?_
      rw [List.append_assoc]
      rfl

/-- Where an array may end, a value is taken as where it may not. -/
theorem run_firstItem {d : Document} (h : d.isPlain = true) (frames : List Frame)
    (rest : List Token) :
    run (firstItem frames) (d.tokens ++ rest) =
      run (value (.array [] :: frames)) (d.tokens ++ rest) := by
  cases d with
  | number x => cases h
  | foreign => cases h
  | null | bool _ | integer _ | text _ | path _ | array _ | object _ => rfl

/-- Fields with distinct names make the object of just these fields. -/
theorem ofFields_textualFields {fields : List (Text × Document)}
    (h : (fields.map (·.1)).Nodup) :
    ofFields (textualFields fields) = object (textualFields fields) := by
  have hnames : ((textualFields fields).map (·.1)).Nodup := by
    rw [textualFields_eq_map, List.map_map]
    exact h
  rw [ofFields, Table.entries_ofList hnames]

/-- The tokens of a plain document are taken as what it says. -/
theorem run_tokens {d : Document} (h : d.isPlain = true) : Takes d := by
  induction d with
  | null => exact fun _ _ ↦ rfl
  | bool b => cases b <;> exact fun _ _ ↦ rfl
  | integer n =>
    intro frames rest
    show (start? frames (.word (Numeral.decimal n))).bind (run · rest) = _
    rw [start?, wordValue?_decimal]
    rfl
  | number x => cases h
  | text t => exact fun _ _ ↦ rfl
  | path p => exact fun _ _ ↦ rfl
  | array items ih =>
    intro frames rest
    rw [isPlain, plainItems_iff] at h
    cases items with
    | nil => rfl
    | cons d items =>
      obtain ⟨more, hmore⟩ : ∃ more, itemTokens (d :: items) = d.tokens ++ more := by
        cases items with
        | nil => exact ⟨[], (List.append_nil _).symm⟩
        | cons e items => exact ⟨_, rfl⟩
      -- behind the bracket the array could end, but the first token begins an item
      have hfirst : run (firstItem frames) (itemTokens (d :: items) ++ .closeArray :: rest) =
          run (value (.array [] :: frames)) (itemTokens (d :: items) ++ .closeArray :: rest) := by
        rw [hmore, List.append_assoc, run_firstItem (h d List.mem_cons_self)]
      rw [tokens, List.cons_append, List.append_assoc]
      exact hfirst.trans
        (run_itemTokens (fun d hd ↦ ih d hd (h d hd)) (List.cons_ne_nil d items) [] frames _)
  | object fields ih =>
    intro frames rest
    obtain ⟨hnames, h⟩ := isPlain_object_iff.1 h
    cases fields with
    | nil => rfl
    | cons f fields =>
      have hfirst : run (firstName frames) (fieldTokens (f :: fields) ++ .closeObject :: rest) =
          run (nextName [] frames) (fieldTokens (f :: fields) ++ .closeObject :: rest) := by
        cases fields <;> rfl
      have hclose : run (moreFields (textualFields (f :: fields)) frames) (.closeObject :: rest) =
          run (after (textual (object (f :: fields))) frames) rest := by
        rw [textual, ← ofFields_textualFields hnames]
        rfl
      rw [tokens, List.cons_append, List.append_assoc]
      exact (hfirst.trans (run_fieldTokens (fun f hf ↦ ih f hf (h f hf)) (List.cons_ne_nil f fields)
        [] frames _)).trans hclose
  | foreign => cases h

end Awaited

/-! ### Reading back -/

/-- A plain document is read back from its written form as what it says. -/
theorem read_print {indent : Indent} (hindent : IsBlankIndent indent) {d : Document}
    (h : d.isPlain = true) :
    ∃ t, print indent d = .ok t ∧ read t = some d.textual ∧ (indent = none → IsSingleLine t) := by
  obtain ⟨t, ht, hwritten⟩ := exists_printAt hindent h 0
  have hcut : tokens? t = some d.tokens := by
    have hcut := hwritten.cut [] nofun
    rw [List.append_nil, tokens?] at hcut
    simpa using hcut
  have hrun : Awaited.run (.value []) d.tokens = some (.nothing d.textual) := by
    have hrun := Awaited.run_tokens h [] []
    rw [List.append_nil] at hrun
    exact hrun
  refine ⟨t, ht, ?_, hwritten.singleLine⟩
  rw [read, hcut, Option.bind_eq_bind, Option.bind_some, hrun]
  rfl

end Json

open Json Document

/-! ### Styles -/

namespace CommandLine

/-- There is a style for every integer if documents are not indented, and else for those that can be
counted, in either direction. -/
theorem exists_styleWith_iff {pretty sorted timed : Bool} {n : Int} :
    (∃ style, styleWith pretty (.integer n) sorted timed = .ok style) ↔
      (pretty = true → -(Field.countLimit : Int) ≤ n ∧ n < Field.countLimit) := by
  cases pretty with
  | false => exact iff_of_true ⟨_, rfl⟩ nofun
  | true =>
    have hcount : Field.isCountable n = true ↔
        -(Field.countLimit : Int) ≤ n ∧ n < Field.countLimit := by
      rw [Field.isCountable, Bool.and_eq_true, decide_eq_true_eq, decide_eq_true_eq]
    rw [← hcount, forall_prop_of_true rfl, styleWith, if_pos rfl, indentOf, Field.spaces]
    cases Field.isCountable n with
    | false => exact iff_of_false (fun ⟨_, h⟩ ↦ nomatch h) nofun
    | true => exact iff_of_true ⟨_, rfl⟩ rfl

/-- A style has the settings that it is made of, and indents by blanks. -/
theorem styleWith_eq_ok {pretty sorted timed : Bool} {n : Int} {style : DocumentStyle}
    (h : styleWith pretty (.integer n) sorted timed = .ok style) :
    ∃ indent, style = ⟨indent, sorted, timed⟩ ∧ IsBlankIndent indent ∧
      (pretty = false → indent = none) := by
  cases pretty with
  | false =>
    cases h
    exact ⟨none, rfl, nofun, fun _ ↦ rfl⟩
  | true =>
    rw [styleWith, if_pos rfl, indentOf, Field.spaces] at h
    split_ifs at h
    · cases h
    · cases h
      refine ⟨_, rfl, ?_, nofun⟩
      rintro _ ⟨⟩ c hc
      rw [List.eq_of_mem_replicate hc]
      decide

end CommandLine

namespace DocumentStyle

/-- The document that is written: without the time of the run if that is not kept. -/
def kept (timed : Bool) (d : Document) : Document :=
  if timed then d else d.dropField RunResult.timingField

/-- To render a document is to print what is kept of it, with its names sorted if they are to be. -/
theorem render_eq (style : DocumentStyle) (d : Document) :
    style.render d =
      print style.indent (if style.sorted then (kept style.timed d).sortNames
        else kept style.timed d) :=
  rfl

/-- **Documents are read back as they are.** A document of texts, truth values, integers, paths,
arrays and objects is written in every style, on one line or indented by a number of spaces, and the
text is read back as the document, with the texts of its paths in their place and without the time
of the run if that is not kept. If the names are sorted, they come back in order and with the same
documents under them; else the names are as they were. A document that is not indented is on one
line. There is a style for every integer that can be counted, and for no other.

Of the time of the run nothing is asked if it is left out. -/
theorem render_read (pretty sorted timed : Bool) (n : Int) (d : Document)
    (h : (kept timed d).isPlain = true) :
    ((∃ style, CommandLine.styleWith pretty (.integer n) sorted timed = .ok style) ↔
      (pretty = true → -(Field.countLimit : Int) ≤ n ∧ n < Field.countLimit)) ∧
    ∀ style, CommandLine.styleWith pretty (.integer n) sorted timed = .ok style →
      ∃ t d', style.render d = .ok t ∧ Json.read t = some d' ∧
        (sorted = false → d' = (kept timed d).textual) ∧
        (sorted = true → Alike (kept timed d).textual d' ∧ d'.InOrder) ∧
        (pretty = false → IsSingleLine t) := by
  refine ⟨CommandLine.exists_styleWith_iff, fun style hstyle ↦ ?_⟩
  obtain ⟨indent, rfl, hblank, hnone⟩ := CommandLine.styleWith_eq_ok hstyle
  rw [render_eq]
  cases sorted with
  | false =>
    obtain ⟨t, ht, hread, hline⟩ := read_print hblank h
    exact ⟨t, _, ht, hread, fun _ ↦ rfl, nofun, fun hpretty ↦ hline (hnone hpretty)⟩
  | true =>
    obtain ⟨t, ht, hread, hline⟩ := read_print hblank (isPlain_sortNames h)
    exact ⟨t, _, ht, hread, nofun, fun _ ↦ ⟨alike_sortNames h, inOrder_sortNames h⟩,
      fun hpretty ↦ hline (hnone hpretty)⟩

/-- A document with names out of order, nested and empty lists and objects, every kind of escape, a
path, and the time of a run. -/
def nested : Document :=
  .object
    [("output".toList,
      .array [.text ['"', '\\', '\n', '\x01', 'é', '\x7f'], .integer (-120), .array [], .null]),
     (RunResult.timingField, .number .zero),
     ("info".toList, .object [("path".toList, .path (.ofText "a/b".toList)),
       ("deep".toList, .object []), ("".toList, .bool false)])]

/-- The document of the example, indented by three spaces and without its time. -/
theorem render_read_nested :
    (kept false nested).isPlain = true ∧
      ∃ style, CommandLine.styleWith true (.integer 3) true false = .ok style ∧
        ∃ t d', style.render nested = .ok t ∧ Json.read t = some d' ∧
          Alike (kept false nested).textual d' ∧ d'.InOrder := by
  have hplain : (kept false nested).isPlain = true := by decide +kernel
  obtain ⟨hstyle, hwritten⟩ := render_read true true false 3 nested hplain
  obtain ⟨style, hstyle⟩ := hstyle.2 fun _ ↦ by decide +kernel
  obtain ⟨t, d', ht, hread, -, hsorted, -⟩ := hwritten style hstyle
  exact ⟨hplain, style, hstyle, t, d', ht, hread, hsorted rfl⟩

/-- Not every integer is the size of an indentation. -/
theorem not_render_uncountable :
    (kept true (.object [])).isPlain = true ∧
      ¬∃ style t, CommandLine.styleWith true (.integer (-9223372036854775809)) true true =
        .ok style ∧ style.render (.object []) = .ok t := by
  refine ⟨by decide, ?_⟩
  rintro ⟨style, -, hstyle, -⟩
  have hsize := CommandLine.exists_styleWith_iff.1 ⟨style, hstyle⟩ rfl
  exact absurd hsize.1 (by decide +kernel)

end DocumentStyle

end Cobol
