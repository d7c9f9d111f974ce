import Cobol.Expression
import Cobol.Proofs.Text.Digit

/-!
# The grammar of expressions

What an expression is, apart from how it is read. A text spells tokens (`Spells`), a list of tokens
derives a value (`Derives`), and a text denotes a value if it spells an expression of that value
from its first to its last character (`Denotes`).

## Shape decisions

* A sign directly before digits may be spelled as part of a number or as an operator of its own. The
  spelling does not decide which: a text may spell several lists of tokens, and at most one of them
  derives.
* Numbers and names are maximal: the character behind a number is no digit, and the one behind a
  name could not go on with it. Without this `A-1` would spell a difference besides a name.
* The levels of the grammar are an index, so one induction goes over expressions, terms and factors
  together. Chains are grouped to the left by left recursion.
-/

namespace Cobol.Expression

open Text

/-! ### Tokens -/

/-- The tokens of an expression. -/
inductive Token
  /-- `(` -/
  | opening
  /-- `)` -/
  | closing
  /-- `+` -/
  | plus
  /-- `-` -/
  | minus
  /-- `*` -/
  | times
  /-- `/` -/
  | over
  /-- A run of digits behind a sign, which may be missing. -/
  | number (sign digits : Text)
  /-- A name. -/
  | name (t : Text)
  deriving DecidableEq, Repr

/-- A sign, which may be missing. -/
def IsSign (sign : Text) : Prop :=
  sign = [] ∨ sign = ['+'] ∨ sign = ['-']

/-- No sign is a sign. -/
theorem IsSign.nil : IsSign [] :=
  Or.inl rfl

/-- One character is a sign exactly if the readers take it for one. -/
theorem isSign_singleton_iff {c : Char} : IsSign [c] ↔ (c == '+' || c == '-') = true := by
  simp [IsSign]

/-- A sign is no blank. -/
theorem IsSign.not_blank {sign : Text} (hsign : IsSign sign) : ∀ c ∈ sign, isBlank c = false := by
  rcases hsign with rfl | rfl | rfl <;> decide

/-- The characters of a number in front of the rest of a text: an optional sign and all the digits
that follow. -/
structure IsNumber (sign digits rest : Text) : Prop where
  /-- The sign is missing, plus or minus. -/
  isSign : IsSign sign
  /-- There is a digit. -/
  ne_nil : digits ≠ []
  /-- The digits are digits. -/
  all_digits : ∀ c ∈ digits, isDigit c = true
  /-- No digit follows. -/
  maximal : ∀ c ∈ rest.head?, isDigit c = false

/-- The characters of a name in front of the rest of a text: a letter and all the characters of a
name that follow. -/
structure IsName (t rest : Text) : Prop where
  /-- The first character is a letter, and the others may stand in a name. -/
  chars : ∃ c more, t = c :: more ∧ isLetter c = true ∧ ∀ a ∈ more, isNameChar a = true
  /-- No character of a name follows. -/
  maximal : ∀ c ∈ rest.head?, isNameChar c = false

/-- The token is spelled by the characters `w` in front of `rest`. -/
def Token.SpelledBy : Token → (w rest : Text) → Prop
  | .opening, w, _ => w = ['(']
  | .closing, w, _ => w = [')']
  | .plus, w, _ => w = ['+']
  | .minus, w, _ => w = ['-']
  | .times, w, _ => w = ['*']
  | .over, w, _ => w = ['/']
  | .number sign digits, w, rest => w = sign ++ digits ∧ IsNumber sign digits rest
  | .name t, w, rest => w = t ∧ IsName t rest

/-- The text `t` is made of the tokens, each behind any blanks, and, behind blanks, of `rest`. -/
inductive Spells : List Token → (t rest : Text) → Prop
  /-- Blanks spell no token. -/
  | nil (t : Text) : Spells [] t (trimLeft t)
  /-- A token behind blanks, and the other tokens. -/
  | cons {token : Token} {tokens : List Token} {t w u rest : Text} (split : trimLeft t = w ++ u)
      (spelled : token.SpelledBy w u) (others : Spells tokens u rest) :
      Spells (token :: tokens) t rest

/-! ### Values -/

/-- The value of a number. -/
def numberValue (sign digits : Text) : Int :=
  if sign = ['-'] then -(Numeral.ofDigits digits : Int) else Numeral.ofDigits digits

/-- The levels of the grammar. -/
inductive Level
  /-- Terms with `+` and `-`. -/
  | expression
  /-- Factors with `*` and `/`. -/
  | term
  /-- What is not divided further. -/
  | factor

/-- The tokens form an expression, a term or a factor of the given value. A division by zero has no
value, and a name is worth the integer that its slot denotes. -/
inductive Derives (store : Store) : Level → List Token → Int → Prop
  /-- A term is an expression. -/
  | term {tokens : List Token} {a : Int} (h : Derives store .term tokens a) :
      Derives store .expression tokens a
  /-- A sum. -/
  | add {left right : List Token} {a b : Int} (hleft : Derives store .expression left a)
      (hright : Derives store .term right b) :
      Derives store .expression (left ++ .plus :: right) (a + b)
  /-- A difference. -/
  | sub {left right : List Token} {a b : Int} (hleft : Derives store .expression left a)
      (hright : Derives store .term right b) :
      Derives store .expression (left ++ .minus :: right) (a - b)
  /-- A factor is a term. -/
  | factor {tokens : List Token} {a : Int} (h : Derives store .factor tokens a) :
      Derives store .term tokens a
  /-- A product. -/
  | mul {left right : List Token} {a b : Int} (hleft : Derives store .term left a)
      (hright : Derives store .factor right b) :
      Derives store .term (left ++ .times :: right) (a * b)
  /-- A quotient, rounded toward zero. -/
  | div {left right : List Token} {a b : Int} (hleft : Derives store .term left a)
      (hright : Derives store .factor right b) (hne : b ≠ 0) :
      Derives store .term (left ++ .over :: right) (a.tdiv b)
  /-- An expression in parentheses. -/
  | parentheses {tokens : List Token} {a : Int} (h : Derives store .expression tokens a) :
      Derives store .factor (.opening :: tokens ++ [.closing]) a
  /-- A number. -/
  | number (sign digits : Text) :
      Derives store .factor [.number sign digits] (numberValue sign digits)
  /-- A name. -/
  | name {t : Text} {a : Int} (h : (store.get t).integer = .ok a) :
      Derives store .factor [.name t] a

/-- The text is an expression of the given value. -/
def Denotes (store : Store) (t : Text) (a : Int) : Prop :=
  ∃ tokens, Spells tokens t [] ∧ Derives store .expression tokens a

/-! ### Spelling -/

namespace Spells

/-- No tokens are spelled by blanks alone, and what is left begins behind them. -/
theorem nil_iff {t rest : Text} : Spells [] t rest ↔ trimLeft t = rest := by
  constructor
  · rintro ⟨⟩
    rfl
  · rintro rfl
    exact .nil t

/-- What is left behind tokens begins with no blank. -/
theorem trimLeft_rest {tokens : List Token} {t rest : Text} (h : Spells tokens t rest) :
    trimLeft rest = rest := by
  induction h with
  | nil t => exact trimLeft_trimLeft t
  | cons _ _ _ ih => exact ih

/-- Leading blanks do not matter. -/
theorem trimLeft_iff {tokens : List Token} {t rest : Text} :
    Spells tokens (trimLeft t) rest ↔ Spells tokens t rest := by
  cases tokens with
  | nil => rw [nil_iff, nil_iff, trimLeft_trimLeft]
  | cons token tokens =>
    constructor
    · rintro (_ | ⟨split, spelled, others⟩)
      exact .cons (by rwa [trimLeft_trimLeft] at split) spelled others
    · rintro (_ | ⟨split, spelled, others⟩)
      exact .cons (by rwa [trimLeft_trimLeft]) spelled others

/-- Tokens behind tokens are spelled by texts behind each other. -/
theorem append {left right : List Token} {t u rest : Text} (hleft : Spells left t u)
    (hright : Spells right u rest) : Spells (left ++ right) t rest := by
  induction hleft with
  | nil t => exact trimLeft_iff.1 hright
  | cons split spelled _ ih => exact .cons split spelled (ih hright)

/-- Where a text spells tokens behind tokens, there is a place between them. -/
theorem exists_of_append {left right : List Token} {t rest : Text}
    (h : Spells (left ++ right) t rest) : ∃ u, Spells left t u ∧ Spells right u rest := by
  induction left generalizing t with
  | nil => exact ⟨trimLeft t, .nil t, trimLeft_iff.2 h⟩
  | cons token left ih =>
    cases h with
    | cons split spelled others =>
      obtain ⟨u, hleft, hright⟩ := ih others
      exact ⟨u, .cons split spelled hleft, hright⟩

/-- What is left behind tokens is the end of the text. -/
theorem suffix {tokens : List Token} {t rest : Text} (h : Spells tokens t rest) : rest <:+ t := by
  induction h with
  | nil t => exact List.dropWhile_suffix _
  | cons split _ _ ih =>
    have hsplit : _ <:+ trimLeft _ := ⟨_, split.symm⟩
    exact (ih.trans hsplit).trans (List.dropWhile_suffix _)

/-- A token of one character, which no character behind it can change. -/
theorem single_iff {token : Token} {c : Char} (htoken : ∀ w u, token.SpelledBy w u ↔ w = [c])
    {tokens : List Token} {t rest : Text} :
    Spells (token :: tokens) t rest ↔ ∃ u, trimLeft t = c :: u ∧ Spells tokens u rest := by
  constructor
  · rintro (_ | ⟨split, spelled, others⟩)
    rw [(htoken _ _).1 spelled] at split
    exact ⟨_, split, others⟩
  · rintro ⟨u, split, others⟩
    exact .cons split ((htoken [c] u).2 rfl) others

end Spells

/-- The open parentheses among tokens. -/
def openings (tokens : List Token) : Nat :=
  tokens.count .opening

/-- Tokens have no more open parentheses than the text that spells them. -/
theorem Spells.openings_le {tokens : List Token} {t rest : Text} (h : Spells tokens t rest) :
    openings tokens ≤ t.count '(' := by
  induction h with
  | nil t => exact Nat.zero_le _
  | @cons token tokens t w u rest split spelled _ ih =>
    have hcount : (trimLeft t).count '(' ≤ t.count '(' :=
      (List.dropWhile_sublist _).count_le _
    rw [split, List.count_append] at hcount
    rw [openings, List.count_cons]
    split
    · rename_i htoken
      obtain rfl : token = .opening := by simpa using htoken
      rw [show w = ['('] from spelled, List.count_singleton_self] at hcount
      rw [openings] at ih
      omega
    · rw [openings] at ih
      omega

/-! ### Blanks at the end -/

/-- No blank can stand in a name. -/
theorem isBlank_of_isNameChar {c : Char} (h : isNameChar c = true) : isBlank c = false :=
  isBlank_eq_false_of (by decide +kernel) h

namespace IsName

variable {t rest : Text}

/-- A name has at least one character. -/
theorem ne_nil (h : IsName t rest) : t ≠ [] := by
  obtain ⟨c, more, rfl, -⟩ := h.chars
  exact List.cons_ne_nil c more

/-- Every character of a name can stand in a name. -/
theorem isNameChar (h : IsName t rest) : ∀ c ∈ t, Expression.isNameChar c = true := by
  obtain ⟨c, more, rfl, hletter, hmore⟩ := h.chars
  refine List.forall_mem_cons.2 ⟨?_, hmore⟩
  simp [Expression.isNameChar, isAlphanumeric, hletter]

/-- There is no blank in a name. -/
theorem not_blank (h : IsName t rest) : ∀ c ∈ t, isBlank c = false := fun c hc ↦
  isBlank_of_isNameChar (h.isNameChar c hc)

end IsName

/-- The characters of a token are no blanks, and there is one. -/
theorem Token.SpelledBy.not_blank {token : Token} {w u : Text} (h : token.SpelledBy w u) :
    w ≠ [] ∧ ∀ c ∈ w, isBlank c = false := by
  cases token with
  | number sign digits =>
    obtain ⟨rfl, hnumber⟩ := h
    refine ⟨fun hnil ↦ hnumber.ne_nil (List.append_eq_nil_iff.1 hnil).2, fun c hc ↦ ?_⟩
    rcases List.mem_append.1 hc with hc | hc
    · exact hnumber.isSign.not_blank c hc
    · exact isBlank_of_isDigit (hnumber.all_digits c hc)
  | name t =>
    obtain ⟨rfl, hname⟩ := h
    exact ⟨hname.ne_nil, hname.not_blank⟩
  | _ =>
    obtain rfl := h
    exact ⟨List.cons_ne_nil _ _, by decide⟩

/-- Blanks at the end extend no token. -/
theorem forall_head?_append_iff {p : Char → Bool} (hp : ∀ {c}, p c = true → isBlank c = false)
    {b : Text} (hb : AllBlank b) (u : Text) :
    (∀ c ∈ (u ++ b).head?, p c = false) ↔ ∀ c ∈ u.head?, p c = false := by
  cases u with
  | nil =>
    refine ⟨fun _ ↦ nofun, fun _ c hc ↦ ?_⟩
    rw [← Bool.not_eq_true]
    intro hpc
    have hblank := hb c (List.mem_of_mem_head? hc)
    rw [hp hpc] at hblank
    cases hblank
  | cons d u => rfl

/-- Blanks at the end of the text do not change what a token is spelled by. -/
theorem Token.spelledBy_append_iff {token : Token} {w u b : Text} (hb : AllBlank b) :
    token.SpelledBy w (u ++ b) ↔ token.SpelledBy w u := by
  cases token with
  | number sign digits =>
    have hhead := forall_head?_append_iff isBlank_of_isDigit hb u
    refine and_congr_right fun _ ↦ ⟨fun h ↦ ?_, fun h ↦ ?_⟩
    · exact ⟨h.isSign, h.ne_nil, h.all_digits, hhead.1 h.maximal⟩
    · exact ⟨h.isSign, h.ne_nil, h.all_digits, hhead.2 h.maximal⟩
  | name t =>
    have hhead := forall_head?_append_iff isBlank_of_isNameChar hb u
    refine and_congr_right fun _ ↦ ⟨fun h ↦ ?_, fun h ↦ ?_⟩
    · exact ⟨h.chars, hhead.1 h.maximal⟩
    · exact ⟨h.chars, hhead.2 h.maximal⟩
  | _ => rfl

/-- A text that ends in a token before blanks is cut in the same place without them. -/
theorem eq_append_of_append_eq_append {s w u b : Text} (hb : AllBlank b)
    (hw : ∀ c ∈ w, isBlank c = false) (h : s ++ b = w ++ u) : ∃ v, s = w ++ v ∧ u = v ++ b := by
  rcases List.append_eq_append_iff.1 h with ⟨x, hx, hbx⟩ | ⟨v, hv, hu⟩
  · -- characters of the token among the blanks: there are none
    have hnil : x = [] := by
      refine List.eq_nil_iff_forall_not_mem.2 fun c hc ↦ ?_
      have hblank := hb c (hbx ▸ List.mem_append_left u hc)
      rw [hw c (hx ▸ List.mem_append_right s hc)] at hblank
      cases hblank
    subst hnil
    refine ⟨[], ?_, ?_⟩
    · simpa using hx.symm
    · simpa using hbx.symm
  · exact ⟨v, hv, hu⟩

namespace Spells

/-- Trailing blanks do not matter. -/
theorem append_allBlank_iff {b : Text} (hb : AllBlank b) {tokens : List Token} {t : Text} :
    Spells tokens (t ++ b) [] ↔ Spells tokens t [] := by
  induction tokens generalizing t with
  | nil =>
    rw [nil_iff, nil_iff, trimLeft_eq_nil_iff, trimLeft_eq_nil_iff, allBlank_append]
    exact and_iff_left hb
  | cons token tokens ih =>
    constructor
    · rintro (_ | ⟨split, spelled, others⟩)
      obtain ⟨hne, hnot⟩ := spelled.not_blank
      have ht : ¬AllBlank t := by
        intro ht
        rw [trimLeft_eq_nil_iff.2 (allBlank_append.2 ⟨ht, hb⟩)] at split
        exact hne (List.append_eq_nil_iff.1 split.symm).1
      rw [trimLeft_append_of_not_allBlank ht] at split
      -- the first token ends before the blanks
      obtain ⟨v, hsplit, rfl⟩ := eq_append_of_append_eq_append hb hnot split
      exact .cons hsplit ((Token.spelledBy_append_iff hb).1 spelled) (ih.1 others)
    · rintro (_ | ⟨split, spelled, others⟩)
      have ht : ¬AllBlank t := by
        intro ht
        rw [trimLeft_eq_nil_iff.2 ht] at split
        exact spelled.not_blank.1 (List.append_eq_nil_iff.1 split.symm).1
      refine .cons ?_ ((Token.spelledBy_append_iff hb).2 spelled) (ih.2 others)
      rw [trimLeft_append_of_not_allBlank ht, split, List.append_assoc]

end Spells

/-- Blanks around an expression do not matter. -/
theorem denotes_trim_iff {store : Store} {t : Text} {a : Int} :
    Denotes store (trim t) a ↔ Denotes store t a := by
  obtain ⟨lead, trail, hlead, htrail, ht⟩ := exists_blanks_trim t
  refine exists_congr fun tokens ↦ and_congr_left fun _ ↦ ?_
  rw [← Spells.append_allBlank_iff htrail, ← Spells.trimLeft_iff,
    ← trimLeft_append_of_allBlank hlead, ← ht, Spells.trimLeft_iff]

end Cobol.Expression
