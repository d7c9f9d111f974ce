import Cobol.Proofs.Expression.Soundness

/-!
# Every expression is accepted

`Derives.complete`: what the grammar derives, the reader reads, provided that its digits can be
converted (`Readable`) and that its parentheses are within the allowance. A chain does not stop
behind the items of a derivation, so for terms and expressions the statement is that the reader is
where it would be if it had just read them (`Complete`).

## Shape decisions

* The reader takes as much as it can, and a derivation knows nothing of what stands behind it. So
  `Complete` speaks of any text behind the tokens: reading from the front is reading on from behind
  them, with the value that has been derived.
* The allowance is asked for by the number of open parentheses of the tokens. It is not the depth,
  but it is what is known of a text without reading it.
* Parentheses are the only rule in which the reader of expressions is used again, and there it is
  used with a smaller allowance. This is the induction.
-/

namespace Cobol.Expression

open Text

/-! ### Texts that can be converted -/

/-- No run of decimal digits is longer than may be read. -/
def ShortRuns (t : Text) : Prop :=
  ∀ w, w <:+: t → (∀ c ∈ w, isDecimal c = true) → w.length ≤ digitLimit

/-- No run of digits is longer than its text. -/
theorem shortRuns_of_length_le {t : Text} (h : t.length ≤ digitLimit) : ShortRuns t :=
  fun _ hw _ ↦ Nat.le_trans hw.length_le h

/-- Every digit of the text has a place value, and no run of them is longer than may be read. -/
structure Readable (t : Text) : Prop where
  /-- Digits are decimal. -/
  decimal : ∀ c ∈ t, isDigit c = true → isDecimal c = true
  /-- Runs of digits are short. -/
  short : ShortRuns t

/-- What is cut out of a text that can be converted can be converted. -/
theorem Readable.of_isInfix {t u : Text} (h : Readable t) (hu : u <:+: t) : Readable u :=
  ⟨fun c hc ↦ h.decimal c (hu.subset hc), fun w hw ↦ h.short w (hw.trans hu)⟩

/-- The numbers of a text that can be converted are read as their values. -/
theorem Readable.read_append {t sign digits : Text} (ht : Readable t)
    (hsign : IsSign sign) (hne : digits ≠ [])
    (hdigits : ∀ c ∈ digits, isDigit c = true) (hwithin : digits <:+: t) :
    Numeral.read (sign ++ digits) = .ok (numberValue sign digits) := by
  have hdecimal : ∀ c ∈ digits, isDecimal c = true := fun c hc ↦
    ht.decimal c (hwithin.subset hc) (hdigits c hc)
  exact Numeral.read_append_of_isDecimal hsign hne hdecimal (ht.short digits hwithin hdecimal)

/-! ### What is derived is read -/

/-- A chain stops in front of what is no operator. -/
theorem chainEnd_of_stop {operators : Operators} {item : Reader} {u : Text}
    (hu : trimLeft u = u) (hstop : ∀ c ∈ u.head?, operators c = none) (a : Int) :
    chainEnd operators item a u = .ok (a, u) := by
  rw [chainEnd_eq, hu]
  cases u with
  | nil => rfl
  | cons c rest =>
    dsimp only
    rw [hstop c rfl]

/-- A chain goes on with an operator and an item that has a value. -/
theorem chainEnd_of_item {operators : Operators} {item : Reader} {t rest u : Text} {c : Char}
    {operation : Int → Int → Option Int} {a b result : Int} (ht : trimLeft t = c :: rest)
    (hoperator : operators c = some operation) (hitem : item.plain rest = .ok (b, u))
    (hresult : operation a b = some result) :
    chainEnd operators item a t = chainEnd operators item result u := by
  rw [chainEnd_eq, ht]
  dsimp only
  rw [hoperator]
  dsimp only
  rw [hitem]
  dsimp only
  rw [hresult]

/-- The reader is where it would be if it had just read the tokens. -/
def Complete (store : Store) : Level → List Token → Int → Prop
  | .factor, tokens, a => ∀ {allowance : Nat} {t u : Text}, Readable t →
    openings tokens ≤ allowance → Spells tokens t u →
      Reader.plain (factor store (expression store allowance)) t = .ok (a, u)
  | .term, tokens, a => ∀ {allowance : Nat} {t u : Text}, Readable t →
    openings tokens ≤ allowance → Spells tokens t u →
      Reader.plain (chain multiplicative (factor store (expression store allowance))) t =
        chainEnd multiplicative (factor store (expression store allowance)) a u
  | .expression, tokens, a => ∀ {allowance : Nat} {t u : Text}, Readable t →
    openings tokens ≤ allowance → Spells tokens t u → (∀ c ∈ u.head?, multiplicative c = none) →
      (expression store (allowance + 1)).plain t =
        chainEnd additive (chain multiplicative (factor store (expression store allowance))) a u

/-- Parentheses are counted token by token. -/
theorem openings_append (left right : List Token) :
    openings (left ++ right) = openings left + openings right :=
  List.count_append

/-- A token more opens no fewer parentheses. -/
theorem openings_le_cons (token : Token) (tokens : List Token) :
    openings tokens ≤ openings (token :: tokens) :=
  List.count_le_count_cons

/-- What stands behind the first character of a text is part of it. -/
theorem infix_of_trimLeft {t u rest : Text} {c : Char} (hu : u <:+ t)
    (h : trimLeft u = c :: rest) : rest <:+: t := by
  have hrest : rest <:+ trimLeft u := ⟨[c], h.symm⟩
  exact ((hrest.trans (List.dropWhile_suffix _)).trans hu).isInfix

section

variable {store : Store}

/-- A factor is a term: a chain of one item. -/
theorem complete_factor {tokens : List Token} {a : Int} (h : Complete store .factor tokens a) :
    Complete store .term tokens a := by
  intro allowance t u ht hopenings hspells
  rw [plain_chain, h ht hopenings hspells]
  rfl

/-- A term is an expression: a chain of one item. -/
theorem complete_term {tokens : List Token} {a : Int} (h : Complete store .term tokens a) :
    Complete store .expression tokens a := by
  intro allowance t u ht hopenings hspells hstop
  have hterm := h ht hopenings hspells
  rw [chainEnd_of_stop hspells.trimLeft_rest hstop] at hterm
  rw [expression, plain_chain, hterm]
  rfl

/-- One more factor. -/
theorem complete_multiplicative {left right : List Token} {token : Token} {c : Char}
    {operation : Int → Int → Option Int} {a b result : Int} (htoken : token.IsOperator c)
    (hoperator : multiplicative c = some operation) (hresult : operation a b = some result)
    (hleft : Complete store .term left a) (hright : Complete store .factor right b) :
    Complete store .term (left ++ token :: right) result := by
  intro allowance t u ht hopenings hspells
  obtain ⟨v, hspellsLeft, hspells⟩ := hspells.exists_of_append
  obtain ⟨rest, hv, hspellsRight⟩ := (Spells.single_iff htoken).1 hspells
  have hrest := ht.of_isInfix (infix_of_trimLeft hspellsLeft.suffix hv)
  have hcount := openings_le_cons token right
  rw [openings_append] at hopenings
  rw [hleft ht (by omega) hspellsLeft,
    chainEnd_of_item hv hoperator (hright hrest (by omega) hspellsRight) hresult]

/-- One more term. Its operator is no operator between factors, so the term before it ends there. -/
theorem complete_additive {left right : List Token} {token : Token} {c : Char}
    {operation : Int → Int → Option Int} {a b result : Int} (htoken : token.IsOperator c)
    (hoperator : additive c = some operation) (hstop : multiplicative c = none)
    (hresult : operation a b = some result) (hleft : Complete store .expression left a)
    (hright : Complete store .term right b) :
    Complete store .expression (left ++ token :: right) result := by
  intro allowance t u ht hopenings hspells hend
  obtain ⟨v, hspellsLeft, hspells⟩ := hspells.exists_of_append
  obtain ⟨rest, hv, hspellsRight⟩ := (Spells.single_iff htoken).1 hspells
  have hrest := ht.of_isInfix (infix_of_trimLeft hspellsLeft.suffix hv)
  have hcount := openings_le_cons token right
  rw [openings_append] at hopenings
  have hfewer : openings right ≤ allowance := by omega
  have hterm := hright hrest hfewer hspellsRight
  rw [chainEnd_of_stop hspellsRight.trimLeft_rest hend] at hterm
  have hvstop : ∀ d ∈ v.head?, multiplicative d = none := by
    rw [← hspellsLeft.trimLeft_rest, hv]
    rintro d ⟨⟩
    exact hstop
  -- the reader is behind `left`, at the operator
  rw [hleft ht (by omega) hspellsLeft hvstop, chainEnd_of_item hv hoperator hterm hresult]

/-- **Parentheses are read.** The opening one takes one from the allowance, the expression inside is
read with what is left, and the closing one is met where the chain inside stops. -/
theorem complete_parentheses {tokens : List Token} {a : Int}
    (h : Complete store .expression tokens a) :
    Complete store .factor (.opening :: tokens ++ [.closing]) a := by
  intro allowance t u ht hopenings hspells
  obtain ⟨rest, hrest, hspells⟩ := (Spells.single_iff fun _ _ ↦ Iff.rfl).1 hspells
  obtain ⟨v, hinner, hspells⟩ := hspells.exists_of_append
  obtain ⟨after, hv, hspells⟩ := (Spells.single_iff fun _ _ ↦ Iff.rfl).1 hspells
  rw [hinner.trimLeft_rest] at hv
  obtain ⟨inner, rfl⟩ : ∃ inner, allowance = inner + 1 := by
    refine Nat.exists_eq_succ_of_ne_zero fun hzero ↦ ?_
    rw [hzero, List.cons_append, openings, List.count_cons_self] at hopenings
    omega
  have hfewer : openings tokens ≤ inner := by
    rw [List.cons_append, openings, List.count_cons_self, List.count_append] at hopenings
    rw [openings]
    omega
  have hreadable := ht.of_isInfix (infix_of_trimLeft (List.suffix_refl t) hrest)
  have hstop {operators : Operators} (hoperators : operators ')' = none) :
      ∀ d ∈ v.head?, operators d = none := by
    rw [hv]
    rintro d ⟨⟩
    exact hoperators
  -- a closing parenthesis is no operator, so both chains inside end there
  have hexpression := h hreadable hfewer hinner (hstop rfl)
  rw [chainEnd_of_stop hinner.trimLeft_rest (hstop rfl), hv] at hexpression
  rw [plain_factor, hrest]
  dsimp only
  rw [if_pos (show ('(' == '(') = true from rfl), hexpression]
  cases hspells
  rfl

/-- A name is read as the integer of its slot. -/
theorem complete_name {name : Text} {a : Int} (h : (store.get name).integer = .ok a) :
    Complete store .factor [.name name] a := by
  intro allowance t u ht hopenings hspells
  obtain _ | ⟨hsplit, ⟨rfl, hname⟩, hrest⟩ := hspells
  cases hrest
  rw [plain_factor_of_name hsplit hname, h]
  rfl

/-- A number is read as its value. -/
theorem complete_number (sign digits : Text) :
    Complete store .factor [.number sign digits] (numberValue sign digits) := by
  intro allowance t u ht hopenings hspells
  obtain _ | ⟨hsplit, ⟨rfl, hnumber⟩, hrest⟩ := hspells
  cases hrest
  rename_i v
  have hwithin : digits <:+: t := by
    have hdigits : digits <:+: trimLeft t := ⟨sign, v, hsplit.symm⟩
    exact hdigits.trans (List.dropWhile_suffix _).isInfix
  have hread := ht.read_append hnumber.isSign hnumber.ne_nil hnumber.all_digits hwithin
  rw [plain_factor_of_number hsplit hnumber, hread]
  rfl

/-- **What the grammar derives, the reader reads.** -/
theorem Derives.complete {level : Level} {tokens : List Token} {a : Int}
    (h : Derives store level tokens a) : Complete store level tokens a := by
  induction h with
  | term _ ih => exact complete_term ih
  | add _ _ hleft hright =>
    exact complete_additive (fun _ _ ↦ Iff.rfl) rfl rfl rfl hleft hright
  | sub _ _ hleft hright =>
    exact complete_additive (fun _ _ ↦ Iff.rfl) rfl rfl rfl hleft hright
  | factor _ ih => exact complete_factor ih
  | mul _ _ hleft hright =>
    exact complete_multiplicative (fun _ _ ↦ Iff.rfl) rfl rfl hleft hright
  | div _ _ hne hleft hright =>
    exact complete_multiplicative (fun _ _ ↦ Iff.rfl) rfl (if_neg hne) hleft hright
  | parentheses _ ih => exact complete_parentheses ih
  | number sign digits => exact complete_number sign digits
  | name h => exact complete_name h

end

end Cobol.Expression
