import Cobol.Proofs.Expression.Completeness

/-!
# What evaluation answers

* `faultsIn_expression`: the faults that can end a reading are those of its numbers and names, and
  that of an allowance that is used up.
* `faultless_expression`: no fault ends the reading of a text whose digits can be converted and
  whose open parentheses are within the allowance.
* `expression_extends`: a reading that stays within its allowance does not change with it. With this
  the answers under a small allowance are those under a large one.
* `evaluate_congr`: nothing of a store counts but the integers of its slots.
* `evaluate_cases`: an evaluation that does not run out of its allowance answers, and its answer is
  what the grammar says.

## Shape decisions

* A reading ends in a value, a failure or a fault. Failures are answers: they belong to the text.
  Faults belong to the surroundings, and each law says which ones there can be.
* The laws of chains are stated once, over operators and items, and used for terms and for
  expressions.
* More allowance is treated by a relation of readers (`Extends`), in the same way as for blocks.
-/

namespace Cobol.Expression

open Text

/-! ### Faults of a reading -/

/-- A fault that ends the reading is one of those. -/
def FaultsIn (P : Fault → Prop) (x : Except Stop (Int × Text)) : Prop :=
  ∀ f, x = .error (.fault f) → P f

section

variable {P : Fault → Prop}

/-- A result is no fault. -/
theorem faultsIn_ok (result : Int × Text) : FaultsIn P (.ok result) := nofun

/-- A failure of the expression is no fault. -/
theorem faultsIn_failure (reason : Reason) (unread : Text) :
    FaultsIn P (.error (.failure reason unread)) := nofun

/-- A number that has been read brings the faults of its conversion. -/
theorem faultsIn_converted {x : Except Fault Int} (h : ∀ f, x = .error f → P f) (u : Text) :
    FaultsIn P (converted u x) := by
  cases x with
  | ok a => exact faultsIn_ok _
  | error fault =>
    rintro f ⟨⟩
    exact h fault rfl

/-- A closing parenthesis brings no fault of its own. -/
theorem faultsIn_closed (a : Int) (t : Text) : FaultsIn P (closed a t) := by
  unfold closed
  split
  · exact faultsIn_ok _
  · exact faultsIn_failure _ _

section

variable {operators : Operators} {item : Reader} {Q : Text → Prop}
  (hQ : ∀ {t u : Text}, u <:+ t → Q t → Q u)
  (hitem : ∀ {t : Text}, Q t → FaultsIn P (item.plain t))
  (hrest : ∀ {t u : Text} {a : Int}, item.plain t = .ok (a, u) → u <:+ t)

include hQ hitem hrest

/-- The items behind an operator bring the faults of items. A chain is read from the left, so the
induction is on the length of what is left. -/
theorem faultsIn_chainEnd (a : Int) {t : Text} (ht : Q t) :
    FaultsIn P (chainEnd operators item a t) := by
  rw [chainEnd_eq]
  split
  · exact faultsIn_ok _
  · rename_i c rest hsplit
    have hsuffix : rest <:+ t := (List.suffix_cons c rest).trans
      (hsplit ▸ List.dropWhile_suffix isBlank)
    split
    · exact faultsIn_ok _
    · split
      · rename_i stop hstop
        exact hstop ▸ hitem (hQ hsuffix ht)
      · rename_i b u hplain
        split
        · exact faultsIn_failure _ _
        · have hshorter : u.length < t.length :=
            Nat.lt_trans (Reader.length_of_plain hplain) (length_lt_of_trimLeft hsplit)
          exact faultsIn_chainEnd _ (hQ ((hrest hplain).trans hsuffix) ht)
termination_by t.length
decreasing_by exact hshorter

/-- A chain brings the faults of its items. -/
theorem faultsIn_chain {t : Text} (ht : Q t) :
    FaultsIn P (Reader.plain (chain operators item) t) := by
  rw [plain_chain]
  cases hplain : item.plain t with
  | error stop =>
    have hstop := hitem ht
    rwa [hplain] at hstop
  | ok first =>
    exact faultsIn_chainEnd hQ hitem hrest first.1 (hQ (hrest hplain) ht)

end

/-- The faults of a factor are those of its number, of its name or of what is in its parentheses. -/
theorem faultsIn_factor {store : Store} {nested : Reader} {t : Text}
    (hnumber : ∀ {sign digits : Text}, IsSign sign → digits ≠ [] →
      (∀ c ∈ digits, isDigit c = true) → sign ++ digits <:+: t →
      ∀ f, Numeral.read (sign ++ digits) = .error f → P f)
    (hname : ∀ name f, (store.get name).integer = .error f → P f)
    (hnested : ∀ {rest : Text}, trimLeft t = '(' :: rest → FaultsIn P (nested.plain rest)) :
    FaultsIn P (Reader.plain (factor store nested) t) := by
  have htrim : trimLeft t <:+: t := (List.dropWhile_suffix _).isInfix
  rw [plain_factor]
  split
  · exact faultsIn_failure _ _
  · rename_i c rest hsplit
    split
    · rename_i hc
      obtain rfl : c = '(' := by simpa using hc
      split
      · rename_i stop hstop
        exact hstop ▸ hnested hsplit
      · exact faultsIn_closed _ _
    · split
      · rename_i hc
        split
        · exact faultsIn_failure _ _
        · rename_i hne
          have hsign : IsSign [c] := isSign_singleton_iff.2 hc
          -- what is read as a number stands in the text, sign and digits together
          have hwithin : [c] ++ rest.takeWhile isDigit <:+: trimLeft t := by
            rw [hsplit]
            exact ((List.prefix_cons_inj c).2 (List.takeWhile_prefix _)).isInfix
          exact faultsIn_converted (hnumber hsign hne (fun d hd ↦ List.mem_takeWhile_imp hd)
            (hwithin.trans htrim)) _
      · split
        · rename_i hc
          have htake : (c :: rest).takeWhile isDigit = c :: rest.takeWhile isDigit :=
            List.takeWhile_cons_of_pos hc
          have hwithin : [] ++ c :: rest.takeWhile isDigit <:+: trimLeft t := by
            rw [hsplit, List.nil_append, ← htake]
            exact (List.takeWhile_prefix _).isInfix
          have hdigits : ∀ d ∈ c :: rest.takeWhile isDigit, isDigit d = true := by
            rw [← htake]
            exact fun d hd ↦ List.mem_takeWhile_imp hd
          exact faultsIn_converted (hnumber .nil (List.cons_ne_nil _ _) hdigits
            (hwithin.trans htrim)) _
        · split
          · exact faultsIn_converted (hname (c :: rest.takeWhile isNameChar)) _
          · exact faultsIn_failure _ _

/-- **The faults of an expression.** `Q` says which texts may be read under which allowance; it is
handed down to what is left of a text and, with an allowance less, to what is in parentheses. -/
theorem faultsIn_expression {store : Store} {Q : Nat → Text → Prop}
    (hsuffix : ∀ {n : Nat} {t u : Text}, u <:+ t → Q n t → Q n u)
    (hopen : ∀ {n : Nat} {t rest : Text}, Q (n + 1) t → trimLeft t = '(' :: rest → Q n rest)
    (hzero : ∀ {t : Text}, Q 0 t → P .nesting)
    (hnumber : ∀ {n : Nat} {t sign digits : Text}, Q n t → IsSign sign → digits ≠ [] →
      (∀ c ∈ digits, isDigit c = true) → sign ++ digits <:+: t →
      ∀ f, Numeral.read (sign ++ digits) = .error f → P f)
    (hname : ∀ name f, (store.get name).integer = .error f → P f) {allowance : Nat} {t : Text}
    (ht : Q allowance t) : FaultsIn P ((expression store allowance).plain t) := by
  induction allowance generalizing t with
  | zero =>
    rintro f ⟨⟩
    exact hzero ht
  | succ allowance ih =>
    have hfactor {t : Text} (h : Q (allowance + 1) t) :
        FaultsIn P (Reader.plain (factor store (expression store allowance)) t) :=
      faultsIn_factor (hnumber h) hname fun hsplit ↦ ih (hopen h hsplit)
    have hfactorRest {t u : Text} {a : Int}
        (h : Reader.plain (factor store (expression store allowance)) t = .ok (a, u)) :
        u <:+ t := by
      obtain ⟨tokens, -, hspells⟩ := plain_factor_sound plain_expression_sound h
      exact hspells.suffix
    have htermRest {t u : Text} {a : Int}
        (h : Reader.plain (chain multiplicative (factor store (expression store allowance))) t =
          .ok (a, u)) : u <:+ t := by
      obtain ⟨tokens, -, hspells⟩ := plain_term_sound plain_expression_sound h
      exact hspells.suffix
    exact faultsIn_chain hsuffix (faultsIn_chain hsuffix hfactor hfactorRest) htermRest ht

end

/-! ### No faults -/

/-- The reading is not ended by a fault. -/
def Faultless (x : Except Stop (Int × Text)) : Prop :=
  FaultsIn (fun _ ↦ False) x

/-- No slot holds a text with a run of digits longer than may be read. -/
def HasShortRuns (store : Store) : Prop :=
  ∀ name t, store.values.get? name = some (.text t) → ShortRuns t

/-- A text that counts as signed is a sign, perhaps none, and digits with place value. -/
theorem exists_sign_of_isSigned {t : Text} (h : Numeral.isSigned t = true) :
    ∃ sign digits, IsSign sign ∧ t = sign ++ digits ∧ digits ≠ [] ∧
      ∀ c ∈ digits, isDecimal c = true := by
  have hdigits {digits : Text} (h : Numeral.isDigits digits = true) :
      digits ≠ [] ∧ ∀ c ∈ digits, isDecimal c = true := by
    rw [Numeral.isDigits, Bool.and_eq_true, List.all_eq_true] at h
    exact ⟨by simpa using h.1, h.2⟩
  unfold Numeral.isSigned at h
  split at h
  · exact ⟨['-'], _, isSign_singleton_iff.2 rfl, rfl, hdigits h⟩
  · exact ⟨['+'], _, isSign_singleton_iff.2 rfl, rfl, hdigits h⟩
  · exact ⟨[], _, .nil, rfl, hdigits h⟩

/-- A text with short runs of digits denotes an integer. -/
theorem integer_of_shortRuns {t : Text} (h : ShortRuns t) :
    ∃ a, (Value.text t).integer = .ok a := by
  rw [Value.integer, Value.integer?]
  split
  · rename_i hsigned
    obtain ⟨sign, digits, hsign, ht, hne, hdigits⟩ := exists_sign_of_isSigned hsigned
    have hwithin : digits <:+: t := by
      have hsuffix : digits <:+ trim t := ⟨sign, ht.symm⟩
      exact hsuffix.isInfix.trans (trim_isInfix t)
    rw [ht, Numeral.read_append_of_isDecimal hsign hne hdigits (h digits hwithin hdigits)]
    exact ⟨_, rfl⟩
  · exact ⟨_, rfl⟩

/-- In a store with short runs of digits every name has an integer. -/
theorem integer_of_hasShortRuns {store : Store} (h : HasShortRuns store) (name : Text) :
    ∃ a, (store.get name).integer = .ok a := by
  rw [Store.get]
  cases hvalue : store.values.get? (Store.key name) with
  | none => exact ⟨0, rfl⟩
  | some v =>
    cases v with
    | number n => exact ⟨n, rfl⟩
    | text t => exact integer_of_shortRuns (h _ t hvalue)

/-- One parenthesis fewer is left behind an open one. -/
theorem count_lt_of_trimLeft {n : Nat} {t rest : Text} (h : t.count '(' < n + 1)
    (hsplit : trimLeft t = '(' :: rest) : rest.count '(' < n := by
  have hcount : (trimLeft t).count '(' ≤ t.count '(' :=
    (List.dropWhile_sublist _).count_le _
  rw [hsplit, List.count_cons_self] at hcount
  omega

/-- **No fault ends the reading** of a text that can be converted and whose open parentheses are
within the allowance. -/
theorem faultless_expression {store : Store} (hstore : HasShortRuns store) {allowance : Nat}
    {t : Text} (ht : Readable t) (hopenings : t.count '(' < allowance) :
    Faultless ((expression store allowance).plain t) := by
  refine faultsIn_expression (Q := fun n t ↦ Readable t ∧ t.count '(' < n) ?_ ?_ ?_ ?_ ?_
    ⟨ht, hopenings⟩
  · intro n t u hu h
    exact ⟨h.1.of_isInfix hu.isInfix, Nat.lt_of_le_of_lt (hu.sublist.count_le _) h.2⟩
  · intro n t rest h hsplit
    exact ⟨h.1.of_isInfix (infix_of_trimLeft (List.suffix_refl t) hsplit),
      count_lt_of_trimLeft h.2 hsplit⟩
  · exact fun h ↦ absurd h.2 (Nat.not_lt_zero _)
  · intro n t sign digits h hsign hne hdigits hwithin f hf
    have hread := h.1.read_append hsign hne hdigits
      ((List.suffix_append sign digits).isInfix.trans hwithin)
    rw [hf] at hread
    cases hread
  · intro name f hf
    obtain ⟨a, ha⟩ := integer_of_hasShortRuns hstore name
    rw [hf] at ha
    cases ha

/-! ### More parentheses -/

/-- The second reader returns what the first returns, unless the first runs out of its allowance. -/
def Extends (item wider : Reader) : Prop :=
  ∀ t, item.plain t ≠ .error (.fault .nesting) → wider.plain t = item.plain t

section

variable {operators : Operators} {item wider : Reader} (h : Extends item wider)

include h

/-- The rest of a chain does not change with the allowance, if its items do not and it does not run
out. -/
theorem chainEnd_of_extends (a : Int) {t : Text}
    (hend : chainEnd operators item a t ≠ .error (.fault .nesting)) :
    chainEnd operators wider a t = chainEnd operators item a t := by
  rw [chainEnd_eq] at hend
  rw [chainEnd_eq, chainEnd_eq]
  cases ht : trimLeft t with
  | nil => rfl
  | cons c rest =>
    rw [ht] at hend
    dsimp only at hend ⊢
    cases hoperator : operators c with
    | none => rfl
    | some operation =>
      rw [hoperator] at hend
      dsimp only at hend ⊢
      cases hplain : item.plain rest with
      | error stop =>
        rw [hplain] at hend
        rw [h rest (hplain ▸ hend), hplain]
      | ok first =>
        obtain ⟨b, u⟩ := first
        rw [hplain] at hend
        rw [h rest (by rw [hplain]; nofun), hplain]
        dsimp only at hend ⊢
        cases hresult : operation a b with
        | none => rfl
        | some result =>
          rw [hresult] at hend
          -- behind an operand less is left than before it, so the chain ends
          have hshorter : u.length < t.length :=
            Nat.lt_trans (Reader.length_of_plain hplain) (length_lt_of_trimLeft ht)
          exact chainEnd_of_extends result hend
termination_by t.length
decreasing_by exact hshorter

/-- A chain extends as its items do. -/
theorem chain_extends : Extends (chain operators item) (chain operators wider) := by
  intro t hchain
  rw [plain_chain] at hchain
  rw [plain_chain, plain_chain]
  cases hplain : item.plain t with
  | error stop =>
    rw [hplain] at hchain
    rw [h t (hplain ▸ hchain), hplain]
    rfl
  | ok first =>
    rw [hplain] at hchain
    rw [h t (by rw [hplain]; nofun), hplain]
    exact chainEnd_of_extends h first.1 hchain

/-- A factor extends as the expressions in its parentheses do. -/
theorem factor_extends (store : Store) : Extends (factor store item) (factor store wider) := by
  intro t hfactor
  rw [plain_factor] at hfactor
  rw [plain_factor, plain_factor]
  cases ht : trimLeft t with
  | nil => rfl
  | cons c rest =>
    rw [ht] at hfactor
    dsimp only at hfactor ⊢
    split
    · rename_i hc
      rw [if_pos hc] at hfactor
      have hnested : wider.plain rest = item.plain rest := by
        refine h rest fun hnesting ↦ hfactor ?_
        rw [hnesting]
      rw [hnested]
    · rfl

end

/-- A reading that stays within its allowance does not change with it. -/
theorem expression_extends (store : Store) (allowance more : Nat) :
    Extends (expression store allowance) (expression store (allowance + more)) := by
  induction allowance with
  | zero =>
    intro t hzero
    exact absurd rfl hzero
  | succ allowance ih =>
    rw [Nat.add_right_comm]
    exact chain_extends (chain_extends (factor_extends ih store))

/-! ### Evaluation -/

/-- The evaluation of a text is what its reading returns: the value if nothing is left, and the
first character left as a failure if something is. -/
theorem evaluate_eq (store : Store) (allowance : Nat) (t : Text) :
    evaluate store allowance t =
      match (expression store allowance).plain t with
      | .ok (a, []) => .ok (.ok a)
      | .ok (_, c :: rest) => .ok (.error ⟨.unexpected c, t.length - (c :: rest).length⟩)
      | .error (.failure reason unread) => .ok (.error ⟨reason, t.length - unread.length⟩)
      | .error (.fault f) => .error f := by
  unfold evaluate readAll Reader.plain
  cases expression store allowance t with
  | error stop => cases stop <;> rfl
  | ok r =>
    dsimp only [Except.map]
    cases trimLeft r.rest with
    | nil => rfl
    | cons c rest => rfl

/-- A name is worth the integer of its slot, with any allowance at all. -/
theorem evaluate_name {store : Store} {name : Text} {a : Int} (hname : IsName name [])
    (ha : (store.get name).integer = .ok a) (allowance : Nat) :
    evaluate store (allowance + 1) name = .ok (.ok a) := by
  have hend {operators : Operators} (item : Reader) (c : Int) :
      chainEnd operators item c [] = .ok (c, []) :=
    chainEnd_of_stop rfl (by rintro d ⟨⟩) c
  obtain ⟨c, more, hchars, -⟩ := hname.chars
  have hsplit : trimLeft name = name ++ [] := by
    rw [List.append_nil, hchars]
    exact trimLeft_cons_of_not (hname.not_blank c (hchars ▸ List.mem_cons_self)) more
  have hfactor : Reader.plain (factor store (expression store allowance)) name = .ok (a, []) := by
    rw [plain_factor_of_name hsplit hname, ha]
    rfl
  have hplain : (expression store (allowance + 1)).plain name = .ok (a, []) := by
    rw [expression, plain_chain, plain_chain, hfactor]
    show (chainEnd multiplicative _ a [] >>= _) = _
    rw [hend]
    exact hend _ a
  rw [evaluate_eq, hplain]

section

variable {store other : Store}
  (h : ∀ name, (store.get name).integer = (other.get name).integer)

include h

/-- A factor only depends on the integers of the slots. -/
theorem factor_congr (nested : Reader) : factor store nested = factor other nested := by
  funext t
  simp only [factor, h]

/-- An expression only depends on the integers of the slots, at every allowance. -/
theorem expression_congr (allowance : Nat) :
    expression store allowance = expression other allowance := by
  induction allowance with
  | zero => rfl
  | succ allowance ih => rw [expression, expression, ih, factor_congr h]

/-- An expression sees nothing of a store but the integers of its slots. -/
theorem evaluate_congr (allowance : Nat) (t : Text) :
    evaluate store allowance t = evaluate other allowance t := by
  rw [evaluate, evaluate, readAll, readAll, expression_congr h]

end

/-- An answer that was found within the allowance does not change with it. -/
theorem evaluate_add {store : Store} {allowance : Nat} {t : Text}
    (h : evaluate store allowance t ≠ .error .nesting) (more : Nat) :
    evaluate store (allowance + more) t = evaluate store allowance t := by
  have hplain : (expression store allowance).plain t ≠ .error (.fault .nesting) := by
    intro hnesting
    refine h ?_
    rw [evaluate_eq, hnesting]
  rw [evaluate_eq, expression_extends store allowance more t hplain, ← evaluate_eq]

/-- The whole text is read with a value if and only if it is an expression of that value. -/
theorem plain_eq_ok_nil_iff {store : Store} {allowance : Nat} {t : Text} (ht : Readable t)
    (hopenings : t.count '(' < allowance) {a : Int} :
    (expression store allowance).plain t = .ok (a, []) ↔ Denotes store t a := by
  constructor
  · intro h
    obtain ⟨tokens, hderives, hspells⟩ := plain_expression_sound h
    exact ⟨tokens, hspells, hderives⟩
  · rintro ⟨tokens, hspells, hderives⟩
    obtain ⟨inner, rfl⟩ := Nat.exists_eq_succ_of_ne_zero (Nat.ne_zero_of_lt hopenings)
    have hinner : openings tokens ≤ inner :=
      Nat.le_trans hspells.openings_le (Nat.le_of_lt_succ hopenings)
    have hstop {operators : Operators} : ∀ c ∈ ([] : Text).head?, operators c = none := by
      rintro c ⟨⟩
    rw [hderives.complete ht hinner hspells hstop, chainEnd_of_stop rfl hstop]

/-- The answer says which value the text has, or that it has none. -/
def IsAnswer (store : Store) (t : Text) : Except Failure Int → Prop
  | .ok a => ∀ b, Denotes store t b ↔ a = b
  | .error _ => ∀ a, ¬Denotes store t a

/-- **A text whose digits can be converted has an answer**, if the allowance covers its open
parentheses. -/
theorem exists_isAnswer {store : Store} (hstore : HasShortRuns store) {allowance : Nat} {t : Text}
    (ht : Readable t) (hopenings : t.count '(' < allowance) :
    ∃ answer, evaluate store allowance t = .ok answer ∧ IsAnswer store t answer := by
  have hiff {a : Int} :
      (expression store allowance).plain t = .ok (a, []) ↔ Denotes store t a :=
    plain_eq_ok_nil_iff ht hopenings
  have hfaultless := faultless_expression hstore ht hopenings
  rw [evaluate_eq]
  cases hplain : (expression store allowance).plain t with
  | error stop =>
    cases stop with
    | fault f => exact absurd hplain (hfaultless f)
    | failure reason unread =>
      refine ⟨_, rfl, fun a ha ↦ ?_⟩
      rw [← hiff, hplain] at ha
      cases ha
  | ok result =>
    obtain ⟨a, rest⟩ := result
    rw [hplain] at hiff
    cases rest with
    | nil => exact ⟨_, rfl, fun b ↦ by rw [← hiff]; simp⟩
    | cons c rest =>
      refine ⟨_, rfl, fun b hb ↦ ?_⟩
      cases hiff.2 hb

/-- **Evaluation answers**, unless there are more open parentheses than the allowance. -/
theorem evaluate_cases {store : Store} (hstore : HasShortRuns store) (allowance : Nat) {t : Text}
    (ht : Readable t) :
    evaluate store allowance t = .error .nesting ∧ allowance ≤ t.count '(' ∨
      ∃ answer, evaluate store allowance t = .ok answer ∧ IsAnswer store t answer := by
  by_cases hnesting : evaluate store allowance t = .error .nesting
  · refine Or.inl ⟨hnesting, Nat.le_of_not_lt fun hopenings ↦ ?_⟩
    obtain ⟨answer, hanswer, -⟩ := exists_isAnswer hstore ht hopenings
    rw [hnesting] at hanswer
    cases hanswer
  · -- the answer is that of an allowance which covers all the parentheses
    right
    have hopenings : t.count '(' < allowance + (t.count '(' + 1) := by omega
    rw [← evaluate_add hnesting (t.count '(' + 1)]
    exact exists_isAnswer hstore ht hopenings

end Cobol.Expression
