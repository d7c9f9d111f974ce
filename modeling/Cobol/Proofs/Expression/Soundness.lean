import Cobol.Proofs.Expression.Reader

/-!
# What the reader accepts is an expression

`plain_expression_sound`: a value read from the front of a text is derived by the tokens that the
part read spells. The invariant of a chain is that what has been read so far derives its value; each
further item extends the derivation on the right, which is why the grammar groups to the left.

## Shape decisions

* The law of chains is stated for any operators and items, with the derivations as parameters: `D`
  for what a chain derives, `I` for an item of it.
* The induction for the parentheses is on the allowance, and the one for a chain is on the length of
  what is left.
-/

namespace Cobol.Expression

open Text

/-! ### What is read is derived -/

/-- An operator is spelled by its character alone. -/
def Token.IsOperator (token : Token) (c : Char) : Prop :=
  ∀ w u, token.SpelledBy w u ↔ w = [c]

section

variable {operators : Operators} {item : Reader} {D I : List Token → Int → Prop}
  (hitem : ∀ {t u : Text} {a : Int}, item.plain t = .ok (a, u) → ∃ tokens, I tokens a ∧
    Spells tokens t u)
  (hstep : ∀ {c : Char} {operation : Int → Int → Option Int} {left right : List Token}
    {a b result : Int}, operators c = some operation → operation a b = some result → D left a →
    I right b → ∃ token, token.IsOperator c ∧ D (left ++ token :: right) result)

include hitem hstep

/-- A chain extends what has been read before it. -/
theorem chainEnd_sound {left : List Token} {start t u : Text} {a b : Int} (hleft : D left a)
    (hspells : Spells left start (trimLeft t)) (h : chainEnd operators item a t = .ok (b, u)) :
    ∃ tokens, D tokens b ∧ Spells tokens start u := by
  rw [chainEnd_eq] at h
  split at h
  · rename_i ht
    cases h
    exact ⟨left, hleft, ht ▸ hspells⟩
  · rename_i c rest ht
    split at h
    · cases h
      exact ⟨left, hleft, ht ▸ hspells⟩
    · rename_i operation hoperator
      split at h
      · cases h
      · rename_i d w hplain
        split at h
        · cases h
        · rename_i result hresult
          obtain ⟨right, hright, hrest⟩ := hitem hplain
          obtain ⟨token, htoken, hjoined⟩ := hstep hoperator hresult hleft hright
          have hsplit : trimLeft (trimLeft t) = c :: rest := by rw [trimLeft_trimLeft, ht]
          have hextended : Spells (left ++ token :: right) start (trimLeft w) := by
            rw [hrest.trimLeft_rest]
            exact hspells.append ((Spells.single_iff htoken).2 ⟨rest, hsplit, hrest⟩)
          have hshorter : w.length < t.length :=
            Nat.lt_trans (Reader.length_of_plain hplain) (length_lt_of_trimLeft ht)
          -- the chain goes on behind `w` with a longer derivation
          exact chainEnd_sound hjoined hextended h
termination_by t.length
decreasing_by exact hshorter

/-- **A chain that is read is derived**, if its items are. The first item derives what the invariant
asks for, and every further item keeps it. -/
theorem plain_chain_sound (hfirst : ∀ {tokens : List Token} {a : Int}, I tokens a → D tokens a)
    {t u : Text} {a : Int} (h : Reader.plain (chain operators item) t = .ok (a, u)) :
    ∃ tokens, D tokens a ∧ Spells tokens t u := by
  rw [plain_chain] at h
  obtain ⟨⟨first, rest⟩, hplain, h⟩ := Except.bind_eq_ok_iff.1 h
  obtain ⟨tokens, htokens, hspells⟩ := hitem hplain
  have hrest := hspells.trimLeft_rest
  exact chainEnd_sound hitem hstep (hfirst htokens) (by rwa [hrest]) h

end

/-- A further term extends an expression. -/
theorem additive_sound {store : Store} {c : Char} {operation : Int → Int → Option Int}
    {left right : List Token} {a b result : Int} (hoperator : additive c = some operation)
    (hresult : operation a b = some result) (hleft : Derives store .expression left a)
    (hright : Derives store .term right b) :
    ∃ token, token.IsOperator c ∧ Derives store .expression (left ++ token :: right) result := by
  unfold additive at hoperator
  split at hoperator
  · cases hoperator
    cases hresult
    exact ⟨.plus, fun _ _ ↦ Iff.rfl, .add hleft hright⟩
  · cases hoperator
    cases hresult
    exact ⟨.minus, fun _ _ ↦ Iff.rfl, .sub hleft hright⟩
  · cases hoperator

/-- A further factor extends a term, unless it divides by zero. -/
theorem multiplicative_sound {store : Store} {c : Char} {operation : Int → Int → Option Int}
    {left right : List Token} {a b result : Int} (hoperator : multiplicative c = some operation)
    (hresult : operation a b = some result) (hleft : Derives store .term left a)
    (hright : Derives store .factor right b) :
    ∃ token, token.IsOperator c ∧ Derives store .term (left ++ token :: right) result := by
  unfold multiplicative at hoperator
  split at hoperator
  · cases hoperator
    cases hresult
    exact ⟨.times, fun _ _ ↦ Iff.rfl, .mul hleft hright⟩
  · cases hoperator
    unfold Numeral.divide? at hresult
    split at hresult
    · cases hresult
    · rename_i hne
      cases hresult
      exact ⟨.over, fun _ _ ↦ Iff.rfl, .div hleft hright hne⟩
  · cases hoperator

/-- A number is read exactly if it can be converted. -/
theorem converted_eq_ok_iff {x : Except Fault Int} {v u : Text} {a : Int} :
    converted v x = .ok (a, u) ↔ x = .ok a ∧ u = trimLeft v := by
  cases x with
  | error f => simp [converted]
  | ok b =>
    simp only [converted, Except.ok.injEq, Prod.mk.injEq]
    exact and_congr_right fun _ ↦ eq_comm

/-- Behind the longest beginning with a property stands nothing with the property. -/
theorem head?_dropWhile_not (p : Char → Bool) (t : Text) :
    ∀ c ∈ (t.dropWhile p).head?, p c = false := by
  intro c hc
  have := List.head?_dropWhile_not p t
  rw [Option.mem_def.1 hc] at this
  simpa using this

/-- Behind an expression in parentheses stands the closing one. -/
theorem closed_eq_ok {a b : Int} {t u : Text} (h : closed a t = .ok (b, u)) :
    ∃ after, t = ')' :: after ∧ a = b ∧ trimLeft after = u := by
  unfold closed at h
  split at h
  · rename_i after
    cases h
    exact ⟨after, rfl, rfl, rfl⟩
  · cases h

/-- A sign and the digits in front of a text make a number. -/
theorem derives_number {store : Store} {sign t rest : Text} (hsign : IsSign sign)
    (hne : rest.takeWhile isDigit ≠ []) (ht : trimLeft t = sign ++ rest) {a : Int}
    (hread : Numeral.read (sign ++ rest.takeWhile isDigit) = .ok a) :
    ∃ tokens, Derives store .factor tokens a ∧
      Spells tokens t (trimLeft (rest.dropWhile isDigit)) := by
  have hdigits : ∀ c ∈ rest.takeWhile isDigit, isDigit c = true := fun c hc ↦
    List.mem_takeWhile_imp hc
  have hsplit : trimLeft t = (sign ++ rest.takeWhile isDigit) ++ rest.dropWhile isDigit := by
    rw [ht, List.append_assoc, List.takeWhile_append_dropWhile]
  rw [Numeral.eq_of_read_append hsign hdigits hread]
  exact ⟨_, .number sign (rest.takeWhile isDigit),
    .cons hsplit ⟨rfl, hsign, hne, hdigits, head?_dropWhile_not isDigit rest⟩ (.nil _)⟩

section

variable {store : Store} {nested : Reader}
  (hnested : ∀ {t u : Text} {a : Int}, nested.plain t = .ok (a, u) →
    ∃ tokens, Derives store .expression tokens a ∧ Spells tokens t u)

include hnested

/-- **A factor that is read is derived**, if the expressions in its parentheses are. There is one
case for each way in which a factor can begin. -/
theorem plain_factor_sound {t u : Text} {a : Int}
    (h : Reader.plain (factor store nested) t = .ok (a, u)) :
    ∃ tokens, Derives store .factor tokens a ∧ Spells tokens t u := by
  rw [plain_factor] at h
  split at h
  · cases h
  · rename_i c rest ht
    split at h
    · -- an expression in parentheses
      rename_i hc
      obtain rfl : c = '(' := by simpa using hc
      split at h
      · cases h
      · rename_i b v hplain
        obtain ⟨after, rfl, rfl, rfl⟩ := closed_eq_ok h
        obtain ⟨tokens, htokens, hspells⟩ := hnested hplain
        have hclose : Spells [.closing] (')' :: after) (trimLeft after) :=
          .cons (trimLeft_cons_of_not rfl after) rfl (.nil after)
        exact ⟨_, .parentheses htokens, .cons ht rfl (hspells.append hclose)⟩
    · split at h
      · -- digits behind a sign
        rename_i hc
        split at h
        · cases h
        · rename_i hne
          obtain ⟨hread, rfl⟩ := converted_eq_ok_iff.1 h
          exact derives_number (isSign_singleton_iff.2 hc) hne ht hread
      · split at h
        · -- digits without a sign, the first of them already taken
          rename_i hc
          obtain ⟨hread, rfl⟩ := converted_eq_ok_iff.1 h
          have htake : (c :: rest).takeWhile isDigit = c :: rest.takeWhile isDigit :=
            List.takeWhile_cons_of_pos hc
          have hdrop : (c :: rest).dropWhile isDigit = rest.dropWhile isDigit :=
            List.dropWhile_cons_of_pos hc
          rw [← hdrop]
          rw [← htake] at hread
          exact derives_number .nil (by simp [htake]) ht hread
        · split at h
          · -- a name
            rename_i hletter
            obtain ⟨hvalue, rfl⟩ := converted_eq_ok_iff.1 h
            refine ⟨_, .name hvalue, .cons ?_ ⟨rfl, ?_⟩ (.nil _)⟩
            · rw [ht, List.cons_append, List.takeWhile_append_dropWhile]
            · exact ⟨⟨c, _, rfl, hletter, fun a ha ↦ List.mem_takeWhile_imp ha⟩,
                head?_dropWhile_not isNameChar rest⟩
          · cases h

/-- A term that is read is derived, if the expressions in its parentheses are. -/
theorem plain_term_sound {t u : Text} {a : Int}
    (h : Reader.plain (chain multiplicative (factor store nested)) t = .ok (a, u)) :
    ∃ tokens, Derives store .term tokens a ∧ Spells tokens t u :=
  plain_chain_sound (plain_factor_sound hnested) multiplicative_sound .factor h

end

/-- **What is read is derived.** -/
theorem plain_expression_sound {store : Store} {allowance : Nat} {t u : Text} {a : Int}
    (h : (expression store allowance).plain t = .ok (a, u)) :
    ∃ tokens, Derives store .expression tokens a ∧ Spells tokens t u := by
  induction allowance generalizing t u a with
  | zero => cases h
  | succ allowance ih => exact plain_chain_sound (plain_term_sound ih) additive_sound .term h

end Cobol.Expression
