import Cobol.Proofs.Block.Written
import Cobol.Proofs.Stop
import Cobol.Proofs.Value

/-!
# Comparisons as a test of one order

All six comparisons of two tokens read one order, that of the values which the tokens stand for
(`Condition.holds_of_compares`). So one of `<`, `=` and `>` holds and the others do not; every
comparison is the opposite of another one (`Comparison.negation`), and that of the tokens the other
way round of one more (`Comparison.converse`). Two integers are in the order of numbers, anything
else in that of texts.

An `IF` on a comparison is then the `IF` on the opposite one with its parts exchanged. But the
header of an `IF` loses a period at its end, and a right operand that is nothing but this period is
lost with it. What is left is no comparison and false under any header, so then the parts are not to
be exchanged (`not_ifLines_negation_period`).

## Shape decisions

* A comparison is a function on the three orders, so negation and converse are laws about three
  cases each and nothing has to be said about values.
* What a header reads of its last operand is a function of the operands alone (`lastOperand`). Both
  headers of an exchange read the same one, and this is all that is used of the reading.
* Comparisons fail only where a value cannot be shown. The laws say what happens then as well: both
  sides of an equation fail alike.
-/

namespace Cobol

open Text Sentence

namespace Comparison

/-- The word for a comparison. -/
def word : Comparison → Text
  | eq => "=".toList
  | ne => "<>".toList
  | gt => ">".toList
  | lt => "<".toList
  | ge => ">=".toList
  | le => "<=".toList

/-- The comparison that holds where this one does not. -/
def negation : Comparison → Comparison
  | eq => ne
  | ne => eq
  | gt => le
  | lt => ge
  | ge => lt
  | le => gt

/-- The comparison that holds with the operands the other way round. -/
def converse : Comparison → Comparison
  | eq => eq
  | ne => ne
  | gt => lt
  | lt => gt
  | ge => le
  | le => ge

/-- Every comparison is known by its word. -/
@[simp]
theorem ofWord?_word (c : Comparison) : ofWord? c.word = some c := by
  cases c <;> decide

theorem word_ne_nil (c : Comparison) : c.word ≠ [] := by
  cases c <;> decide

/-- There is no blank in the word of a comparison. -/
theorem not_blank_word (c : Comparison) : ∀ a ∈ c.word, isBlank a = false := by
  cases c <;> decide

/-- The opposite comparison holds of exactly the other orders. -/
@[simp]
theorem holds_negation (c : Comparison) (o : Ordering) : c.negation.holds o = !c.holds o := by
  cases c <;> cases o <;> rfl

/-- The converse holds of the order the other way round. -/
@[simp]
theorem holds_converse (c : Comparison) (o : Ordering) : c.converse.holds o.swap = c.holds o := by
  cases c <;> cases o <;> rfl

theorem holds_lt_iff {o : Ordering} : lt.holds o = true ↔ o = .lt :=
  Ordering.isLT_iff_eq_lt

theorem holds_eq_iff {o : Ordering} : eq.holds o = true ↔ o = .eq :=
  Ordering.isEq_iff_eq_eq

/-- Of less, equal and greater one holds. -/
theorem existsUnique_holds (o : Ordering) : ∃! c, c ∈ [lt, eq, gt] ∧ c.holds o = true := by
  cases o with
  | lt => exact ⟨lt, by decide, fun c ↦ by cases c <;> decide⟩
  | eq => exact ⟨eq, by decide, fun c ↦ by cases c <;> decide⟩
  | gt => exact ⟨gt, by decide, fun c ↦ by cases c <;> decide⟩

end Comparison

/-! ### What a comparison reads -/

namespace Condition

variable {store : Store} {left right : Text}

/-- The order of two operands. -/
def order (store : Store) (left right : Text) : Except Fault Ordering := do
  (← operand store left).order (← operand store right)

/-- The order of two tokens is that of the values they stand for. -/
theorem order_of_operand {v w : Value} (hv : operand store left = .ok v)
    (hw : operand store right = .ok w) : order store left right = v.order w := by
  rw [order, hv, hw]
  rfl

/-- The text compares the two tokens; anything may follow them. -/
def Compares (t left : Text) (c : Comparison) (right : Text) : Prop :=
  ∃ more, words t = left :: c.word :: right :: more

/-- A comparison reads the order of its operands, and nothing else. -/
theorem holds_of_compares {t : Text} {c : Comparison} (h : Compares t left c right) :
    holds store t = (order store left right).map c.holds := by
  obtain ⟨more, hwords⟩ := h
  rw [holds, hwords]
  dsimp only
  rw [Comparison.ofWord?_word, order]
  dsimp only
  cases operand store left with
  | error fault => rfl
  | ok v =>
    cases operand store right with
    | error fault => rfl
    | ok w => exact Except.bind_pure_eq_map (v.order w) c.holds

end Condition

/-! ### Headers -/

/-- The characters of a comparison, with its operands. -/
def comparisonOf (left : Text) (c : Comparison) (right : Text) : Text :=
  left ++ ' ' :: (c.word ++ ' ' :: right)

theorem comparisonOf_eq (left : Text) (c : Comparison) (t : Text) :
    comparisonOf left c t = left ++ (' ' :: (c.word ++ [' '])) ++ t := by
  simp [comparisonOf]

/-- A comparison holds no quotes, so whether a literal is open is up to the operands alone. -/
theorem openLiteral_comparisonOf (left : Text) (c : Comparison) (t : Text) :
    openLiteral (comparisonOf left c t) = t.foldl literalAfter (openLiteral left) := by
  have hquote : ∀ a ∈ ' ' :: (c.word ++ [' ']), isQuote a = false := by cases c <;> decide
  rw [comparisonOf_eq, openLiteral_append, openLiteral_append_of_not_quote left hquote]

section

variable {left right : Text}

/-- What an `IF` reads as the right operand: a period at its end is not read, unless it is within a
literal that is open. -/
def lastOperand (left right : Text) : Text :=
  if right.getLast? = some '.' ∧ right.dropLast.foldl literalAfter (openLiteral left) = none then
    right.dropLast
  else right

variable (hleft : left ≠ []) (hleftBlank : ∀ a ∈ left, isBlank a = false)
  (hright : right ≠ []) (hrightBlank : ∀ a ∈ right, isBlank a = false)

include hleft hleftBlank in
/-- The words of a comparison are its left token, its word and those of its right side. -/
theorem words_comparisonOf (c : Comparison) (t : Text) :
    words (comparisonOf left c t) = left :: c.word :: words t := by
  rw [comparisonOf, words_word_append hleft hleftBlank rfl,
    words_word_append c.word_ne_nil c.not_blank_word rfl]

include hright hrightBlank in
/-- A header drops the period of its right operand, and nothing else. -/
theorem dropPeriod_comparisonOf (c : Comparison) :
    dropPeriod (comparisonOf left c right) =
      trimRight (comparisonOf left c (lastOperand left right)) := by
  obtain ⟨last, hlast⟩ := Option.isSome_iff_exists.1 (List.getLast?_isSome.2 hright)
  have hend : (comparisonOf left c right).getLast? = some last := by
    rw [comparisonOf_eq, List.getLast?_append, hlast]
    rfl
  have htrim : trimRight (comparisonOf left c right) = comparisonOf left c right :=
    trimRight_of_getLast? hend (hrightBlank last (List.mem_of_getLast? hlast))
  by_cases hperiod : right.getLast? = some '.' ∧
      right.dropLast.foldl literalAfter (openLiteral left) = none
  · obtain ⟨r, rfl⟩ := List.getLast?_eq_some_iff.1 hperiod.1
    rw [lastOperand, if_pos hperiod]
    refine dropPeriod_of_endsIn ⟨?_, (openLiteral_comparisonOf ..).trans hperiod.2⟩
    rw [htrim, List.dropLast_concat, comparisonOf_eq, comparisonOf_eq, List.append_assoc _ r]
  · rw [lastOperand, if_neg hperiod]
    refine dropPeriod_of_not_endsIn ?_
    -- any other final period would be that of the right operand as well
    rintro body ⟨hbody, hnone⟩
    rw [htrim] at hbody
    have hdot : last = '.' := by
      rw [hbody, List.getLast?_concat] at hend
      exact (Option.some.inj hend).symm
    obtain ⟨r, rfl⟩ := List.getLast?_eq_some_iff.1 (hdot ▸ hlast)
    rw [comparisonOf_eq, ← List.append_assoc, ← comparisonOf_eq] at hbody
    rw [← List.append_cancel_right hbody, openLiteral_comparisonOf] at hnone
    exact hperiod ⟨hdot ▸ hlast, by rwa [List.dropLast_concat]⟩

include hleft hleftBlank hright hrightBlank in
/-- What a header reads of a comparison has the words of the comparison, with its last operand as
the header leaves it. -/
theorem words_remainder_comparisonOf (c : Comparison) :
    words (remainder (comparisonOf left c right)) =
      left :: c.word :: words (lastOperand left right) := by
  rw [remainder, words_trim, dropPeriod_comparisonOf hright hrightBlank, ← words_trim,
    trim_trimRight, words_trim, words_comparisonOf hleft hleftBlank]

/-- Something is left of the right operand, unless it is the period of the header. -/
theorem lastOperand_ne_nil (hright : right ≠ [])
    (hperiod : right = ['.'] → openLiteral left ≠ none) : lastOperand left right ≠ [] := by
  rw [lastOperand]
  split
  · rename_i h
    obtain ⟨r, rfl⟩ := List.getLast?_eq_some_iff.1 h.1
    rw [List.dropLast_concat] at h ⊢
    rintro rfl
    exact hperiod rfl h.2
  · exact hright

/-- A header only takes characters away from the last operand. -/
theorem mem_of_mem_lastOperand {a : Char} (h : a ∈ lastOperand left right) : a ∈ right := by
  rw [lastOperand] at h
  split at h
  · exact List.dropLast_subset right h
  · exact h

include hleft hleftBlank hright hrightBlank in
/-- A header compares its left operand with what it reads of its right one. -/
theorem compares_remainder (hperiod : right = ['.'] → openLiteral left ≠ none) (c : Comparison) :
    Condition.Compares (remainder (comparisonOf left c right)) left c (lastOperand left right) := by
  refine ⟨[], ?_⟩
  rw [words_remainder_comparisonOf hleft hleftBlank hright hrightBlank,
    words_of_forall_not (lastOperand_ne_nil hright hperiod) fun a ha ↦
      hrightBlank a (mem_of_mem_lastOperand ha)]

include hleft hleftBlank in
/-- A comparison is not blank. -/
theorem not_allBlank_comparisonOf (c : Comparison) : ¬AllBlank (comparisonOf left c right) := by
  intro hblank
  obtain ⟨a, rest, rfl⟩ := List.exists_cons_of_ne_nil hleft
  have ha := hblank a (List.mem_append_left _ List.mem_cons_self)
  rw [hleftBlank a List.mem_cons_self] at ha
  cases ha

end

/-! ### The opposite comparison -/

section

variable {left right : Text} (hleft : left ≠ []) (hleftBlank : ∀ a ∈ left, isBlank a = false)
  (hright : right ≠ []) (hrightBlank : ∀ a ∈ right, isBlank a = false)
  (hperiod : right = ['.'] → openLiteral left ≠ none)

include hleft hleftBlank hright hrightBlank hperiod

/-- An `IF` does what the `IF` on the opposite comparison does with its parts exchanged. -/
theorem executeBlock_ifLines_negation (c : Comparison) {whenTrue whenFalse : List Text}
    (htrue : BlockKind.conditional.Closed whenTrue)
    (hfalse : BlockKind.conditional.Closed whenFalse) (m : Machine) (allowance : Nat)
    (more : List Text) (s : State) :
    executeBlock m allowance (ifLines (comparisonOf left c right) whenTrue whenFalse ++ more) s =
      executeBlock m allowance
        (ifLines (comparisonOf left c.negation right) whenFalse whenTrue ++ more) s := by
  cases allowance with
  | zero => rfl
  | succ allowance =>
    cases hs : s.running with
    | false => rw [executeBlock_of_stopped m _ _ hs, executeBlock_of_stopped m _ _ hs]
    | true =>
      have hheader (c : Comparison) :
          Condition.Compares (remainder (comparisonOf left c right)) left c
            (lastOperand left right) :=
        compares_remainder hleft hleftBlank hright hrightBlank hperiod c
      have hnot (c : Comparison) : ¬AllBlank (comparisonOf left c right) :=
        not_allBlank_comparisonOf hleft hleftBlank c
      rw [executeBlock_ifLines_eq m allowance more hs (hnot c) htrue hfalse,
        executeBlock_ifLines_eq m allowance more hs (hnot c.negation) hfalse htrue,
        Condition.holds_of_compares (hheader c), Condition.holds_of_compares (hheader c.negation)]
      cases Condition.order s.store left (lastOperand left right) with
      | error fault => rfl
      | ok o =>
        simp only [Except.map, Comparison.holds_negation]
        cases c.holds o <;> rfl

end

/-! ### The order of two tokens -/

section

variable {s : State} {left right : Text} {v w : Value} {x y : Text}

/-- Values that can be shown can be ordered. -/
theorem Value.exists_order (hx : v.shown = .ok x) (hy : w.shown = .ok y) :
    ∃ o, v.order w = .ok o := by
  cases w with
  | text t => exact ⟨_, by rw [order_text, hx]; rfl⟩
  | number n =>
    cases v with
    | text t => exact ⟨_, by rw [text_order, hy]; rfl⟩
    | number m => exact ⟨_, rfl⟩

/-- **Comparisons are a test of one order.** Of two tokens that can be resolved and shown, exactly
one is less than, equal to or greater than the other, whatever follows them. A comparison is the
opposite of its negation, and it is its converse with the tokens exchanged. Numbers are compared as
numbers, anything else by what is shown of it. And an `IF` on a comparison does what the `IF` on the
opposite one does with its parts exchanged, unless the right token is a period that ends the header.
-/
theorem comparisons_agree (hleft : left ≠ []) (hleftBlank : ∀ a ∈ left, isBlank a = false)
    (hright : right ≠ []) (hrightBlank : ∀ a ∈ right, isBlank a = false)
    (hv : Condition.operand s.store left = .ok v) (hw : Condition.operand s.store right = .ok w)
    (hx : v.shown = .ok x) (hy : w.shown = .ok y) :
    (∃ test : Comparison → Bool,
      (∀ c t, Condition.Compares t left c right → Condition.holds s.store t = .ok (test c)) ∧
      (∀ c t, Condition.Compares t right c.converse left →
        Condition.holds s.store t = .ok (test c)) ∧
      (∃! c, c ∈ [Comparison.lt, .eq, .gt] ∧ test c = true) ∧
      (∀ c, test c.negation = !test c) ∧
      (∀ i j, v = .number i → w = .number j →
        (test .lt = true ↔ i < j) ∧ (test .eq = true ↔ i = j)) ∧
      ((∀ i j, v = .number i → w ≠ .number j) →
        (test .lt = true ↔ x < y) ∧ (test .eq = true ↔ x = y))) ∧
    ((right = ['.'] → openLiteral left ≠ none) →
      ∀ (c : Comparison) (whenTrue whenFalse : List Text),
        BlockKind.conditional.Closed whenTrue → BlockKind.conditional.Closed whenFalse →
        ∀ (m : Machine) (allowance : Nat) (more : List Text),
          executeBlock m allowance
              (ifLines (comparisonOf left c right) whenTrue whenFalse ++ more) s =
            executeBlock m allowance
              (ifLines (comparisonOf left c.negation right) whenFalse whenTrue ++ more) s) := by
  refine ⟨?_, fun hperiod c _ _ htrue hfalse m allowance more ↦
    executeBlock_ifLines_negation hleft hleftBlank hright hrightBlank hperiod c htrue hfalse m
      allowance more s⟩
  obtain ⟨o, ho⟩ := Value.exists_order hx hy
  have horder : Condition.order s.store left right = .ok o :=
    (Condition.order_of_operand hv hw).trans ho
  have hconverse : Condition.order s.store right left = .ok o.swap := by
    rw [Condition.order_of_operand hw hv, Value.order_swap v w, ho]
    rfl
  -- one order of the two values decides all comparisons, in both directions
  refine ⟨fun c ↦ c.holds o, fun c t h ↦ ?_, fun c t h ↦ ?_, Comparison.existsUnique_holds o,
    fun c ↦ c.holds_negation o, ?_, fun hmixed ↦ ?_⟩
  · rw [Condition.holds_of_compares h, horder]
    rfl
  · rw [Condition.holds_of_compares h, hconverse]
    exact congrArg Except.ok (c.holds_converse o)
  · rintro i j rfl rfl
    obtain rfl : compare i j = o := Except.ok.inj ho
    exact ⟨Comparison.holds_lt_iff.trans Int.compare_eq_lt,
      Comparison.holds_eq_iff.trans Int.compare_eq_eq⟩
  · obtain rfl : Text.order x y = o :=
      Except.ok.inj ((Value.order_of_shown hmixed hx hy).symm.trans ho)
    exact ⟨Comparison.holds_lt_iff.trans Text.order_eq_lt_iff,
      Comparison.holds_eq_iff.trans Text.order_eq_eq_iff⟩

end

/-- A slot with a number and one with a text. -/
def numberAndText : State where
  store := { values := ⟨[("N".toList, .number 5), ("T".toList, .text "12 ".toList)]⟩ }

/-- A number and a text with a blank at its end, which are in the order of texts. -/
theorem comparisons_agree_mixed :
    Condition.operand numberAndText.store "N".toList = .ok (.number 5) ∧
    Condition.operand numberAndText.store "T".toList = .ok (.text "12 ".toList) ∧
    (∃! c, c ∈ [Comparison.lt, .eq, .gt] ∧
      Condition.holds numberAndText.store (comparisonOf "N".toList c "T".toList) = .ok true) ∧
    executeBlock ⟨{}, 1⟩ 2 (ifLines (comparisonOf "N".toList .lt "T".toList)
        ["DISPLAY 'S'".toList] ["DISPLAY 'T'".toList] ++ []) numberAndText =
      executeBlock ⟨{}, 1⟩ 2 (ifLines (comparisonOf "N".toList .ge "T".toList)
        ["DISPLAY 'T'".toList] ["DISPLAY 'S'".toList] ++ []) numberAndText := by
  have hN : Condition.operand numberAndText.store "N".toList = .ok (.number 5) := by decide
  have hT : Condition.operand numberAndText.store "T".toList = .ok (.text "12 ".toList) := by decide
  have hshown : (Value.number 5).shown = .ok ['5'] := by decide +kernel
  have hblank : ∀ a ∈ "N".toList, isBlank a = false := by decide
  obtain ⟨⟨test, htest, -, hunique, -⟩, hif⟩ := comparisons_agree (s := numberAndText)
    (by decide) hblank (by decide) (by decide) hN hT hshown rfl
  have hholds (c : Comparison) : Condition.holds numberAndText.store
      (comparisonOf "N".toList c "T".toList) = .ok (test c) :=
    htest c _ ⟨[], words_comparisonOf (by decide) hblank c _⟩
  refine ⟨hN, hT, ?_, hif (by decide) .lt _ _ (by decide +kernel) (by decide +kernel) _ 2 []⟩
  simpa only [hholds, Except.ok.injEq] using hunique

/-- A period that ends the header is no operand: both headers are then no comparison, and the lines
for false run under both. -/
theorem not_ifLines_negation_period :
    Condition.operand {} "1".toList = .ok (.number 1) ∧
    Condition.operand {} ".".toList = .ok (.text ".".toList) ∧
    BlockKind.conditional.Closed ["DISPLAY 'S'".toList] ∧
    BlockKind.conditional.Closed ["DISPLAY 'T'".toList] ∧
    (executeBlock ⟨{}, 1⟩ 2 (ifLines (comparisonOf "1".toList .lt ".".toList)
      ["DISPLAY 'S'".toList] ["DISPLAY 'T'".toList]) {}).state.output = #["T".toList] ∧
    (executeBlock ⟨{}, 1⟩ 2 (ifLines (comparisonOf "1".toList .ge ".".toList)
      ["DISPLAY 'T'".toList] ["DISPLAY 'S'".toList]) {}).state.output = #["S".toList] := by
  decide +kernel

end Cobol
