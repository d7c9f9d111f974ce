import Cobol.Proofs.Expression.Compute
import Cobol.Proofs.TypedRun

/-!
# The arithmetic statements as computations

`ADD n TO X` and its siblings write what `COMPUTE X = X + n` writes, as long as both take the same
number for what the slot of `X` holds. They do for a number and for a slot that does not exist. A
text is read as a numeral by the expression, and counts as zero for the arithmetic statement, so
there the statement does what a `COMPUTE` with `0` in the place of `X` does (`execute_arithmetic`).

The name may be any name of an expression, also one with digits that have no place value. So the two
factors are read here by the laws of the readers; the theory of whole expressions asks for digits
that can be converted.

## Shape decisions

* The four operations are one parameter (`Operation`): each has a verb, a preposition and a sign,
  and everything else about them is the same.
* A number that stands in a sentence is an `Amount`, with its digits as they are written. Leading
  zeros and signs are kept, because the sentence and the expression read them by different readers.
* The two statements are not compared with each other but each with what it writes
  (`State.combine_eq_write`, `doesCompute_of_left`).
-/

namespace Cobol

open Text Sentence Expression

/-! ### Amounts -/

/-- An integer literal that can be read: decimal digits of any script behind an optional minus
sign. -/
structure Amount where
  /-- There is a minus sign. -/
  minus : Bool := false
  /-- The digits. -/
  digits : Text
  /-- There is one. -/
  ne_nil : digits ≠ []
  /-- They are decimal. -/
  decimal : ∀ c ∈ digits, isDecimal c = true
  /-- They are no more than may be read. -/
  short : digits.length ≤ digitLimit

namespace Amount

/-- The sign as it is written. -/
def sign (n : Amount) : Text :=
  if n.minus then ['-'] else []

/-- The literal as it is written. -/
def written (n : Amount) : Text :=
  n.sign ++ n.digits

/-- The integer. -/
def value (n : Amount) : Int :=
  numberValue n.sign n.digits

/-- The sign of an amount is a sign, also where it is absent. -/
theorem isSign_sign (n : Amount) : IsSign n.sign := by
  unfold sign
  cases n.minus
  · exact .nil
  · exact Or.inr (Or.inr rfl)

/-- The digits of an amount are digits for the readers of expressions. -/
theorem all_digits (n : Amount) : ∀ c ∈ n.digits, isDigit c = true := fun c hc ↦
  isDigit_of_isDecimal (n.decimal c hc)

/-- The digits are a number in front of nothing. -/
theorem isNumber (n : Amount) : IsNumber n.sign n.digits [] :=
  ⟨n.isSign_sign, n.ne_nil, n.all_digits, nofun⟩

/-- An amount is read as its value. -/
theorem read_written (n : Amount) : Numeral.read n.written = .ok n.value :=
  Numeral.read_append_of_isDecimal n.isSign_sign n.ne_nil n.decimal n.short

/-- An amount is one token of an expression. -/
theorem spelledBy_written (n : Amount) :
    (Token.number n.sign n.digits).SpelledBy n.written [] :=
  ⟨rfl, n.isNumber⟩

/-- An amount has at least one character. -/
theorem written_ne_nil (n : Amount) : n.written ≠ [] :=
  n.spelledBy_written.not_blank.1

/-- There is no blank in an amount, so it is one word. -/
theorem not_blank_written (n : Amount) : ∀ c ∈ n.written, isBlank c = false :=
  n.spelledBy_written.not_blank.2

theorem trimLeft_written (n : Amount) : trimLeft n.written = n.written := by
  rw [← trim_of_forall_not n.not_blank_written, trimLeft_trim]

/-- An amount ends in a digit, whatever its sign is: no period and no blank is cut from its end. -/
theorem exists_getLast?_written (n : Amount) :
    ∃ c, n.written.getLast? = some c ∧ isDecimal c = true := by
  obtain ⟨c, hc⟩ := Option.isSome_iff_exists.1 (List.getLast?_isSome.2 n.ne_nil)
  refine ⟨c, ?_, n.decimal c (List.mem_of_getLast? hc)⟩
  rw [written, List.getLast?_append, hc]
  rfl

/-- An amount is a literal and not a name. -/
theorem isLiteral_written (n : Amount) : Numeral.isLiteral n.written = true := by
  have hdigits : Numeral.isDigits n.digits = true := by
    rw [Numeral.isDigits, Bool.and_eq_true, List.all_eq_true]
    exact ⟨by simpa using n.ne_nil, n.decimal⟩
  have hline : Numeral.dropFinalNewline n.written = n.written := by
    obtain ⟨c, hlast, hc⟩ := n.exists_getLast?_written
    rw [Numeral.dropFinalNewline, hlast, if_neg]
    rintro h
    obtain rfl : c = '\n' := by simpa using h
    cases hc
  rw [Numeral.isLiteral, hline, written, sign]
  cases n.minus with
  | true => exact hdigits
  | false =>
    rw [if_neg Bool.false_ne_true, List.nil_append]
    split
    · rename_i digits hminus
      have hmem := n.decimal '-' (by rw [hminus]; exact List.mem_cons_self)
      cases hmem
    · exact hdigits

end Amount

/-! ### The two sentences -/

namespace Operation

/-- The operator of an expression. -/
def symbol : Operation → Char
  | add => '+'
  | subtract => '-'
  | multiply => '*'
  | divide => '/'

/-- The word between the amount and the target. -/
def preposition : Operation → Text
  | add => "TO".toList
  | subtract => "FROM".toList
  | multiply => "BY".toList
  | divide => "INTO".toList

/-- The arithmetic statement, without a final period. -/
def sentence (op : Operation) (n : Amount) (target : Text) : Text :=
  op.verb.keyword ++ ' ' :: (n.written ++ ' ' :: (op.preposition ++ ' ' :: target))

/-- The expression that combines a factor with the amount. -/
def expression (op : Operation) (left : Text) (n : Amount) : Text :=
  left ++ ' ' :: op.symbol :: ' ' :: n.written

/-- The verb of the sentence is that of the operation. -/
theorem ofStatement_sentence (op : Operation) (n : Amount) (target : Text) :
    Verb.ofStatement (op.sentence n target) = op.verb := by
  rw [Verb.ofStatement, sentence, Verb.wordsOf_plain_append (Verb.isPlain_keyword op.verb) rfl]
  cases op <;> rfl

/-- The words of the sentence are its parts. -/
theorem words_sentence (op : Operation) (n : Amount) {target : Text} (hne : target ≠ [])
    (hblank : ∀ c ∈ target, isBlank c = false) :
    words (op.sentence n target) = [op.verb.keyword, n.written, op.preposition, target] := by
  have hkeyword := Verb.isPlain_keyword op.verb
  have hpreposition : op.preposition ≠ [] ∧ ∀ c ∈ op.preposition, isBlank c = false := by
    cases op <;> decide
  rw [sentence, words_word_append hkeyword.ne_nil hkeyword.not_blank rfl,
    words_word_append n.written_ne_nil n.not_blank_written rfl,
    words_word_append hpreposition.1 hpreposition.2 rfl, words_of_forall_not hne hblank]

/-- Nothing is trimmed from the expression of an operation: it begins as its left side does and ends
in a digit. -/
theorem trim_expression (op : Operation) (n : Amount) {left : Text} {c : Char}
    (hhead : left.head? = some c) (hc : isBlank c = false) :
    trim (op.expression left n) = op.expression left n := by
  obtain ⟨rest, rfl⟩ := List.head?_eq_some_iff.1 hhead
  obtain ⟨d, hlast, hd⟩ := n.exists_getLast?_written
  refine trim_eq_self (a := c) rfl hc (b := d) ?_ (isBlank_of_isDigit (isDigit_of_isDecimal hd))
  rw [expression, List.getLast?_append, List.getLast?_cons, List.getLast?_cons,
    List.getLast?_cons, hlast]
  rfl

end Operation

/-- A name can stand in front of the `=` of a `COMPUTE`. -/
theorem Expression.IsName.isTarget {name u : Text} (h : IsName name u) : IsTarget name where
  ne_nil := h.ne_nil
  not_blank := h.not_blank
  not_mark hmem := by
    have hmark := h.isNameChar '=' hmem
    revert hmark
    decide

/-! ### The value of the expression -/

section

variable {store : Store} {allowance : Nat} {op : Operation}

/-- A chain ends in front of the operator of the operation, unless it is one of its own. -/
theorem chainEnd_symbol_of_none {operators : Operators} (h : operators op.symbol = none)
    (item : Reader) (a : Int) (u : Text) :
    chainEnd operators item a (op.symbol :: u) = .ok (a, op.symbol :: u) := by
  refine chainEnd_of_stop (trimLeft_cons_of_not ?_ u) ?_ a
  · cases op <;> rfl
  · intro c hc
    rw [List.head?_cons, Option.mem_some_iff] at hc
    rw [← hc, h]

/-- One operation on two factors. -/
theorem plain_expression_of_operation {t u : Text} {a b result : Int}
    (hleft : Reader.plain (factor store (expression store allowance)) t =
      .ok (a, op.symbol :: u))
    (hright : Reader.plain (factor store (expression store allowance)) u = .ok (b, []))
    (hresult : op.apply a b = some result) :
    (expression store (allowance + 1)).plain t = .ok (result, []) := by
  have hsplit : trimLeft (op.symbol :: u) = op.symbol :: u :=
    trimLeft_cons_of_not (by cases op <;> rfl) u
  have hend {operators : Operators} (item : Reader) (c : Int) :
      chainEnd operators item c [] = .ok (c, []) :=
    chainEnd_of_stop rfl (by rintro d ⟨⟩) c
  rw [expression, plain_chain, plain_chain, hleft]
  by_cases hterm : multiplicative op.symbol = none
  · -- the first term ends behind its factor, and the amount is a term of its own
    have hoperator : additive op.symbol = some op.apply := by
      cases op with
      | add | subtract => rfl
      | multiply | divide => cases hterm
    have hitem : Reader.plain
        (chain multiplicative (factor store (expression store allowance))) u = .ok (b, []) := by
      rw [plain_chain, hright]
      exact hend _ b
    show (chainEnd multiplicative _ a (op.symbol :: u) >>= _) = _
    rw [chainEnd_symbol_of_none hterm]
    show chainEnd additive _ a (op.symbol :: u) = _
    rw [chainEnd_of_item hsplit hoperator hitem hresult]
    exact hend _ result
  · have hoperator : multiplicative op.symbol = some op.apply := by
      cases op with
      | add | subtract => exact absurd rfl hterm
      | multiply | divide => rfl
    show (chainEnd multiplicative _ a (op.symbol :: u) >>= _) = _
    rw [chainEnd_of_item hsplit hoperator hright hresult, hend]
    exact hend _ result

/-- The value of an operation on what is read in front of its operator. -/
theorem evaluate_expression {left : Text} {n : Amount} {a result : Int}
    (hleft : ∀ u, Reader.plain (factor store (expression store allowance)) (left ++ ' ' :: u) =
      .ok (a, trimLeft u))
    (hresult : op.apply a n.value = some result) :
    evaluate store (allowance + 1) (op.expression left n) = .ok (.ok result) := by
  have hfirst : Reader.plain (factor store (expression store allowance))
      (op.expression left n) = .ok (a, op.symbol :: ' ' :: n.written) := by
    rw [Operation.expression, hleft, trimLeft_cons_of_not (by cases op <;> rfl)]
  have hsecond : Reader.plain (factor store (expression store allowance)) (' ' :: n.written) =
      .ok (n.value, []) := by
    have hsplit : trimLeft (' ' :: n.written) = n.sign ++ n.digits ++ [] := by
      rw [List.append_nil, trimLeft_cons_of_isBlank rfl]
      exact n.trimLeft_written
    rw [plain_factor_of_number hsplit n.isNumber]
    exact congrArg (converted []) n.read_written
  rw [evaluate_eq, plain_expression_of_operation hfirst hsecond hresult]

end

/-! ### What the sentences do -/

section

variable {m : Machine} {allowance : Nat} {nested : List Text → State → Outcome}
  {following : List Text} {s : State} {op : Operation} {n : Amount} {target : Text}

/-- The sentence does what a `COMPUTE` of the expression for the target does. -/
def DoesCompute (m : Machine) (allowance : Nat) (nested : List Text → State → Outcome)
    (sentence : Text) (following : List Text) (s : State) (target expression : Text) : Prop :=
  ∀ computation, dropPeriod computation = computeSentence target expression →
    execute m allowance nested sentence following s =
      execute m allowance nested computation following s

/-- An arithmetic statement combines what its target counts as with its amount. -/
theorem execute_of_operation (htarget : IsName target []) {sentence : Text}
    (hsentence : dropPeriod sentence = op.sentence n target) :
    execute m allowance nested sentence following s = s.combine op n.value target := by
  have hverb : Verb.ofStatement sentence = op.verb := by
    rw [← Verb.ofStatement_dropPeriod, hsentence, op.ofStatement_sentence]
  rw [execute, Action.ofText_of_operation op hverb, hsentence,
    op.words_sentence n htarget.ne_nil htarget.not_blank]
  show act allowance _ s (.arithmetic op n.written target) = _
  rw [act, if_pos n.isLiteral_written, n.read_written]

/-- A `COMPUTE` of one operation writes its result. -/
theorem execute_of_expression (htarget : IsTarget target) {left : Text} {c : Char}
    (hhead : left.head? = some c) (hc : isBlank c = false) {a result : Int}
    (hleft : ∀ u, Reader.plain (factor s.store (expression s.store allowance)) (left ++ ' ' :: u) =
      .ok (a, trimLeft u))
    (hresult : op.apply a n.value = some result) {computation : Text}
    (hcomputation : dropPeriod computation = computeSentence target (op.expression left n)) :
    execute m (allowance + 1) nested computation following s =
      s.write target (.number result) := by
  have htrim : dropPeriod computation =
      trimRight (computeSentence target (op.expression left n)) := by
    rw [← hcomputation, trimRight_dropPeriod]
  rw [execute, ofText_of_compute htarget htrim, op.trim_expression n hhead hc]
  show act (allowance + 1) (trim computation) s (.compute target (op.expression left n)) = _
  rw [act, evaluate_expression hleft hresult]

/-- The number that an arithmetic statement takes for a value. -/
def Value.counted : Value → Int
  | .number n => n
  | .text _ => 0

/-- An arithmetic statement whose operation has a result writes that result. -/
theorem State.combine_eq_write {amount result : Int}
    (h : op.apply (s.store.get target).counted amount = some result) :
    s.combine op amount target = s.write target (.number result) := by
  rw [combine]
  cases hvalue : s.store.get target with
  | number c =>
    rw [hvalue] at h
    dsimp only
    rw [show op.apply c amount = some result from h]
  | text t =>
    rw [hvalue] at h
    dsimp only
    rw [show op.apply 0 amount = some result from h]

/-- The sentence does what `COMPUTE` does with any left side that is worth what the slot is counted
as. -/
theorem doesCompute_of_left (htarget : IsName target [])
    (hn : op = .divide → n.value ≠ 0) {sentence left : Text}
    (hsentence : dropPeriod sentence = op.sentence n target) {c : Char}
    (hhead : left.head? = some c) (hc : isBlank c = false)
    (hleft : ∀ u, Reader.plain (factor s.store (expression s.store allowance)) (left ++ ' ' :: u) =
      .ok ((s.store.get target).counted, trimLeft u)) :
    DoesCompute m (allowance + 1) nested sentence following s target (op.expression left n) := by
  intro computation hcomputation
  obtain ⟨result, hresult⟩ :
      ∃ result, op.apply (s.store.get target).counted n.value = some result := by
    refine Option.ne_none_iff_exists'.1 fun hnone ↦ ?_
    obtain ⟨hdivide, hzero⟩ := Operation.apply_eq_none_iff.1 hnone
    exact hn hdivide hzero
  rw [execute_of_operation htarget hsentence, State.combine_eq_write hresult,
    execute_of_expression htarget.isTarget hhead hc hleft hresult hcomputation]

/-- A name that counts as what an expression reads stands for itself. -/
theorem doesCompute_of_counted (htarget : IsName target [])
    (hn : op = .divide → n.value ≠ 0) {sentence : Text}
    (hsentence : dropPeriod sentence = op.sentence n target)
    (hcounted : (s.store.get target).integer = .ok (s.store.get target).counted) :
    DoesCompute m (allowance + 1) nested sentence following s target (op.expression target n) := by
  obtain ⟨c, more, hname, -⟩ := htarget.chars
  have hc : isBlank c = false := htarget.not_blank c (hname ▸ List.mem_cons_self)
  have hhead : target.head? = some c := congrArg List.head? hname
  refine doesCompute_of_left htarget hn hsentence hhead hc fun u ↦ ?_
  have hsplit : trimLeft (target ++ ' ' :: u) = target ++ ' ' :: u := by
    rw [hname]
    exact trimLeft_cons_of_not hc _
  have hstop : IsName target (' ' :: u) := by
    refine ⟨htarget.chars, ?_⟩
    rintro d ⟨⟩
    rfl
  rw [plain_factor_of_name hsplit hstop, hcounted, converted, trimLeft_cons_of_isBlank rfl]

/-- **An arithmetic statement does what a `COMPUTE` does.** It does what the one of the operation on
its target does, if the target holds a number, nothing, or a text for zero or for no number; a slot
with a numeric picture holds a number. Whenever the target holds a text, it does what the one of the
operation on `0` does. The expression needs one level of the allowance, which the statement does
not. -/
theorem execute_arithmetic (m : Machine) (allowance : Nat)
    (nested : List Text → State → Outcome) (following : List Text) (s : State) (op : Operation)
    (n : Amount) (hn : op = .divide → n.value ≠ 0) {target sentence : Text}
    (htarget : IsName target []) (hsentence : dropPeriod sentence = op.sentence n target) :
    ((∀ t, s.store.get target = .text t → (Value.text t).integer = .ok 0) →
      DoesCompute m (allowance + 1) nested sentence following s target
        (op.expression target n)) ∧
    (s.store.Typed → ∀ p, s.store.picture? target = some p → p.isNumeric = true →
      DoesCompute m (allowance + 1) nested sentence following s target
        (op.expression target n)) ∧
    ∀ t, s.store.get target = .text t →
      DoesCompute m (allowance + 1) nested sentence following s target
        (op.expression ['0'] n) := by
  refine ⟨fun hzero ↦ ?_, fun htyped p hp hnumeric ↦ ?_, fun t ht ↦ ?_⟩
  · refine doesCompute_of_counted htarget hn hsentence ?_
    cases hvalue : s.store.get target with
    | number c => rfl
    | text t => exact hzero t hvalue
  · refine doesCompute_of_counted htarget hn hsentence ?_
    obtain ⟨v, hv, hholds⟩ := htyped target p hp
    rw [Store.get, hv]
    cases v with
    | number c => rfl
    | text t => exact absurd (hnumeric.symm.trans hholds.1) (by decide)
  · -- a text is replaced by zero, and the expression starts with the numeral for it
    refine doesCompute_of_left htarget hn hsentence (c := '0') rfl rfl fun u ↦ ?_
    have hsplit : trimLeft (['0'] ++ ' ' :: u) = [] ++ ['0'] ++ ' ' :: u := rfl
    have hnumber : IsNumber [] ['0'] (' ' :: u) := by
      refine ⟨.nil, List.cons_ne_nil _ _, by decide, ?_⟩
      rintro d ⟨⟩
      rfl
    rw [plain_factor_of_number hsplit hnumber, ht]
    show converted (' ' :: u) (.ok 0) = _
    rw [converted, trimLeft_cons_of_isBlank rfl]
    rfl

end

/-- A program with a number and with a text that is one. -/
def numbersLines : List Text :=
  ["DATA DIVISION.", "01 X PIC 9(3) VALUE 10.", "01 T PIC X(3) VALUE '12'.",
    "PROCEDURE DIVISION."].map String.toList

/-- What `numbersLines` says. -/
def numbers : Program where
  declarations := ⟨[("X".toList, ⟨"X".toList, ⟨true, 3⟩, some (.number 10), 2⟩),
    ("T".toList, ⟨"T".toList, ⟨false, 3⟩, some (.text "12".toList), 3⟩)]⟩

/-- The state in which `numbers` starts. -/
def numbersStart : State where
  store :=
    { values := ⟨[("X".toList, .number 10), ("T".toList, .text "12 ".toList)]⟩
      pictures := ⟨[("X".toList, ⟨true, 3⟩), ("T".toList, ⟨false, 3⟩)]⟩ }

/-- The literal `-3`. -/
def minusThree : Amount where
  minus := true
  digits := ['3']
  ne_nil := by decide
  decimal := by decide
  short := by decide

/-- A negative divisor with a number, with a name that has no slot, and with a text that counts as
zero. -/
theorem execute_arithmetic_minusThree :
    numbersStart.store.Typed ∧ minusThree.value ≠ 0 ∧
    execute ⟨{}, 1⟩ 1 (fun _ ↦ State.done) "DIVIDE -3 INTO X.".toList [] numbersStart =
      execute ⟨{}, 1⟩ 1 (fun _ ↦ State.done) "COMPUTE X = X / -3.".toList [] numbersStart ∧
    execute ⟨{}, 1⟩ 1 (fun _ ↦ State.done) "DIVIDE -3 INTO N".toList [] numbersStart =
      execute ⟨{}, 1⟩ 1 (fun _ ↦ State.done) "COMPUTE N = N / -3".toList [] numbersStart ∧
    execute ⟨{}, 1⟩ 1 (fun _ ↦ State.done) "DIVIDE -3 INTO T.".toList [] numbersStart =
      execute ⟨{}, 1⟩ 1 (fun _ ↦ State.done) "COMPUTE T = 0 / -3.".toList [] numbersStart := by
  have hparse : Program.parse numbersLines = .ok numbers := by decide +kernel
  have hstart : State.start numbers none = .ok numbersStart := by rfl
  have htyped : numbersStart.store.Typed := (State.typed_start hparse hstart).1
  have hn : minusThree.value ≠ 0 := by decide
  have hname {c : Char} (hc : isLetter c = true) : IsName [c] [] :=
    ⟨⟨c, [], rfl, hc, nofun⟩, by rintro d ⟨⟩⟩
  have hX : dropPeriod "DIVIDE -3 INTO X.".toList =
      Operation.divide.sentence minusThree ['X'] := by decide +kernel
  have hN : dropPeriod "DIVIDE -3 INTO N".toList =
      Operation.divide.sentence minusThree ['N'] := by decide +kernel
  have hT : dropPeriod "DIVIDE -3 INTO T.".toList =
      Operation.divide.sentence minusThree ['T'] := by decide +kernel
  have hdeclared := (execute_arithmetic ⟨{}, 1⟩ 0 (fun _ ↦ State.done) [] numbersStart .divide
    minusThree (fun _ ↦ hn) (hname (by decide)) hX).2.1 htyped ⟨true, 3⟩ (by decide) rfl
  have hunset := (execute_arithmetic ⟨{}, 1⟩ 0 (fun _ ↦ State.done) [] numbersStart .divide
    minusThree (fun _ ↦ hn) (hname (by decide)) hN).1 nofun
  have htext := (execute_arithmetic ⟨{}, 1⟩ 0 (fun _ ↦ State.done) [] numbersStart .divide
    minusThree (fun _ ↦ hn) (hname (by decide)) hT).2.2 "12 ".toList (by decide)
  exact ⟨htyped, hn, hdeclared _ (by decide +kernel), hunset _ (by decide +kernel),
    htext _ (by decide +kernel)⟩

/-- An arithmetic statement takes a text for zero, whatever number it is. -/
theorem add_ne_compute_of_text :
    Program.parse numbersLines = .ok numbers ∧
    State.start numbers none = .ok numbersStart ∧
    (executeBlock ⟨{}, 1⟩ 2 ["ADD 1 TO T.".toList] numbersStart).state.store.get "T".toList =
      .text "1  ".toList ∧
    (executeBlock ⟨{}, 1⟩ 2 ["COMPUTE T = T + 1.".toList] numbersStart).state.store.get
      "T".toList = .text "13 ".toList :=
  ⟨by decide +kernel, rfl, by decide +kernel, by decide +kernel⟩

end Cobol
