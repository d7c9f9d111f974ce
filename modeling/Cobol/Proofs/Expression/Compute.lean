import Cobol.Execution
import Cobol.Proofs.Expression.Evaluation
import Cobol.Proofs.Statement

/-!
# Evaluation is exact

* `evaluate_exact`: a text is evaluated to a value if and only if the grammar gives it that value,
  and fails otherwise; a `COMPUTE` stores the value in the first case and leaves a note in the
  second.
* The one exception is an allowance that does not cover the parentheses. It shows as a fault of its
  own, never as an answer.

The sentence of a `COMPUTE` is given up to its final period, so it may be written with or without
one.

## Shape decisions

* The answer of an evaluation is a value or a failure with its reason and its place. The theorem
  says which of the two it is, and the value; where the place is belongs to the readers.
* The allowance is no hypothesis but a case. What is said of the other case is that it needs more
  open parentheses than the allowance has.
-/

namespace Cobol

open Text Sentence

/-! ### The sentence of a `COMPUTE` -/

/-- A text that may stand before the `=` of a `COMPUTE`. -/
structure IsTarget (target : Text) : Prop where
  /-- There is a character. -/
  ne_nil : target ≠ []
  /-- There is no blank. -/
  not_blank : ∀ c ∈ target, isBlank c = false
  /-- There is no `=`. -/
  not_mark : '=' ∉ target

/-- `COMPUTE target = expression`, without a final period. -/
def computeSentence (target expression : Text) : Text :=
  "COMPUTE".toList ++ ' ' :: (target ++ " = ".toList ++ expression)

theorem isPlain_compute : Verb.IsPlain "COMPUTE".toList :=
  Verb.isPlain_keyword .compute

/-- The verb of the sentence is `COMPUTE`. -/
theorem ofStatement_compute (t : Text) :
    Verb.ofStatement ("COMPUTE".toList ++ ' ' :: t) = .compute := by
  rw [Verb.ofStatement, Verb.wordsOf_plain_append isPlain_compute rfl]
  rfl

/-- Behind the verb stands the text of the assignment, without the blanks around it. -/
theorem afterWord_trimRight_compute {t : Text} (ht : ¬AllBlank t) :
    afterWord (trimRight ("COMPUTE".toList ++ ' ' :: t)) = trim t := by
  have hnot : ¬AllBlank ([' '] ++ t) := fun hall ↦ ht (allBlank_append.1 hall).2
  rw [show ' ' :: t = [' '] ++ t from rfl, trimRight_append_of_not_allBlank _ hnot,
    trimRight_append_of_not_allBlank _ ht, List.singleton_append,
    afterWord_word_append isPlain_compute.ne_nil isPlain_compute.not_blank rfl, trim_trimRight]

/-- A `COMPUTE` is cut at its `=`. -/
theorem ofCompute_trim {target : Text} (h : IsTarget target) (expression : Text) :
    Action.ofCompute (trim (target ++ " = ".toList ++ expression)) =
      .compute target (trim expression) := by
  obtain ⟨c, more, rfl⟩ := List.exists_cons_of_ne_nil h.ne_nil
  have hmark : isBlank '=' = false := rfl
  have hwhole : trim ((c :: more) ++ " = ".toList ++ expression) =
      ((c :: more) ++ [' ']) ++ '=' :: trimRight (' ' :: expression) := by
    have hsplit : (c :: more) ++ " = ".toList ++ expression =
        ((c :: more) ++ [' ']) ++ '=' :: ' ' :: expression := by simp
    have hnot : ¬AllBlank ('=' :: ' ' :: expression) := fun hall ↦ by
      rw [allBlank_cons, hmark] at hall
      cases hall.1
    rw [hsplit, trim, trimRight_append_of_not_allBlank _ hnot, trimRight_cons_of_not hmark]
    exact trimLeft_cons_of_not (h.not_blank c (List.mem_cons_self ..)) _
  have hcut : cutAt? '=' (trim ((c :: more) ++ " = ".toList ++ expression)) =
      some ((c :: more) ++ [' '], trimRight (' ' :: expression)) := by
    refine cutAt?_eq_some_iff.2 ⟨hwhole, ?_⟩
    rw [List.mem_append]
    exact not_or.2 ⟨h.not_mark, by decide⟩
  have htarget : trim ((c :: more) ++ [' ']) = c :: more := by
    rw [trim, trimRight_append_of_allBlank _ (allBlank_cons.2 ⟨rfl, AllBlank.nil⟩)]
    exact trim_of_forall_not h.not_blank
  have hexpression : trim (trimRight (' ' :: expression)) = trim expression := by
    rw [trim_trimRight, ← trim_trimLeft, trimLeft_cons_of_isBlank rfl, trim_trimLeft]
  rw [Action.ofCompute, hcut]
  dsimp only
  rw [htarget, hexpression]
  rfl

/-- **The sentence asks for a `COMPUTE`** with its target and its expression, both without the
blanks around them. -/
theorem ofText_of_compute {target sentence expression : Text} (h : IsTarget target)
    (hsentence : dropPeriod sentence = trimRight (computeSentence target expression)) :
    Action.ofText (trim sentence) = .compute target (trim expression) := by
  have hverb : Verb.ofStatement sentence = .compute := by
    rw [← Verb.ofStatement_dropPeriod, hsentence, ← Verb.ofStatement_trim, trim_trimRight,
      Verb.ofStatement_trim]
    exact ofStatement_compute _
  have hne : trim sentence ≠ [] := Verb.trim_ne_nil (by rw [hverb]; decide)
  have harguments : arguments sentence = trim (target ++ " = ".toList ++ expression) := by
    have hnot : ¬AllBlank (target ++ " = ".toList ++ expression) := by
      intro hall
      cases hall '=' (by simp)
    rw [arguments, hsentence]
    exact afterWord_trimRight_compute hnot
  have haction : Action.ofText (trim sentence) = Action.ofCompute (arguments sentence) := by
    simp [Action.ofText, hne, hverb, arguments_trim]
  rw [haction, harguments, ofCompute_trim h]

/-! ### What a `COMPUTE` does -/

namespace Expression

/-- Blanks around an expression do not change its answer. -/
theorem isAnswer_trim_iff {store : Store} {t : Text} {answer : Except Failure Int} :
    IsAnswer store (trim t) answer ↔ IsAnswer store t answer := by
  cases answer with
  | error failure => exact forall_congr' fun a ↦ not_congr denotes_trim_iff
  | ok a => exact forall_congr' fun b ↦ iff_congr denotes_trim_iff Iff.rfl

/-- What a `COMPUTE` does with the answer for its expression. -/
def settle (s : State) (target expression : Text) : Except Failure Int → Outcome
  | .ok a => s.write target (.number a)
  | .error failure => (s.note (.expressionFailed expression failure)).done

/-- A `COMPUTE` answers as the evaluation of its expression does. -/
theorem execute_compute_cases {s : State} (hstore : HasShortRuns s.store) (allowance : Nat)
    {t : Text} (ht : Readable t) (m : Machine) (nested : List Text → State → Outcome)
    (following : List Text) {target sentence : Text} (htarget : IsTarget target)
    (hsentence : dropPeriod sentence = trimRight (computeSentence target t)) :
    execute m allowance nested sentence following s = s.fail .nesting ∧
        allowance ≤ t.count '(' ∨
      ∃ answer, execute m allowance nested sentence following s =
        settle s target (trim t) answer ∧ IsAnswer s.store t answer := by
  have hexecute : execute m allowance nested sentence following s =
      act allowance (trim sentence) s (.compute target (trim t)) := by
    rw [execute, ofText_of_compute htarget hsentence]
    rfl
  have htrim : Readable (trim t) := ht.of_isInfix (trim_isInfix t)
  rcases evaluate_cases hstore allowance htrim with ⟨hnesting, hle⟩ | ⟨answer, hanswer, his⟩
  · refine Or.inl ⟨?_, Nat.le_trans hle ((trim_isInfix t).sublist.count_le _)⟩
    rw [hexecute, act, hnesting]
  · refine Or.inr ⟨answer, ?_, isAnswer_trim_iff.1 his⟩
    rw [hexecute, act, hanswer]
    cases answer <;> rfl

/-- **Evaluation is exact, and so is `COMPUTE`.** Both answer, unless there are more open
parentheses than the allowance. -/
theorem evaluate_exact {s : State} (hstore : HasShortRuns s.store) (allowance : Nat) {t : Text}
    (ht : Readable t) :
    (evaluate s.store allowance t = .error .nesting ∧ allowance ≤ t.count '(' ∨
      (∀ a, evaluate s.store allowance t = .ok (.ok a) ↔ Denotes s.store t a) ∧
      ((∀ a, ¬Denotes s.store t a) →
        ∃ failure, evaluate s.store allowance t = .ok (.error failure))) ∧
    ∀ (m : Machine) (nested : List Text → State → Outcome) (following : List Text)
      {target sentence : Text}, IsTarget target →
      dropPeriod sentence = trimRight (computeSentence target t) →
      (execute m allowance nested sentence following s = s.fail .nesting ∧
          allowance ≤ t.count '(' ∨
        (∀ a, Denotes s.store t a →
          execute m allowance nested sentence following s = s.write target (.number a)) ∧
        ((∀ a, ¬Denotes s.store t a) →
          ∃ failure, execute m allowance nested sentence following s =
            (s.note (.expressionFailed (trim t) failure)).done)) := by
  refine ⟨?_, fun m nested following target sentence htarget hsentence ↦ ?_⟩
  · -- the reader gives one answer, and the grammar gives a number exactly if the answer is that
    -- number
    refine (evaluate_cases hstore allowance ht).imp_right ?_
    rintro ⟨answer, hanswer, his⟩
    rw [hanswer]
    cases answer with
    | error failure =>
      refine ⟨fun a ↦ ⟨nofun, fun ha ↦ absurd ha (his a)⟩, fun _ ↦ ⟨failure, rfl⟩⟩
    | ok a =>
      refine ⟨fun b ↦ ?_, fun hnone ↦ absurd ((his a).2 rfl) (hnone a)⟩
      rw [his b, Except.ok.injEq, Except.ok.injEq]
  · have hcases := execute_compute_cases hstore allowance ht m nested following htarget hsentence
    refine hcases.imp_right ?_
    rintro ⟨answer, hanswer, his⟩
    rw [hanswer]
    cases answer with
    | error failure => exact ⟨fun a ha ↦ absurd ha (his a), fun _ ↦ ⟨failure, rfl⟩⟩
    | ok a =>
      refine ⟨fun b hb ↦ ?_, fun hnone ↦ absurd ((his a).2 rfl) (hnone a)⟩
      rw [← (his b).1 hb]
      rfl

/-- A state with a slot whose name holds a `-` and whose text is a signed number. -/
def rated : State where
  store := { values := ⟨[("RATE-1".toList, .text " -3".toList)]⟩ }

/-- A quotient that is rounded, of a product, with every use of `-` in it. -/
def rounded : Text := "2 * (RATE-1 - -1) / 3".toList

/-- Stores the value of `rounded`. -/
def roundedSentence : Text := "COMPUTE T = 2 * (RATE-1 - -1) / 3.".toList

/-- A quotient that is rounded toward zero, with signs in front of numbers and of parentheses. -/
theorem evaluate_exact_rounded :
    (HasShortRuns rated.store ∧ Readable rounded) ∧ Denotes rated.store rounded (-1) ∧
      execute ⟨{}, 1⟩ 2 (fun _ ↦ State.done) roundedSentence [] rated =
        rated.write "T".toList (.number (-1)) := by
  have hstore : HasShortRuns rated.store := by
    intro name t ht
    rw [rated, Table.get?, List.lookup_cons] at ht
    split at ht
    · cases ht
      exact shortRuns_of_length_le (by decide)
    · cases ht
  have ht : Readable rounded := ⟨by decide +kernel, shortRuns_of_length_le (by decide)⟩
  have hvalue : evaluate rated.store 2 rounded = .ok (.ok (-1)) := by decide +kernel
  have htarget : IsTarget "T".toList := ⟨by decide, by decide, by decide⟩
  have hsentence : dropPeriod roundedSentence = trimRight (computeSentence "T".toList rounded) := by
    decide +kernel
  have hcount : ¬2 ≤ rounded.count '(' := by decide
  obtain ⟨hevaluate, hcompute⟩ := evaluate_exact hstore 2 ht
  have hdenotes : Denotes rated.store rounded (-1) := by
    rcases hevaluate with ⟨-, hle⟩ | ⟨hiff, -⟩
    · exact absurd hle hcount
    · exact (hiff (-1)).1 hvalue
  refine ⟨⟨hstore, ht⟩, hdenotes, ?_⟩
  rcases hcompute ⟨{}, 1⟩ (fun _ ↦ State.done) [] htarget hsentence with ⟨-, hle⟩ | ⟨hwrite, -⟩
  · exact absurd hle hcount
  · exact hwrite (-1) hdenotes

end Expression

end Cobol
