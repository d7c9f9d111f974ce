import Cobol.Proofs.Statement
import Cobol.Execution

/-!
# Operands by their places

The forms of statements are recognised by patterns, so an operand that is not there cannot be asked
for. This module reads the same forms the other way: the words of a statement are counted, and then
asked for by their places, where a place beyond the last word is an error (`Slip`). The two ways
agree (`Action.byPlace_eq`, `Condition.byPlace_eq`, `Operation.checked_eq`): wherever a place is
asked for, the count has made sure of it, and where a divisor is used, it is not zero.

One place is asked for without a count: the first word of `GO TO`. The verb of a statement is read
with periods taken for blanks, the operands are read without the final period only, and the first
word is there because the two ways of reading leave no statement with a verb and without a word
(`words_dropPeriod_ne_nil`).

## Shape decisions

* The second reading is the first one with every place asked for by its number, and an error where
  there is no such place. It is not used to run anything.
* The two are equal as computations, and not only where both succeed. So an error of the second
  would be an inequality.
-/

namespace Cobol

open Text

/-- What a reading by places can run into. -/
inductive Slip
  /-- A place that is not there. -/
  | place (index : Nat)
  /-- A word that is not there. -/
  | word
  /-- A division by zero. -/
  | division

/-- The word at a place. -/
def place (parts : List Text) (index : Nat) : Except Slip Text :=
  match parts[index]? with
  | some word => .ok word
  | none => .error (.place index)

/-- The first place from `start` on where a word stands, in any case. -/
def placeOf (word : Text) (parts : List Text) (start : Nat) : Except Slip Nat :=
  let index := start + (parts.drop start).findIdx (upper · == word)
  if index < parts.length then .ok index else .error .word

namespace Action

/-- `ofArithmetic` by places. -/
def arithmeticByPlace (operation : Operation) (parts : List Text) : Except Slip Action :=
  if parts.length < 4 then .ok .nothing
  else do return .arithmetic operation (← place parts 1) (← place parts 3)

/-- The target of `ACCEPT` by its place. -/
def acceptByPlace (parts : List Text) : Except Slip Action :=
  if parts.length < 2 then .ok .nothing
  else do return .accept (← place parts 1)

/-- `ofPerform` by places. -/
def performByPlace (parts : List Text) : Except Slip Action :=
  if parts.length < 2 then .ok .nothing
  else do
    let label ← place parts 1
    if (parts.drop 2).any (upper · == "UNTIL".toList) then
      let index ← placeOf "UNTIL".toList parts 2
      return .perform label (.untilTrue ([' '].intercalate (parts.drop (index + 1))))
    else if parts.length < 4 then return .perform label .once
    else if upper (← place parts 3) = "TIMES".toList then
      return .perform label (.times (← place parts 2))
    else return .perform label .once

/-- `ofGoTo` by places. The first word is asked for in any case. -/
def goToByPlace (parts : List Text) : Except Slip Action := do
  let index := if upper (← place parts 0) = "GO".toList then 2 else 1
  if parts.length ≤ index then return .nothing
  else return .perform (← place parts index) .once

/-- `ofText` by places. -/
def byPlace (statement : Text) : Except Slip Action :=
  if statement.isEmpty then .ok .nothing
  else
    let parts := words (Sentence.dropPeriod statement)
    match Verb.ofStatement statement with
    | .add => arithmeticByPlace .add parts
    | .subtract => arithmeticByPlace .subtract parts
    | .multiply => arithmeticByPlace .multiply parts
    | .divide => arithmeticByPlace .divide parts
    | .accept => acceptByPlace parts
    | .perform => performByPlace parts
    | .goTo => goToByPlace parts
    | _ => .ok (ofText statement)

/-- The count of the words covers every place that an arithmetic statement asks for. -/
theorem arithmeticByPlace_eq (operation : Operation) (parts : List Text) :
    arithmeticByPlace operation parts = .ok (ofArithmetic operation parts) := by
  unfold ofArithmetic
  split
  · rfl
  · rename_i hshort
    have hlength : parts.length < 4 := by
      match parts, hshort with
      | [], _ | [_], _ | [_, _], _ | [_, _, _], _ => simp
      | a :: b :: c :: d :: rest, hshort => exact absurd rfl (hshort a b c d rest)
    rw [arithmeticByPlace, if_pos hlength]

/-- The words behind the first `UNTIL`, by its place. -/
theorem repetitionOf_eq (rest : List Text) :
    repetitionOf rest =
      if rest.any (upper · == "UNTIL".toList) then
        .untilTrue ([' '].intercalate (rest.drop (rest.findIdx (upper · == "UNTIL".toList) + 1)))
      else
        match rest with
        | count :: times :: _ => if upper times = "TIMES".toList then .times count else .once
        | _ => .once := by
  have hdrop : (rest.dropWhile fun w ↦ upper w != "UNTIL".toList) =
      rest.drop (rest.findIdx (upper · == "UNTIL".toList)) := by
    rw [List.dropWhile_eq_drop_findIdx_not]
    simp only [bne, Bool.not_not]
  unfold repetitionOf
  rw [hdrop]
  by_cases hany : rest.any (upper · == "UNTIL".toList) = true
  · have hlt : rest.findIdx (upper · == "UNTIL".toList) < rest.length :=
      List.findIdx_lt_length.2 (List.any_eq_true.1 hany)
    rw [List.drop_eq_getElem_cons hlt, if_pos hany]
  · have hge : rest.length ≤ rest.findIdx (upper · == "UNTIL".toList) := by
      rw [← Nat.not_lt, List.findIdx_lt_length, ← List.any_eq_true]
      exact hany
    rw [List.drop_eq_nil_of_le hge]
    exact (if_neg hany).symm

/-- The count of the words covers every place that a `PERFORM` asks for, in each of its forms. -/
theorem performByPlace_eq (parts : List Text) :
    performByPlace parts = .ok (ofPerform parts) := by
  match parts with
  | [] | [_] => rfl
  | verb :: label :: rest =>
    rw [performByPlace, if_neg (by simp), ofPerform, repetitionOf_eq]
    show (if rest.any (upper · == "UNTIL".toList) then _ else _) = _
    split
    · rename_i hany
      have hlt : rest.findIdx (upper · == "UNTIL".toList) < rest.length :=
        List.findIdx_lt_length.2 (List.any_eq_true.1 hany)
      have hplace : placeOf "UNTIL".toList (verb :: label :: rest) 2 =
          .ok (2 + rest.findIdx (upper · == "UNTIL".toList)) :=
        if_pos (by simp only [List.drop_succ_cons, List.drop_zero, List.length_cons]; omega)
      rw [hplace]
      show Except.ok _ = _
      rw [show 2 + rest.findIdx (upper · == "UNTIL".toList) + 1 =
        rest.findIdx (upper · == "UNTIL".toList) + 1 + 1 + 1 by omega]
      rfl
    · match rest with
      | [] | [_] => rfl
      | count :: times :: more =>
        rw [if_neg (by simp)]
        show (if upper times = "TIMES".toList then _ else _) = _
        split
        · simp only [if_pos ‹_›]
          rfl
        · simp only [if_neg ‹_›]
          rfl

end Action

/-- A statement with a verb has a word besides its final period. -/
theorem words_dropPeriod_ne_nil {t : Text} (h : Verb.ofStatement t ≠ .unknown) :
    words (Sentence.dropPeriod t) ≠ [] := by
  intro hnil
  refine h ?_
  rw [← Verb.ofStatement_dropPeriod]
  exact Verb.ofStatement_of_allBlank (allBlank_of_words_eq_nil hnil)

namespace Action

/-- With at least one word every place that a `GO TO` asks for is there. -/
theorem goToByPlace_eq {parts : List Text} (h : parts ≠ []) :
    goToByPlace parts = .ok (ofGoTo parts) := by
  obtain ⟨first, rest, rfl⟩ := List.exists_cons_of_ne_nil h
  show (if (first :: rest).length ≤ (if upper first = "GO".toList then 2 else 1) then _ else _) = _
  unfold ofGoTo
  dsimp only
  by_cases hgo : upper first = "GO".toList
  · simp only [if_pos hgo]
    match rest with
    | [] | [_] => rfl
    | _ :: label :: more => exact if_neg (by simp)
  · simp only [if_neg hgo]
    match rest with
    | [] => rfl
    | label :: more => exact if_neg (by simp)

/-- The count of the words covers the one place that an `ACCEPT` asks for. -/
theorem acceptByPlace_eq (parts : List Text) :
    acceptByPlace parts =
      .ok (match parts with
        | _ :: target :: _ => .accept target
        | _ => .nothing) := by
  match parts with
  | [] | [_] => rfl
  | _ :: target :: rest => exact if_neg (by simp)

/-- **Statements read by places** are the statements read by patterns. -/
theorem byPlace_eq (statement : Text) : byPlace statement = .ok (ofText statement) := by
  unfold byPlace
  split
  · rename_i hempty
    rw [ofText, if_pos hempty]
  · rename_i hne
    dsimp only
    split <;> rename_i hverb
    · rw [arithmeticByPlace_eq, ofText, if_neg hne, hverb]
    · rw [arithmeticByPlace_eq, ofText, if_neg hne, hverb]
    · rw [arithmeticByPlace_eq, ofText, if_neg hne, hverb]
    · rw [arithmeticByPlace_eq, ofText, if_neg hne, hverb]
    · rw [ofText, if_neg hne, hverb]
      exact acceptByPlace_eq _
    · rw [performByPlace_eq, ofText, if_neg hne, hverb]
    · have hword : words (Sentence.dropPeriod statement) ≠ [] :=
        words_dropPeriod_ne_nil (by rw [hverb]; decide)
      rw [goToByPlace_eq hword, ofText, if_neg hne, hverb]
    · rfl

end Action

namespace Condition

/-- `holds` by places. -/
def byPlace (store : Store) (condition : Text) : Except Slip (Except Fault Bool) :=
  let parts := words condition
  if parts.length < 3 then .ok (.ok false)
  else do
    let left ← place parts 0
    let comparison ← place parts 1
    let right ← place parts 2
    match Comparison.ofWord? comparison with
    | none => return .ok false
    | some c => return do
      let v ← operand store left
      let w ← operand store right
      return c.holds (← v.order w)

/-- **Conditions read by places** are the conditions read by patterns. -/
theorem byPlace_eq (store : Store) (condition : Text) :
    byPlace store condition = .ok (holds store condition) := by
  unfold byPlace holds
  match words condition with
  | [] | [_] | [_, _] => rfl
  | left :: comparison :: right :: rest =>
    dsimp only
    rw [if_neg (by simp)]
    show (match Comparison.ofWord? comparison with | none => _ | some c => _) = _
    cases Comparison.ofWord? comparison <;> rfl

end Condition

namespace Operation

/-- The result of an operation, with a divisor that is looked at before it is used. -/
def checked (operation : Operation) (current amount : Int) : Except Slip (Option Int) :=
  if operation = .divide ∧ amount = 0 then .ok none
  else
    match operation with
    | add => .ok (some (current + amount))
    | subtract => .ok (some (current - amount))
    | multiply => .ok (some (current * amount))
    | divide => if amount = 0 then .error .division else .ok (some (current.tdiv amount))

/-- **No divisor is zero** where it is used. -/
theorem checked_eq (operation : Operation) (current amount : Int) :
    operation.checked current amount = .ok (operation.apply current amount) := by
  cases operation with
  | divide =>
    unfold checked apply Numeral.divide?
    split_ifs with hzero <;> simp_all
  | _ => rfl

end Operation

end Cobol
