import Cobol.Proofs.Expression.Evaluation
import Cobol.Session

/-!
# Where faults come from

Texts become integers and integers become texts in a few places, and it is there that the faults of
the language arise. This module goes through the places once.

* Reading a text that has the shape of an integer, and writing an integer, can only meet the limit
  on the number of digits (`Fault.IsLong`): `failsOnly_read`, `failsOnly_write`. Everything that
  resolves an operand, tests a condition, compares a branch or reads a declaration is built from
  these two.
* An expression takes a run of digits before it asks for its value, so it can also meet a digit
  without place value (`IsLoose`), and it can run out of its allowance: `failsOnly_evaluate`.
* Filling a field can only fail if its picture is too wide to be filled: `failsOnly_coerce`,
  `failsOnly_set`.

## Shape decisions

* `FailsOnly` is a bound on the faults and says nothing about success, so it goes through `map` and
  `bind` without a look at the values.
* Kinds of faults are predicates on faults with the reason inside: how many digits there were, which
  expression holds the digit, which picture is too wide. What a caller wants to know of the reason
  is added where it is known (`Fault.IsWriting.imp`).
-/

namespace Cobol

open Text

/-! ### Kinds of faults -/

/-- A number with more digits than may be read or written. -/
inductive Fault.IsLong : Fault → Prop
  /-- A numeral that is too long to be read. -/
  | numeral {digits : Nat} (h : digitLimit < digits) : IsLong (.longNumeral digits)
  /-- A number that is too long to be written. -/
  | number : IsLong .longNumber

/-- A field that cannot be filled. -/
inductive Fault.IsOverflow : Fault → Prop
  /-- Its spaces cannot be counted. -/
  | spaces : IsOverflow .uncountableSpaces
  /-- Its width cannot be counted. -/
  | width : IsOverflow .uncountableWidth

/-- Digits behind an optional sign, not all of which have a place value. -/
def IsLoose (t : Text) : Prop :=
  ∃ sign digits, Expression.IsSign sign ∧ t = sign ++ digits ∧ (∀ c ∈ digits, isDigit c = true) ∧
    ∃ c ∈ digits, isDecimal c = false

/-- A text picture of a width that cannot be counted. -/
def Picture.IsWide (p : Picture) : Prop :=
  p.isNumeric = false ∧ Field.countLimit ≤ p.width

instance : DecidablePred Picture.IsWide := fun p ↦
  inferInstanceAs (Decidable (p.isNumeric = false ∧ Field.countLimit ≤ p.width))

/-- A declared slot has a picture that cannot be filled. -/
def Store.HasWide (store : Store) : Prop :=
  ∃ name p, store.picture? name = some p ∧ p.IsWide

/-- The computation fails with none but those faults. -/
def FailsOnly {α : Type} (P : Fault → Prop) (x : Except Fault α) : Prop :=
  ∀ f, x = .error f → P f

namespace FailsOnly

variable {α β : Type} {P Q : Fault → Prop} {x : Except Fault α}

/-- A result is no failure. -/
theorem ok (a : α) : FailsOnly P (.ok a) := nofun

/-- A fault of the kind is a failure of the kind. -/
theorem error {fault : Fault} (h : P fault) : FailsOnly P (.error fault : Except Fault α) := by
  rintro f ⟨⟩
  exact h

/-- The kind of the faults may be widened. -/
theorem mono (hx : FailsOnly P x) (h : ∀ f, P f → Q f) : FailsOnly Q x := fun f hf ↦ h f (hx f hf)

/-- What is made of a result fails with nothing new. -/
theorem map (hx : FailsOnly P x) (g : α → β) : FailsOnly P (x.map g) := by
  cases x with
  | ok a => exact ok _
  | error fault => exact error (hx fault rfl)

/-- A step behind another one fails with what the two fail with. -/
theorem bind (hx : FailsOnly P x) {g : α → Except Fault β} (hg : ∀ a, FailsOnly P (g a)) :
    FailsOnly P (x >>= g) := by
  cases x with
  | ok a => exact hg a
  | error fault => exact error (hx fault rfl)

end FailsOnly

/-! ### Numerals -/

namespace Numeral

/-- Digits are at least one character, and all have a place value. -/
theorem isDigits_iff {digits : Text} :
    isDigits digits = true ↔ digits ≠ [] ∧ ∀ c ∈ digits, isDecimal c = true := by
  rw [isDigits, Bool.and_eq_true, List.all_eq_true]
  simp

/-- A text of the shape of an integer can only be too long. -/
theorem failsOnly_read {t sign digits : Text} (ht : trim t = sign ++ digits)
    (hsign : Expression.IsSign sign) (hdigits : isDigits digits = true) :
    FailsOnly Fault.IsLong (read t) := by
  obtain ⟨-, hdecimal⟩ := isDigits_iff.1 hdigits
  have hsplit : splitSign (trim t) = (decide (sign = ['-']), digits) := by
    rw [ht]
    exact splitSign_append hsign fun c hc ↦ isDigit_of_isDecimal (hdecimal c hc)
  unfold read
  rw [hsplit]
  dsimp only
  rw [if_pos hdigits]
  split
  · exact .error (.numeral ‹_›)
  · exact .ok _

/-- There are no blanks around a sign and digits. -/
theorem trim_of_digits {sign digits : Text} (hsign : Expression.IsSign sign)
    (hdigits : isDigits digits = true) : trim (sign ++ digits) = sign ++ digits := by
  refine trim_of_forall_not fun c hc ↦ ?_
  rcases List.mem_append.1 hc with hc | hc
  · exact hsign.not_blank c hc
  · exact isBlank_of_isDigit (isDigit_of_isDecimal ((isDigits_iff.1 hdigits).2 c hc))

/-- A sign and digits can only be too long to be read. -/
theorem failsOnly_read_digits {sign digits : Text} (hsign : Expression.IsSign sign)
    (hdigits : isDigits digits = true) : FailsOnly Fault.IsLong (read (sign ++ digits)) :=
  failsOnly_read (trim_of_digits hsign hdigits) hsign hdigits

/-- What counts as a literal can only be too long to be read. -/
theorem failsOnly_read_of_isLiteral {t : Text} (h : isLiteral t = true) :
    FailsOnly Fault.IsLong (read t) := by
  unfold isLiteral at h
  split at h
  · rename_i digits hdigits
    have hsign : Expression.IsSign ['-'] := Or.inr (Or.inr rfl)
    refine failsOnly_read ?_ hsign h
    rw [← trim_dropFinalNewline, hdigits]
    exact trim_of_digits hsign h
  · refine failsOnly_read ?_ Expression.IsSign.nil h
    rw [← trim_dropFinalNewline]
    exact trim_of_digits .nil h

/-- A number can only be too long to be written. -/
theorem failsOnly_write (n : Int) : FailsOnly Fault.IsLong (write n) := by
  unfold write
  split
  · exact .ok _
  · exact .error .number

end Numeral

/-! ### Values and operands -/

namespace Value

/-- The integer of a value can only be too long: a text that is no integer counts as zero. -/
theorem failsOnly_integer (v : Value) : FailsOnly Fault.IsLong v.integer := by
  cases v with
  | number n => exact .ok _
  | text t =>
    refine FailsOnly.map ?_ _
    rw [integer?]
    split
    · rename_i hsigned
      obtain ⟨sign, digits, hsign, ht, hne, hdigits⟩ := Expression.exists_sign_of_isSigned hsigned
      have hisDigits := Numeral.isDigits_iff.2 ⟨hne, hdigits⟩
      rw [ht]
      exact (Numeral.failsOnly_read_digits hsign hisDigits).map _
    · exact .ok _

/-- The text of a value can only be that of a number that is too long. -/
theorem failsOnly_shown (v : Value) : FailsOnly Fault.IsLong v.shown := by
  cases v with
  | number n => exact Numeral.failsOnly_write n
  | text t => exact .ok t

/-- Two values can only be too long to be compared. -/
theorem failsOnly_order (v w : Value) : FailsOnly Fault.IsLong (v.order w) := by
  unfold order
  split
  · exact .ok _
  · exact .bind (failsOnly_shown v) fun _ ↦ .bind (failsOnly_shown w) fun _ ↦ .ok _

end Value

namespace Condition

/-- A token of a condition stands for a value, or it is too long. -/
theorem failsOnly_operand (store : Store) (token : Text) :
    FailsOnly Fault.IsLong (operand store token) := by
  unfold operand
  split_ifs with _ hliteral
  · exact .ok _
  · exact (Numeral.failsOnly_read_of_isLiteral hliteral).map _
  · exact .ok _
  · exact .ok _

/-- A condition is true or false, or an operand of it is too long. -/
theorem failsOnly_holds (store : Store) (condition : Text) :
    FailsOnly Fault.IsLong (holds store condition) := by
  unfold holds
  split
  · split
    · exact .ok _
    · exact .bind (failsOnly_operand store _) fun v ↦ .bind (failsOnly_operand store _) fun w ↦
        .bind (v.failsOnly_order w) fun _ ↦ .ok _
  · exact .ok _

end Condition

/-- An operand of a statement stands for a value, or it is too long. -/
theorem failsOnly_operandValue (store : Store) (token : Text) :
    FailsOnly Fault.IsLong (operandValue store token) := by
  unfold operandValue
  split
  · exact .ok _
  · split
    · exact (Numeral.failsOnly_read_of_isLiteral ‹_›).map _
    · split <;> exact .ok _

/-- A line can only hold a number that is too long to be shown. -/
theorem failsOnly_displayLine (store : Store) (operands : List Text) :
    FailsOnly Fault.IsLong (displayLine store operands) := by
  induction operands with
  | nil => exact .ok _
  | cons token rest ih =>
    have htoken : FailsOnly Fault.IsLong (displayed store token) := by
      unfold displayed
      split
      · exact .ok _
      · exact .bind (failsOnly_operandValue store token) Value.failsOnly_shown
    exact .bind htoken fun _ ↦ .bind ih fun _ ↦ .ok _

namespace Subject

/-- The value of a branch can only be too long. -/
theorem failsOnly_selects (subject : Subject) (b : Branch) :
    FailsOnly Fault.IsLong (subject.selects b) := by
  unfold selects
  split_ifs with _ hliteral
  · exact .ok _
  · split
    · exact .ok _
    · exact (Numeral.failsOnly_read_of_isLiteral hliteral).map _
  · exact .ok _
  · exact .ok _

/-- A choice can only meet the value of a branch that is too long. -/
theorem failsOnly_select (subject : Subject) (branches : List Branch) :
    FailsOnly Fault.IsLong (subject.select branches) := by
  induction branches with
  | nil => exact .ok _
  | cons b rest ih =>
    refine .bind (subject.failsOnly_selects b) fun taken ↦ ?_
    cases taken with
    | true => exact .ok _
    | false => exact ih

end Subject

/-! ### Expressions -/

/-- What can end the evaluation of an expression: a number that is too long, digits of the
expression without place value, or an allowance that is used up. -/
inductive Expression.IsFault (t : Text) : Fault → Prop
  /-- A number is too long. -/
  | long {f : Fault} (h : f.IsLong) : IsFault t f
  /-- Digits have no place value. -/
  | loose {u : Text} (h : IsLoose u) (hwithin : u <:+: t) : IsFault t (.noNumeral u)
  /-- The allowance is used up. -/
  | nesting : IsFault t .nesting

namespace Expression

/-- A run of digits in an expression can be too long, or hold a digit without place value. These are
digits of the expression, so the fault says where it comes from. -/
theorem failsOnly_read_append {t sign digits : Text} (hsign : IsSign sign) (hne : digits ≠ [])
    (hdigits : ∀ c ∈ digits, isDigit c = true) (hwithin : sign ++ digits <:+: t) :
    FailsOnly (IsFault t) (Numeral.read (sign ++ digits)) := by
  by_cases hisDigits : Numeral.isDigits digits = true
  · exact (Numeral.failsOnly_read_digits hsign hisDigits).mono fun _ ↦ .long
  · -- the length is looked at first, and only then the place values
    rw [Numeral.read_append hsign hdigits, if_neg hisDigits]
    split
    · exact .error (.long (.numeral ‹_›))
    · have hloose : ∃ c ∈ digits, isDecimal c = false := by
        by_contra hall
        exact hisDigits (Numeral.isDigits_iff.2 ⟨hne, fun c hc ↦ by
          by_contra hc'
          exact hall ⟨c, hc, by simpa using hc'⟩⟩)
      exact .error (.loose ⟨sign, digits, hsign, rfl, hdigits, hloose⟩ hwithin)

/-- **The faults of an expression**: a number of it is too long, a digit of it has no place value,
or its parentheses are nested beyond the allowance. -/
theorem failsOnly_evaluate (store : Store) (allowance : Nat) (t : Text) :
    FailsOnly (IsFault t) (evaluate store allowance t) := by
  -- whatever is still to be read stands within the expression
  have hfaults : FaultsIn (IsFault t) ((expression store allowance).plain t) := by
    refine faultsIn_expression (Q := fun _ u ↦ u <:+: t) ?_ ?_ ?_ ?_ ?_ (List.infix_refl t)
    · exact fun hu hinfix ↦ hu.isInfix.trans hinfix
    · exact fun {_ u _} hinfix hsplit ↦ (infix_of_trimLeft (List.suffix_refl u) hsplit).trans hinfix
    · exact fun _ ↦ .nesting
    · exact fun hinfix hsign hne hdigits hwithin ↦
        failsOnly_read_append hsign hne hdigits (hwithin.trans hinfix)
    · exact fun name f hf ↦ .long (Value.failsOnly_integer _ f hf)
  rw [evaluate_eq]
  split
  · exact .ok _
  · exact .ok _
  · exact .ok _
  · exact .error (hfaults _ ‹_›)

/-- An allowance beyond the number of open parentheses is not used up. -/
theorem evaluate_ne_nesting (store : Store) {allowance : Nat} {t : Text}
    (h : t.count '(' < allowance) : evaluate store allowance t ≠ .error .nesting := by
  have hread (u : Text) : Numeral.read u ≠ .error .nesting := by
    unfold Numeral.read
    dsimp only
    split_ifs <;> nofun
  have hfaults : FaultsIn (· ≠ .nesting) ((expression store allowance).plain t) := by
    refine faultsIn_expression (Q := fun n u ↦ u.count '(' < n) ?_ ?_ ?_ ?_ ?_ h
    · exact fun hu hcount ↦ Nat.lt_of_le_of_lt (hu.sublist.count_le _) hcount
    · exact count_lt_of_trimLeft
    · exact fun hcount ↦ absurd hcount (Nat.not_lt_zero _)
    · rintro _ _ sign digits _ _ _ _ _ f hf rfl
      exact hread _ hf
    · rintro name f hf rfl
      cases Value.failsOnly_integer _ _ hf
  rw [evaluate_eq]
  split
  · nofun
  · nofun
  · nofun
  · rename_i f hplain
    rintro ⟨⟩
    exact hfaults _ hplain rfl

end Expression

/-- A subject can fail with what its expression fails with, and with a number that is too long. -/
theorem Subject.failsOnly_ofText_of {P : Fault → Prop} {store : Store} {allowance : Nat} {t : Text}
    (h : FailsOnly P (Expression.evaluate store allowance t)) (hlong : ∀ f, f.IsLong → P f) :
    FailsOnly P (Subject.ofText store allowance t) := by
  unfold Subject.ofText
  split
  · exact .ok _
  · split
    · exact .ok _
    · refine .bind h fun found ↦ ?_
      cases found with
      | error failure => exact .ok _
      | ok n => exact .bind ((Numeral.failsOnly_write n).mono hlong) fun _ ↦ .ok _

/-- The subject of a choice fails as its expression does. -/
theorem Subject.failsOnly_ofText (store : Store) (allowance : Nat) (t : Text) :
    FailsOnly (Expression.IsFault t) (Subject.ofText store allowance t) :=
  failsOnly_ofText_of (Expression.failsOnly_evaluate store allowance t) fun _ ↦ .long

/-! ### Fields and slots -/

/-- What can end a write: a number that is too long, or a field that is too wide. -/
inductive Fault.IsWriting (wide : Prop) : Fault → Prop
  /-- A number is too long. -/
  | long {f : Fault} (h : f.IsLong) : IsWriting wide f
  /-- A field is too wide. -/
  | overflow {f : Fault} (h : f.IsOverflow) (hwide : wide) : IsWriting wide f

namespace Field

/-- A number of spaces can only be too great to be counted. -/
theorem failsOnly_spaces (width : Nat) :
    FailsOnly (fun f ↦ f.IsOverflow ∧ countLimit ≤ width) (spaces width) := by
  unfold spaces
  split
  · rename_i h
    exact .error ⟨.spaces, Nat.le_of_not_lt (mt isCountable_iff.2 (by simpa using h))⟩
  · exact .ok _

/-- The width of a field can only be too great to be counted. -/
theorem failsOnly_fit (width : Nat) (t : Text) :
    FailsOnly (fun f ↦ f.IsOverflow ∧ countLimit ≤ width) (fit width t) := by
  unfold fit
  split
  · rename_i h
    exact .error ⟨.width, Nat.le_of_not_lt (mt isCountable_iff.2 (by simpa using h))⟩
  · exact .ok _

end Field

namespace Picture

/-- An empty field can only be too wide to be filled. -/
theorem failsOnly_blank (p : Picture) : FailsOnly (Fault.IsWriting p.IsWide) p.blank := by
  unfold blank
  split
  · exact .ok _
  · rename_i htext
    exact ((Field.failsOnly_spaces p.width).map _).mono fun f hf ↦
      .overflow hf.1 ⟨by simpa using htext, hf.2⟩

/-- A value can only be too long to be converted, or the field too wide to be filled. -/
theorem failsOnly_coerce (p : Picture) (v : Value) :
    FailsOnly (Fault.IsWriting p.IsWide) (p.coerce v) := by
  unfold coerce
  split
  · exact (v.failsOnly_integer.map _).mono fun _ ↦ .long
  · rename_i htext
    refine .bind (v.failsOnly_shown.mono fun _ ↦ .long) fun t ↦ .bind ?_ fun _ ↦ .ok _
    exact (Field.failsOnly_fit p.width t).mono fun f hf ↦
      .overflow hf.1 ⟨by simpa using htext, hf.2⟩

end Picture

/-- The reason for which a field is too wide may be widened. -/
theorem Fault.IsWriting.imp {wide wide' : Prop} (h : wide → wide') {f : Fault}
    (hf : f.IsWriting wide) : f.IsWriting wide' := by
  cases hf with
  | long hlong => exact .long hlong
  | overflow hoverflow hwide => exact .overflow hoverflow (h hwide)

namespace Store

/-- What a slot makes of a value fails as its picture does. -/
theorem failsOnly_coerce (s : Store) (name : Text) (v : Value) :
    FailsOnly (Fault.IsWriting s.HasWide) (s.coerce name v) := by
  unfold coerce
  split
  · exact .ok _
  · rename_i p hp
    exact (p.failsOnly_coerce v).mono fun f ↦ .imp fun hwide ↦ ⟨name, p, hp, hwide⟩

/-- **The faults of a write**: a number is too long, or a declared slot is too wide. -/
theorem failsOnly_set (s : Store) (name : Text) (v : Value) :
    FailsOnly (Fault.IsWriting s.HasWide) (s.set name v) :=
  (s.failsOnly_coerce (key name) v).map _

/-- A declaration can only fail for the picture that it declares. -/
theorem failsOnly_initial_register (s : Store) (name : Text) (p : Picture) (v : Option Value) :
    FailsOnly (Fault.IsWriting p.IsWide) ((s.register name p).initial name p v) := by
  cases v with
  | none => exact p.failsOnly_blank
  | some v =>
    rw [initial, coerce_key, coerce, picture?_register, if_pos rfl]
    exact p.failsOnly_coerce v

end Store

/-! ### Programs -/

/-- A count in parentheses consists of digits. -/
theorem Picture.isDigits_of_repeatCount? {t digits after : Text}
    (h : repeatCount? t = some (digits, after)) : Numeral.isDigits digits = true := by
  unfold repeatCount? at h
  split at h
  · split at h
    · rename_i rest _ _ d more _ htake _
      obtain ⟨rfl, -⟩ := Prod.mk.inj (Option.some.inj h)
      refine Numeral.isDigits_iff.2 ⟨List.cons_ne_nil _ _, fun c hc ↦ ?_⟩
      rw [← htake] at hc
      exact List.mem_takeWhile_imp hc
    · cases h
  · cases h

/-- The width of a picture can only have a count that is too long to be read. -/
theorem Picture.failsOnly_widthOf (t : Text) : FailsOnly Fault.IsLong (widthOf t) := by
  fun_induction widthOf t with
  | case1 => exact .ok _
  | case2 c rest _ digits after h ih =>
    have hread : FailsOnly Fault.IsLong (Numeral.read digits) :=
      Numeral.failsOnly_read_digits .nil (isDigits_of_repeatCount? h)
    exact .bind hread fun _ ↦ .bind ih fun _ ↦ .ok _
  | case3 c rest _ h ih => exact .bind ih fun _ ↦ .ok _
  | case4 c rest _ ih => exact ih

namespace Clause

/-- What is found was read somewhere. -/
theorem exists_of_search {α : Type} {clause? : Text → Option α} {previous? : Option Char}
    {t before : Text} {a : α} (h : search clause? previous? t = some (before, a)) :
    ∃ u, clause? u = some a := by
  induction t generalizing previous? before with
  | nil => cases h
  | cons c rest ih =>
    rw [search] at h
    split at h
    · rename_i found hfound
      cases h
      split at hfound
      · exact ⟨_, hfound⟩
      · cases hfound
    · obtain ⟨found, hfound, heq⟩ := Option.map_eq_some_iff.1 h
      obtain ⟨-, rfl⟩ := Prod.mk.inj heq
      exact ih hfound

/-- An integer behind a clause can only be too long to be read. -/
theorem failsOnly_integer? {t : Text} {x : Except Fault Int} (h : integer? t = some x) :
    FailsOnly Fault.IsLong x := by
  unfold integer? at h
  dsimp only at h
  split at h
  · cases h
  · rename_i hne
    cases h
    refine Numeral.failsOnly_read_digits ?_
      (Numeral.isDigits_iff.2 ⟨hne, fun c hc ↦ List.mem_takeWhile_imp hc⟩)
    split
    · split
      · exact Expression.isSign_singleton_iff.2 ‹_›
      · exact .nil
    · exact .nil

/-- The value of a clause can only be a number that is too long to be read. -/
theorem failsOnly_value? {t : Text} {x : Except Fault Value} (h : value? t = some x) :
    FailsOnly Fault.IsLong x := by
  unfold value? at h
  obtain ⟨rest, -, h⟩ := Option.bind_eq_some_iff.1 h
  obtain ⟨body, -, h⟩ := Option.bind_eq_some_iff.1 h
  split at h
  · cases h
    exact .ok _
  · rename_i n _ hn
    cases h
    exact (failsOnly_integer? hn).map _
  · split_ifs at h
    · cases h
      exact .ok _
    · cases h
      exact .ok _

end Clause

/-- The initial value of a declaration can only be a number that is too long to be read. -/
theorem Declaration.failsOnly_initialValue (t : Text) :
    FailsOnly Fault.IsLong (initialValue t) := by
  unfold initialValue
  split
  · exact .ok _
  · rename_i value hfound
    obtain ⟨u, hu⟩ := Clause.exists_of_search hfound
    exact (Clause.failsOnly_value? hu).map _

/-- A sentence with a declaration can only hold a number that is too long to be read. -/
theorem Declaration.failsOnly_ofSentence (line : Nat) (sentence : Text) :
    FailsOnly Fault.IsLong (ofSentence line sentence) := by
  unfold ofSentence
  split
  · exact .ok _
  · split
    · have hparse (t : Text) : FailsOnly Fault.IsLong (Picture.parse t) :=
        .bind (Picture.failsOnly_widthOf _) fun _ ↦ .ok _
      exact .bind (hparse _) fun _ ↦ .bind (failsOnly_initialValue _) fun _ ↦ .ok _
    · exact .ok _

/-- Declarations can only hold numbers that are too long to be read. -/
theorem Program.failsOnly_declare (table : Table Declaration) (sentences : List (Nat × Text)) :
    FailsOnly Fault.IsLong (declare table sentences) := by
  fun_induction declare table sentences with
  | case1 => exact .ok _
  | case2 table number sentence rest fault h =>
    exact .error (Declaration.failsOnly_ofSentence number sentence fault h)
  | case3 _ _ _ _ _ _ ih => exact ih
  | case4 _ _ _ _ _ _ _ ih => exact ih

/-- Reading a program can only meet a number that is too long. -/
theorem Program.failsOnly_parse (lines : List Text) :
    FailsOnly Fault.IsLong (Program.parse lines) :=
  (failsOnly_declare _ _).map _

/-- **The faults of a start**: a value is too long to be converted, or a declared picture is too
wide to be filled. -/
theorem State.failsOnly_declareAll (store : Store) (declarations : List Declaration) :
    FailsOnly (Fault.IsWriting (∃ d ∈ declarations, d.picture.IsWide))
      (declareAll store declarations) := by
  induction declarations generalizing store with
  | nil => exact .ok _
  | cons d rest ih =>
    rw [declareAll]
    split
    · refine (ih _).mono fun f ↦ .imp ?_
      rintro ⟨e, he, hwide⟩
      exact ⟨e, List.mem_cons_of_mem _ he, hwide⟩
    · rename_i fault hdeclare
      unfold Store.declare at hdeclare
      dsimp only at hdeclare
      split at hdeclare
      · cases hdeclare
      · rename_i hinitial
        cases hdeclare
        have hfault := store.failsOnly_initial_register d.name d.picture d.value _ hinitial
        exact .error (hfault.imp fun hwide ↦ ⟨d, List.mem_cons_self .., hwide⟩)

/-- A program can only fail to start for a number that is too long or a field that is too wide. -/
theorem State.failsOnly_start (p : Program) (input : Option Input) :
    FailsOnly (Fault.IsWriting (∃ e ∈ p.declarations.entries, e.2.picture.IsWide))
      (State.start p input) := by
  refine ((failsOnly_declareAll {} _).map _).mono fun f ↦ .imp ?_
  rintro ⟨d, hd, hwide⟩
  obtain ⟨e, he, rfl⟩ := List.mem_map.1 hd
  exact ⟨e, he, hwide⟩

end Cobol
