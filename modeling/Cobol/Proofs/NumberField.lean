import Cobol.Proofs.Conversion
import Cobol.Proofs.Numeral

/-!
# Numbers in text fields

A number that is written to a text slot is written in decimal there, and the slot cuts it at the
right like any other text. What is read back are the places that are left: the quotient of the
number by a power of ten, which is the number itself if it fits (`Numeral.cut`). A minus sign
without digits is no number, and counts as zero.

All readers of the slot read this number: a write to a numeric slot, a `MOVE`, and every expression
in which the name stands (`Store.readsAs_set_number`).

## Shape decisions

* What is left of a cut number is a quotient (`Numeral.cut`), and not a number read from a text.
  That it is what the first characters of the decimal form denote is a theorem
  (`Value.integer_take_decimal`), with the sign and the lone minus sign as its cases.
* What it means to read the slot is said once for all readers (`Store.ReadsAs`), for any value whose
  integer is known. Only the last step is about numbers.
* The width of a slot is bounded by what the machine can count, and by nothing else.
-/

namespace Cobol

open Text

/-! ### What is left of a cut number -/

namespace Numeral

/-- What is left of a number whose decimal form is cut behind `width` characters. -/
def cut (width : Nat) (n : Int) : Int :=
  n.tdiv (10 ^ ((decimal n).length - width) : Nat)

/-- A number survives the cut if its decimal form fits. -/
theorem cut_eq_self_iff {width : Nat} {n : Int} :
    cut width n = n ↔ (decimal n).length ≤ width ∨ n = 0 := by
  constructor
  · intro h
    by_contra hcut
    rw [not_or, Nat.not_le] at hcut
    obtain ⟨hlong, hzero⟩ := hcut
    have hquotient : n.natAbs / 10 ^ ((decimal n).length - width) = n.natAbs :=
      (Int.natAbs_tdiv n _).symm.trans (congrArg Int.natAbs h)
    have hlt := Nat.div_lt_self (Int.natAbs_pos.2 hzero)
      (Nat.one_lt_pow (Nat.sub_ne_zero_of_lt hlong) (by decide : 1 < 10))
    omega
  · rintro (hfits | rfl)
    · rw [cut, Nat.sub_eq_zero_of_le hfits]
      exact Int.tdiv_one n
    · exact Int.zero_tdiv _

/-- A sign and digits count as signed. -/
theorem isSigned_append {sign digits : Text} (hsign : Expression.IsSign sign)
    (hdigits : isDigits digits = true) : isSigned (sign ++ digits) = true := by
  obtain ⟨-, hdecimal⟩ := isDigits_iff.1 hdigits
  have hne {c : Char} (hc : isDecimal c = false) (rest : Text) : digits ≠ c :: rest := by
    rintro rfl
    rw [hdecimal c List.mem_cons_self] at hc
    cases hc
  rcases hsign with rfl | rfl | rfl
  · rw [List.nil_append]
    unfold isSigned
    split
    · exact absurd rfl (hne rfl _)
    · exact absurd rfl (hne rfl _)
    · exact hdigits
  · exact hdigits
  · exact hdigits

end Numeral

/-! ### The integer of a text -/

namespace Value

/-- Blanks behind a text do not change its integer. -/
theorem integer_append_of_allBlank (t : Text) {u : Text} (h : AllBlank u) :
    (Value.text (t ++ u)).integer = (Value.text t).integer := by
  have htrim : trim (t ++ u) = trim t := by
    rw [← trim_trimRight, trimRight_append_of_allBlank _ h, trim_trimRight]
  rw [integer, integer, integer?, integer?, htrim]

/-- A sign and digits denote a number, and a sign alone counts as zero. -/
theorem integer_sign_digits {sign digits : Text} (hsign : Expression.IsSign sign)
    (hdigits : ∀ c ∈ digits, isDecimal c = true) (hshort : digits.length ≤ digitLimit) :
    (Value.text (sign ++ digits)).integer = .ok (Expression.numberValue sign digits) := by
  by_cases hne : digits = []
  · subst hne
    rcases hsign with rfl | rfl | rfl <;> rfl
  · have htrim : trim (sign ++ digits) = sign ++ digits := Numeral.trim_of_digits hsign
      (Numeral.isDigits_iff.2 ⟨hne, hdigits⟩)
    rw [integer, integer?, htrim, if_pos (Numeral.isSigned_append hsign
      (Numeral.isDigits_iff.2 ⟨hne, hdigits⟩)),
      Numeral.read_append_of_isDecimal hsign hne hdigits hshort]
    rfl

/-- The first characters of a number denote what is left of it. -/
theorem integer_take_decimal {n : Int} (hn : n.natAbs < 10 ^ digitLimit) (width : Nat) :
    (Value.text ((Numeral.decimal n).take width)).integer = .ok (Numeral.cut width n) := by
  have hread {sign : Text} (hsign : Expression.IsSign sign) (k : Nat) :
      (Value.text (sign ++ (Numeral.digits n.natAbs).take k)).integer =
        .ok (Expression.numberValue sign ((Numeral.digits n.natAbs).take k)) := by
    refine integer_sign_digits hsign
      (fun c hc ↦ Numeral.isDecimal_of_mem_digits (List.mem_of_mem_take hc)) ?_
    exact Nat.le_trans (List.length_take_le' ..) (Numeral.length_digits_le hn)
  cases n with
  | ofNat m =>
    have hvalue : Expression.numberValue [] ((Numeral.digits m).take width) =
        ((m / 10 ^ ((Numeral.digits m).length - width) : Nat) : Int) :=
      congrArg Nat.cast (Numeral.ofDigits_take_digits m width)
    exact (hread .nil width).trans (congrArg Except.ok hvalue)
  | negSucc m =>
    -- the sign takes a place of its own: a width of zero leaves nothing, and any other leaves one
    -- digit less
    cases width with
    | zero =>
      have hlt : m + 1 < 10 ^ ((Numeral.digits (m + 1)).length + 1) :=
        Nat.lt_trans (Numeral.lt_pow_length_digits (m + 1))
          (Nat.pow_lt_pow_succ (by decide))
      have hcut : Numeral.cut 0 (Int.negSucc m) = 0 :=
        congrArg (fun q : Nat ↦ -(q : Int)) (Nat.div_eq_of_lt hlt)
      rw [hcut]
      rfl
    | succ k =>
      have hvalue : Expression.numberValue ['-'] ((Numeral.digits (m + 1)).take k) =
          -(((m + 1) / 10 ^ ((Numeral.digits (m + 1)).length - k) : Nat) : Int) :=
        congrArg (fun q : Nat ↦ -(q : Int)) (Numeral.ofDigits_take_digits (m + 1) k)
      have hcut : Numeral.cut (k + 1) (Int.negSucc m) =
          -(((m + 1) / 10 ^ ((Numeral.digits (m + 1)).length - k) : Nat) : Int) := by
        show -(((m + 1) / 10 ^ ((Numeral.digits (m + 1)).length + 1 - (k + 1)) : Nat) : Int) = _
        rw [Nat.add_sub_add_right]
      rw [hcut, ← hvalue]
      exact hread (Or.inr (Or.inr rfl)) k

end Value

/-! ### The readers of a slot -/

/-- A token that names a slot and is no literal stands for what the slot holds. -/
theorem operandValue_of_contains {store : Store} {token : Text} (hquoted : isQuoted token = false)
    (hliteral : Numeral.isLiteral token = false) (h : store.contains token = true) :
    operandValue store token = .ok (store.get token) := by
  rw [operandValue, hquoted, hliteral, if_neg Bool.false_ne_true, if_neg Bool.false_ne_true]
  split
  · rw [if_pos h]
  · rfl

namespace Store

variable {s : Store} {name : Text} {a : Int}

/-- Whoever reads the slot as a number reads the integer. -/
structure ReadsAs (s : Store) (name : Text) (a : Int) : Prop where
  /-- A numeric slot to which the value is written holds the integer. -/
  set_eq : ∀ target q, s.picture? target = some q → q.isNumeric = true →
    s.set target (s.get name) = .ok { s with values := s.values.put (key target) (.number a) }
  /-- A numeric slot to which the slot is moved holds the integer. -/
  execute_eq : ∀ (m : Machine) (allowance : Nat) (nested : List Text → State → Outcome)
    (sentence : Text) (following : List Text) (t : State) (target : Text) (q : Picture),
    t.store = s → isQuoted name = false → Numeral.isLiteral name = false →
    Action.ofText (trim sentence) = .move name [target] →
    s.picture? target = some q → q.isNumeric = true →
    execute m allowance nested sentence following t =
      State.done { t with store := { s with values := s.values.put (key target) (.number a) } }
  /-- In any expression the slot counts as if it held the integer. -/
  evaluate_eq : ∀ (allowance : Nat) (t : Text), Expression.evaluate s allowance t =
    Expression.evaluate { s with values := s.values.put (key name) (.number a) } allowance t
  /-- If the name can stand in an expression, then as an expression it is worth the integer. -/
  evaluate_name : Expression.IsName name [] → ∀ allowance,
    Expression.evaluate s (allowance + 1) name = .ok (.ok a)

/-- The number that a slot is read as is the integer that its value denotes. -/
theorem readsAs_of_integer {v : Value} (hslot : s.values.get? (key name) = some v)
    (ha : v.integer = .ok a) : s.ReadsAs name a := by
  have hget : s.get name = v := get_of_get? hslot
  have hset (target : Text) (q : Picture) (hq : s.picture? target = some q)
      (hnumeric : q.isNumeric = true) :
      s.set target (s.get name) =
        .ok { s with values := s.values.put (key target) (.number a) } := by
    refine set_eq_ok_iff.2 ⟨.number a, ?_, rfl⟩
    rw [coerce, hq, hget]
    show q.coerce v = _
    rw [Picture.coerce, if_pos hnumeric, ha]
    rfl
  refine ⟨hset, ?_, fun allowance t ↦ ?_, fun hname allowance ↦ ?_⟩
  · intro m allowance nested sentence following t target q hstore hquoted hliteral haction hq
      hnumeric
    rw [execute, haction]
    show act allowance (trim sentence) t (.move name [target]) = _
    rw [act, hstore, operandValue_of_contains hquoted hliteral (contains_of_get? hslot)]
    show (t.write target (s.get name)).andThen _ = _
    rw [State.write, hstore, hset target q hq hnumeric]
    rfl
  · refine Expression.evaluate_congr (fun other ↦ ?_) allowance t
    by_cases hkey : key other = key name
    · rw [get, get, Table.get?_put, hkey, if_pos rfl, hslot]
      exact ha
    · rw [get, get, Table.get?_put, if_neg hkey]
  · exact Expression.evaluate_name hname (by rw [hget, ha]) allowance

/-! ### Numbers in text slots -/

/-- A number is written to a text slot if the width of the slot can be counted, and then the slot
holds the decimal form of the number, cut or filled. -/
theorem set_number_eq_ok_iff {s' : Store} {p : Picture} (hp : s.picture? name = some p)
    (htext : p.isNumeric = false) {n : Int} (hn : n.natAbs < 10 ^ digitLimit) :
    s.set name (.number n) = .ok s' ↔ p.width < Field.countLimit ∧
      s' = { s with values :=
        s.values.put (key name) (.text (Text.fit p.width (Numeral.decimal n))) } := by
  have hcoerce : s.coerce name (.number n) =
      (Field.fit p.width (Numeral.decimal n)).map .text := by
    rw [coerce, hp]
    exact Picture.coerce_of_shown htext (Numeral.write_of_lt hn)
  rw [set_eq_ok_iff, hcoerce]
  constructor
  · rintro ⟨w, hw, rfl⟩
    obtain ⟨u, hu, rfl⟩ := Except.map_eq_ok_iff.1 hw
    exact ⟨Field.exists_fit_iff.1 ⟨u, hu⟩, by rw [Field.eq_of_fit hu]⟩
  · rintro ⟨hwidth, rfl⟩
    obtain ⟨u, hu⟩ := Field.exists_fit_iff.2 hwidth
    exact ⟨.text u, Except.map_eq_ok_iff.2 ⟨u, hu, rfl⟩, by rw [Field.eq_of_fit hu]⟩

/-- **A number that is written to a text slot is read back as what is left of it.** If the width of
the slot can be counted, its readers find the integer of the first characters of the decimal form,
as many as the slot has: the number itself exactly if it fits or is zero. -/
theorem readsAs_set_number {p : Picture} (hp : s.picture? name = some p)
    (htext : p.isNumeric = false) {n : Int} (hn : n.natAbs < 10 ^ digitLimit) :
    ((∃ s', s.set name (.number n) = .ok s') ↔ p.width < Field.countLimit) ∧
    (∀ s', s.set name (.number n) = .ok s' → s'.ReadsAs name (Numeral.cut p.width n)) ∧
    (Value.text ((Numeral.decimal n).take p.width)).integer = .ok (Numeral.cut p.width n) ∧
    (Numeral.cut p.width n = n ↔ (Numeral.decimal n).length ≤ p.width ∨ n = 0) := by
  have hinteger := Value.integer_take_decimal hn p.width
  refine ⟨?_, fun s' hset ↦ ?_, hinteger, Numeral.cut_eq_self_iff⟩
  · simp only [set_number_eq_ok_iff hp htext hn]
    exact ⟨fun ⟨_, hwidth, _⟩ ↦ hwidth, fun hwidth ↦ ⟨_, hwidth, rfl⟩⟩
  · obtain ⟨-, rfl⟩ := (set_number_eq_ok_iff hp htext hn).1 hset
    have hslot : (s.values.put (key name) (.text (Text.fit p.width (Numeral.decimal n)))).get?
        (key name) = some (.text (Text.fit p.width (Numeral.decimal n))) := by
      rw [Table.get?_put, if_pos rfl]
    refine readsAs_of_integer hslot ?_
    rw [Text.fit, Value.integer_append_of_allBlank _ fun c hc ↦ ?_, hinteger]
    rw [List.eq_of_mem_replicate hc]
    rfl

/-- A store with a text slot and a numeric one. -/
def textAndNumber : Store where
  values := ⟨[("T".toList, .text "   ".toList), ("N".toList, .number 0)]⟩
  pictures := ⟨[("T".toList, ⟨false, 3⟩), ("N".toList, ⟨true, 4⟩)]⟩

/-- A negative number that is cut behind its second digit, read by a numeric slot and by an
expression. -/
theorem readsAs_set_number_negative :
    textAndNumber.picture? "T".toList = some ⟨false, 3⟩ ∧
    (-1234 : Int).natAbs < 10 ^ digitLimit ∧
    ∃ s', textAndNumber.set "T".toList (.number (-1234)) = .ok s' ∧
      s'.ReadsAs "T".toList (-12) ∧
      (s'.set "N".toList (s'.get "T".toList)).map (·.get "N".toList) = .ok (.number (-12)) ∧
      Expression.evaluate s' 1 "T".toList = .ok (.ok (-12)) := by
  have hpicture : textAndNumber.picture? "T".toList = some ⟨false, 3⟩ := by decide
  have hshort : (-1234 : Int).natAbs < 10 ^ digitLimit := by decide +kernel
  obtain ⟨hexists, hreads, -, -⟩ := readsAs_set_number hpicture rfl hshort
  obtain ⟨s', hset⟩ := hexists.2 (by decide +kernel)
  have hcut : Numeral.cut 3 (-1234) = -12 := by decide +kernel
  have hreadsAs : s'.ReadsAs "T".toList (-12) := hcut ▸ hreads s' hset
  have hnumber : s'.picture? "N".toList = some ⟨true, 4⟩ := by
    obtain ⟨w, -, rfl⟩ := set_eq_ok_iff.1 hset
    show textAndNumber.picture? "N".toList = _
    decide
  have hname : Expression.IsName "T".toList [] :=
    ⟨⟨'T', [], rfl, by decide, nofun⟩, by rintro d ⟨⟩⟩
  refine ⟨hpicture, hshort, s', hset, hreadsAs, ?_, hreadsAs.evaluate_name hname 0⟩
  rw [hreadsAs.set_eq "N".toList ⟨true, 4⟩ hnumber rfl]
  simp only [Except.map, get, Table.get?_put, if_true, Option.getD_some]

/-- A store with a text slot of a width that cannot be counted. -/
def wideText : Store where
  pictures := ⟨[("T".toList, ⟨false, Nat.pow 2 63⟩)]⟩

/-- No number is written to such a slot, though it fits. -/
theorem not_set_number_wide :
    wideText.picture? "T".toList = some ⟨false, Nat.pow 2 63⟩ ∧
    (Numeral.decimal 5).length ≤ Nat.pow 2 63 ∧
    ¬∃ s', wideText.set "T".toList (.number 5) = .ok s' := by
  have hset : wideText.set "T".toList (.number 5) = .error .uncountableWidth := by decide +kernel
  refine ⟨by decide +kernel, by decide +kernel, ?_⟩
  rintro ⟨s', hs'⟩
  rw [hset] at hs'
  cases hs'

end Store

end Cobol
