import Cobol.Proofs.Expression.Grammar
import Cobol.Proofs.Store

/-!
# What the readers do

The readers of `Cobol.Expression` return what is left of a text with a proof that it is shorter.
Here their results are compared without it, and behind blanks, since the next reader does not see
them (`Reader.plain`, `chainEnd`). Each reader has one law in these terms (`plain_factor`,
`plain_chain`, `chainEnd_eq`), and the rest of the theory unfolds none of them. The law of factors
is also given for those that start with a name or a number.

## Shape decisions

* Results are compared as values and texts. The proof that something has been taken is what the
  recursion needs, and nothing after it.
* Blanks are passed over in front of each token, so the place behind a token and the place behind
  the blanks there are the same to every reader. The laws take the second one.
-/

namespace Cobol

open Text

/-! ### Numerals -/

namespace Numeral

/-- A sign is cut from the digits behind it. -/
theorem splitSign_append {sign digits : Text} (hsign : Expression.IsSign sign)
    (hdigits : ∀ c ∈ digits, isDigit c = true) :
    splitSign (sign ++ digits) = (decide (sign = ['-']), digits) := by
  rcases hsign with rfl | rfl | rfl
  · cases digits with
    | nil => rfl
    | cons c rest =>
      have hc := hdigits c (List.mem_cons_self ..)
      have hminus : c ≠ '-' := by rintro rfl; revert hc; decide
      have hplus : c ≠ '+' := by rintro rfl; revert hc; decide
      rw [List.nil_append]
      unfold splitSign
      split
      · rename_i heq
        exact absurd (List.cons.inj heq).1 hminus
      · rename_i heq
        exact absurd (List.cons.inj heq).1 hplus
      · rfl
  · rfl
  · rfl

/-- The reading of a number whose digits may be signs without place value. -/
theorem read_append {sign digits : Text} (hsign : Expression.IsSign sign)
    (hdigits : ∀ c ∈ digits, isDigit c = true) :
    read (sign ++ digits) =
      if digitLimit < (digits.takeWhile isDecimal).length then
        .error (.longNumeral (digits.takeWhile isDecimal).length)
      else if isDigits digits then .ok (Expression.numberValue sign digits)
      else .error (.noNumeral (sign ++ digits)) := by
  have hblank : ∀ c ∈ sign ++ digits, isBlank c = false := by
    intro c hc
    rcases List.mem_append.1 hc with hc | hc
    · exact hsign.not_blank c hc
    · exact isBlank_of_isDigit (hdigits c hc)
  unfold read
  rw [trim_of_forall_not hblank, splitSign_append hsign hdigits]
  simp only [Expression.numberValue, decide_eq_true_eq]

/-- A sign and digits that can be read are read as their value. -/
theorem eq_of_read_append {sign digits : Text} (hsign : Expression.IsSign sign)
    (hdigits : ∀ c ∈ digits, isDigit c = true) {a : Int} (h : read (sign ++ digits) = .ok a) :
    a = Expression.numberValue sign digits := by
  rw [read_append hsign hdigits] at h
  split at h
  · cases h
  · split at h
    · cases h
      rfl
    · cases h

/-- A sign and digits with place value can be read, if they are not too many. -/
theorem read_append_of_isDecimal {sign digits : Text} (hsign : Expression.IsSign sign)
    (hne : digits ≠ []) (hdigits : ∀ c ∈ digits, isDecimal c = true)
    (hlength : digits.length ≤ digitLimit) :
    read (sign ++ digits) = .ok (Expression.numberValue sign digits) := by
  have htake : digits.takeWhile isDecimal = digits := List.takeWhile_eq_self_iff.2 hdigits
  have hisDigits : isDigits digits = true := by
    rw [isDigits, Bool.and_eq_true, List.all_eq_true]
    exact ⟨by simpa using hne, hdigits⟩
  rw [read_append hsign fun c hc ↦ isDigit_of_isDecimal (hdigits c hc), htake,
    if_neg (Nat.not_lt.2 hlength), if_pos hisDigits]

end Numeral

namespace Expression

/-! ### Plain results -/

/-- What a reader returns: the value, and what is left behind blanks. -/
def Reader.plain (reader : Reader) (t : Text) : Except Stop (Int × Text) :=
  (reader t).map fun r ↦ (r.value, trimLeft r.rest)

/-- How a chain goes on behind the value `a`. -/
def chainEnd (operators : Operators) (item : Reader) (a : Int) (t : Text) :
    Except Stop (Int × Text) :=
  (chainFrom operators item a t).map fun r ↦ (r.value, trimLeft r.rest)

/-- The result of a conversion in front of `u`. -/
def converted (u : Text) : Except Fault Int → Except Stop (Int × Text)
  | .ok a => .ok (a, trimLeft u)
  | .error f => .error (.fault f)

/-- The result of an expression of value `a` behind an open parenthesis, in front of a text. -/
def closed (a : Int) : Text → Except Stop (Int × Text)
  | ')' :: after => .ok (a, trimLeft after)
  | unread => .error (.failure .missingParenthesis unread)

/-- A reader takes at least one character. -/
theorem Reader.length_of_plain {reader : Reader} {t u : Text} {a : Int}
    (h : reader.plain t = .ok (a, u)) : u.length < t.length := by
  obtain ⟨r, -, hr⟩ := Except.map_eq_ok_iff.1 h
  rw [← (Prod.mk.inj hr).2]
  exact Nat.lt_of_le_of_lt (length_dropWhile_le ..) r.shorter

/-- A reading without its proof is the converted number and what is left behind blanks. -/
theorem map_reading {t rest : Text} (h : rest.length < t.length) (x : Except Fault Int) :
    (reading rest h x).map (fun r : Reading t ↦ (r.value, trimLeft r.rest)) = converted rest x := by
  cases x <;> rfl

section

variable {operators : Operators} {item : Reader}

/-- `chainEnd_eq` in terms of what an item itself returns. -/
theorem chainEnd_eq_item (a : Int) (t : Text) :
    chainEnd operators item a t =
      match trimLeft t with
      | [] => .ok (a, [])
      | c :: rest =>
        match operators c with
        | none => .ok (a, c :: rest)
        | some operation =>
          match item rest with
          | .error stop => .error stop
          | .ok r =>
            match operation a r.value with
            | none => .error (.failure .divisionByZero (c :: rest))
            | some result => chainEnd operators item result r.rest := by
  rw [chainEnd, chainFrom]
  split
  · rename_i ht
    rw [ht]
    rfl
  · rename_i c rest ht
    have hblank : isBlank c = false := isBlank_of_trimLeft ht
    -- only the right side matches on the text without its blanks; the left side has split on it
    conv_rhs => rw [ht]
    dsimp only
    cases hoperator : operators c with
    | none =>
      dsimp only [Except.map]
      rw [trimLeft_cons_of_not hblank]
    | some operation =>
      cases item rest with
      | error stop => rfl
      | ok r =>
        dsimp only
        cases operation a r.value with
        | none => rfl
        | some result =>
          unfold chainEnd
          dsimp only
          cases chainFrom operators item result r.rest <;> rfl

/-- Blanks in front do not matter. -/
theorem chainEnd_trimLeft (a : Int) (t : Text) :
    chainEnd operators item a (trimLeft t) = chainEnd operators item a t := by
  rw [chainEnd_eq_item, trimLeft_trimLeft, ← chainEnd_eq_item]

/-- How a chain goes on, one item at a time. -/
theorem chainEnd_eq (a : Int) (t : Text) :
    chainEnd operators item a t =
      match trimLeft t with
      | [] => .ok (a, [])
      | c :: rest =>
        match operators c with
        | none => .ok (a, c :: rest)
        | some operation =>
          match item.plain rest with
          | .error stop => .error stop
          | .ok (b, u) =>
            match operation a b with
            | none => .error (.failure .divisionByZero (c :: rest))
            | some result => chainEnd operators item result u := by
  rw [chainEnd_eq_item]
  cases trimLeft t with
  | nil => rfl
  | cons c rest =>
    dsimp only
    cases operators c with
    | none => rfl
    | some operation =>
      rw [Reader.plain]
      dsimp only
      cases item rest with
      | error stop => rfl
      | ok r => simp only [Except.map, chainEnd_trimLeft]

/-- A chain is its first item and how it goes on. -/
theorem plain_chain (t : Text) :
    Reader.plain (chain operators item) t =
      item.plain t >>= fun first ↦ chainEnd operators item first.1 first.2 := by
  unfold Reader.plain chain
  cases item t with
  | error stop => rfl
  | ok r =>
    show _ = chainEnd operators item r.value (trimLeft r.rest)
    rw [chainEnd_trimLeft, chainEnd]
    dsimp only
    cases chainFrom operators item r.value r.rest with
    | error stop => rfl
    | ok tail => rfl

end

/-- What a factor is read from. -/
theorem plain_factor (store : Store) (nested : Reader) (t : Text) :
    Reader.plain (factor store nested) t =
      match trimLeft t with
      | [] => .error (.failure .unexpectedEnd [])
      | c :: rest =>
        if c == '(' then
          match nested.plain rest with
          | .error stop => .error stop
          | .ok (a, u) => closed a u
        else if c == '+' || c == '-' then
          match rest.takeWhile isDigit with
          | [] => .error (.failure .expectedDigits rest)
          | digits => converted (rest.dropWhile isDigit) (Numeral.read (c :: digits))
        else if isDigit c then
          converted (rest.dropWhile isDigit) (Numeral.read (c :: rest.takeWhile isDigit))
        else if isLetter c then
          converted (rest.dropWhile isNameChar)
            (store.get (c :: rest.takeWhile isNameChar)).integer
        else .error (.failure (.unexpected c) (c :: rest)) := by
  rw [Reader.plain, factor]
  split
  · rename_i ht
    rw [ht]
    rfl
  · rename_i c rest ht
    conv_rhs => rw [ht]
    dsimp only
    split
    · rw [Reader.plain]
      cases nested rest with
      | error stop => rfl
      | ok r =>
        show _ = closed r.value (trimLeft r.rest)
        dsimp only
        split
        · rename_i after hclose
          -- the closing parenthesis is looked for behind blanks
          conv_rhs => rw [hclose]
          rfl
        · rename_i unread hunread
          rw [closed]
          · rfl
          · exact hunread
    · split
      · cases rest.takeWhile isDigit with
        | nil => rfl
        | cons d digits => exact map_reading _ _
      · split
        · exact map_reading _ _
        · split
          · exact map_reading _ _
          · rfl

/-- A factor that starts with a name is the name. -/
theorem plain_factor_of_name {store : Store} {nested : Reader} {t name u : Text}
    (hsplit : trimLeft t = name ++ u) (hname : IsName name u) :
    Reader.plain (factor store nested) t = converted u (store.get name).integer := by
  obtain ⟨c, more, rfl, hletter, hmore⟩ := hname.chars
  obtain ⟨htake, hdrop⟩ := takeWhile_append_of_stop hmore hname.maximal
  have hne {d : Char} (hd : isLetter d = false) : c ≠ d := by
    rintro rfl
    rw [hletter] at hd
    cases hd
  have hsign : ¬(c == '+' || c == '-') = true := by
    rw [Bool.or_eq_true, beq_iff_eq, beq_iff_eq]
    exact not_or.2 ⟨hne rfl, hne rfl⟩
  rw [plain_factor, hsplit, List.cons_append]
  dsimp only
  rw [if_neg (by simpa using hne rfl), if_neg hsign, if_neg (by simp [isDigit_of_isLetter hletter]),
    if_pos hletter, htake, hdrop]

/-- A factor that starts with a number is the number. -/
theorem plain_factor_of_number {store : Store} {nested : Reader} {t sign digits u : Text}
    (hsplit : trimLeft t = sign ++ digits ++ u) (hnumber : IsNumber sign digits u) :
    Reader.plain (factor store nested) t = converted u (Numeral.read (sign ++ digits)) := by
  obtain ⟨d, more, rfl⟩ := List.exists_cons_of_ne_nil hnumber.ne_nil
  obtain ⟨hd, hmore⟩ := List.forall_mem_cons.1 hnumber.all_digits
  by_cases hnil : sign = []
  · -- the first digit decides, and it is none of the characters that are asked for before
    subst hnil
    obtain ⟨htake, hdrop⟩ := takeWhile_append_of_stop hmore hnumber.maximal
    have hne {c : Char} (hc : isDigit c = false) : d ≠ c := by
      rintro rfl
      rw [hd] at hc
      cases hc
    have hsign : ¬(d == '+' || d == '-') = true := by
      rw [Bool.or_eq_true, beq_iff_eq, beq_iff_eq]
      exact not_or.2 ⟨hne rfl, hne rfl⟩
    rw [plain_factor, hsplit, List.nil_append, List.cons_append]
    dsimp only
    rw [if_neg (by simpa using hne rfl), if_neg hsign, if_pos hd, htake, hdrop]
  · obtain ⟨c, rfl, hc⟩ : ∃ c, sign = [c] ∧ (c == '+' || c == '-') = true := by
      rcases hnumber.isSign with rfl | rfl | rfl
      · exact absurd rfl hnil
      · exact ⟨'+', rfl, rfl⟩
      · exact ⟨'-', rfl, rfl⟩
    obtain ⟨htake, hdrop⟩ := takeWhile_append_of_stop hnumber.all_digits hnumber.maximal
    have hopen : ¬(c == '(') = true := by
      rw [beq_iff_eq]
      rintro rfl
      cases hc
    rw [plain_factor, hsplit, List.append_assoc, List.singleton_append]
    dsimp only
    rw [if_neg hopen, if_pos hc, htake, hdrop]
    rfl

end Expression

end Cobol
