import Cobol.Proofs.Literal
import Cobol.Proofs.Store

/-!
# Moving a literal

A `MOVE` is cut at the last ` TO ` of its upper case, and the place found there is used in the text
as it was written. The two texts have the same places only if the upper case of what stands in front
is no longer, and that is exactly when the literal is found (`Move.ofText_written_iff`): the name of
a receiver holds no ` TO `, so whatever the literal holds, the separator is the last one.

Then every receiver gets what its picture makes of the text, and nothing else changes
(`execute_move`). A text that a picture cannot take is a fault, and the receivers behind it are left
as they were.

## Shape decisions

* The statement is a value with its parts (`Move`), and its receivers carry what makes a word a
  receiver. That a name holds no ` TO ` follows from its having no blank.
* What a list of writes establishes is one structure (`State.Moved`), with the frame in it: every
  receiver has the value, and every other slot is as it was.
-/

namespace Cobol

open Text

/-! ### The last occurrence of a pattern -/

namespace Text

variable {pattern : Text}

/-- The last occurrence in a text is the last one in every text that ends in it. -/
theorem lastIndexOf?_append {t : Text} {i : Nat} (h : lastIndexOf? pattern t = some i)
    (s : Text) : lastIndexOf? pattern (s ++ t) = some (s.length + i) := by
  induction s with
  | nil => simpa using h
  | cons c s ih =>
    rw [List.cons_append, lastIndexOf?, ih]
    show some (s.length + i + 1) = _
    rw [List.length_cons]
    congr 1
    omega

/-- A pattern that does not occur has no last place. -/
theorem lastIndexOf?_eq_none {t : Text} (hne : pattern ≠ []) (h : ¬pattern <:+: t) :
    lastIndexOf? pattern t = none := by
  induction t with
  | nil =>
    rw [lastIndexOf?, if_neg (by simpa using hne)]
  | cons c t ih =>
    rw [List.infix_cons_iff, not_or] at h
    rw [lastIndexOf?, ih h.2]
    exact if_neg (by simpa using h.1)

/-- A pattern at the start of a text that does not hold it again. -/
theorem lastIndexOf?_eq_zero {c : Char} {t : Text} (hstart : pattern <+: c :: t)
    (hne : pattern ≠ []) (h : ¬pattern <:+: t) : lastIndexOf? pattern (c :: t) = some 0 := by
  rw [lastIndexOf?, lastIndexOf?_eq_none hne h]
  exact if_pos (by simpa using hstart)

end Text

/-! ### Names joined by spaces -/

/-- A name that a value can be moved to. -/
structure Receiver where
  /-- The name. -/
  name : Text
  /-- There is a character. -/
  ne_nil : name ≠ []
  /-- There is no blank. -/
  not_blank : ∀ c ∈ name, isBlank c = false
  /-- There is no quote. -/
  not_quote : ∀ c ∈ name, isQuote c = false
  /-- It is not the separator. -/
  upper_ne : upper name ≠ "TO".toList

/-- The upper case of joined names is their upper cases, joined. -/
theorem upper_intercalate (names : List Text) :
    upper ([' '].intercalate names) = [' '].intercalate (names.map upper) := by
  induction names with
  | nil => rfl
  | cons w rest ih =>
    cases rest with
    | nil => rw [List.map_singleton, List.intercalate_singleton, List.intercalate_singleton]
    | cons next more =>
      rw [List.intercalate_cons_cons, upper_append, upper_append, ih]
      exact List.intercalate_cons_cons.symm

/-- Joined names begin as the first of them. -/
theorem head?_intercalate {w : Text} (hw : w ≠ []) (rest : List Text) :
    ([' '].intercalate (w :: rest)).head? = w.head? := by
  cases rest with
  | nil => rw [List.intercalate_singleton]
  | cons next more =>
    obtain ⟨c, u, rfl⟩ := List.exists_cons_of_ne_nil hw
    rw [List.intercalate_cons_cons]
    rfl

/-- What holds of the space and of the characters of all names holds of the characters of the joined
names. -/
theorem forall_mem_intercalate {P : Char → Prop} (hspace : P ' ') {names : List Text}
    (h : ∀ w ∈ names, ∀ c ∈ w, P c) : ∀ c ∈ [' '].intercalate names, P c := by
  induction names with
  | nil => exact nofun
  | cons w rest ih =>
    obtain ⟨hw, hrest⟩ := List.forall_mem_cons.1 h
    cases rest with
    | nil => rwa [List.intercalate_singleton]
    | cons next more =>
      rw [List.intercalate_cons_cons]
      exact List.forall_mem_append.2
        ⟨List.forall_mem_append.2 ⟨hw, List.forall_mem_singleton.2 hspace⟩, ih hrest⟩

/-- Joined names do not end in a blank. -/
theorem exists_getLast?_intercalate {names : List Text} (hnames : names ≠ [])
    (hne : ∀ w ∈ names, w ≠ []) (hblank : ∀ w ∈ names, ∀ c ∈ w, isBlank c = false) :
    ∃ c, ([' '].intercalate names).getLast? = some c ∧ isBlank c = false := by
  induction names with
  | nil => exact absurd rfl hnames
  | cons w rest ih =>
    obtain ⟨hw, hrest⟩ := List.forall_mem_cons.1 hne
    obtain ⟨hwBlank, hrestBlank⟩ := List.forall_mem_cons.1 hblank
    cases rest with
    | nil =>
      obtain ⟨c, hc⟩ := Option.isSome_iff_exists.1 (List.getLast?_isSome.2 hw)
      exact ⟨c, by rwa [List.intercalate_singleton], hwBlank c (List.mem_of_getLast? hc)⟩
    | cons next more =>
      obtain ⟨c, hc, hcBlank⟩ := ih (List.cons_ne_nil _ _) hrest hrestBlank
      refine ⟨c, ?_, hcBlank⟩
      rw [List.intercalate_cons_cons, List.getLast?_append, hc]
      rfl

/-! ### The statement -/

/-- A `MOVE` of a literal. -/
structure Move where
  /-- The literal. -/
  literal : Literal
  /-- The first receiver. -/
  first : Receiver
  /-- The other receivers. -/
  more : List Receiver := []

namespace Move

/-- The names of the receivers. -/
def names (m : Move) : List Text :=
  (m.first :: m.more).map Receiver.name

/-- What stands behind the verb: the literal, `TO` and the names. -/
def body (m : Move) : Text :=
  m.literal.written ++ (" TO ".toList ++ [' '].intercalate m.names)

/-- The sentence as it is written. -/
def written (m : Move) : Text :=
  "MOVE".toList ++ ' ' :: (m.body ++ ['.'])

/-- Each of the names is that of a receiver. -/
theorem exists_receiver {m : Move} {w : Text} (h : w ∈ m.names) : ∃ r : Receiver, r.name = w := by
  obtain ⟨r, -, hr⟩ := List.mem_map.1 h
  exact ⟨r, hr⟩

/-- No receiver has an empty name. -/
theorem names_ne_nil (m : Move) : ∀ w ∈ m.names, w ≠ [] := fun w hw ↦ by
  obtain ⟨r, rfl⟩ := exists_receiver hw
  exact r.ne_nil

/-- There is no blank in the name of a receiver. -/
theorem names_not_blank (m : Move) : ∀ w ∈ m.names, ∀ c ∈ w, isBlank c = false := fun w hw ↦ by
  obtain ⟨r, rfl⟩ := exists_receiver hw
  exact r.not_blank

theorem isPlain_move : Verb.IsPlain "MOVE".toList :=
  Verb.isPlain_keyword .move

theorem ofStatement_written (m : Move) : Verb.ofStatement m.written = .move := by
  rw [Verb.ofStatement, written, Verb.wordsOf_plain_append isPlain_move rfl]
  rfl

/-- Nothing is trimmed from the operands: they begin with a quote and end in a name. -/
theorem trim_body (m : Move) : trim m.body = m.body := by
  have hnames : m.names ≠ [] := List.cons_ne_nil _ _
  obtain ⟨c, hc, hblank⟩ := exists_getLast?_intercalate hnames m.names_ne_nil m.names_not_blank
  refine trim_eq_self (a := m.literal.quote) rfl m.literal.isBlank_quote (b := c) ?_ hblank
  rw [body, ← List.append_assoc, List.getLast?_append, hc]
  rfl

/-- The period is that of the sentence: no literal is open in front of it. -/
theorem openLiteral_body (m : Move) : Sentence.openLiteral m.body = none := by
  have hnames : ∀ c ∈ [' '].intercalate m.names, isQuote c = false := by
    refine forall_mem_intercalate (P := fun c ↦ isQuote c = false) rfl fun w hw ↦ ?_
    obtain ⟨r, rfl⟩ := exists_receiver hw
    exact r.not_quote
  rw [body, Sentence.openLiteral_append_of_none m.literal.isPart_written.closed]
  exact Sentence.openLiteral_of_forall_not_isQuote
    (List.forall_mem_append.2 ⟨by decide, hnames⟩)

/-- The operands of the statement are its literal and its receivers. -/
theorem arguments_written (m : Move) : arguments m.written = m.body := by
  have hends : Sentence.EndsIn (m.body ++ ['.']) m.body :=
    ⟨trimRight_of_getLast? List.getLast?_concat (by decide), m.openLiteral_body⟩
  have hnot : ¬AllBlank (m.body ++ ['.']) := fun h ↦ absurd (h '.' (by simp)) (by decide)
  rw [written, arguments_joined isPlain_move.ne_nil isPlain_move.not_blank (by decide) hnot,
    remainder, Sentence.dropPeriod_of_endsIn hends, trim_trimRight, trim_body]

/-- The statement asks for what its operands ask for. -/
theorem ofText_written (m : Move) : Action.ofText (trim m.written) = Action.ofMove m.body := by
  have hne : trim m.written ≠ [] := Verb.trim_ne_nil (by rw [ofStatement_written]; decide)
  simp [Action.ofText, hne, ofStatement_written, arguments_trim, arguments_written]

/-! ### The separator -/

/-- Behind the first `TO` no other stands between blanks. -/
theorem not_separator_isInfix (m : Move) :
    ¬" TO ".toList <:+: [' '].intercalate ("TO".toList :: m.names.map upper) := by
  rintro ⟨before, after, h⟩
  have hne : ∀ w ∈ "TO".toList :: m.names.map upper, w ≠ [] := by
    refine List.forall_mem_cons.2 ⟨by decide, fun w hw ↦ ?_⟩
    obtain ⟨name, hname, rfl⟩ := List.mem_map.1 hw
    exact List.length_pos_iff.1 (Nat.lt_of_lt_of_le
      (List.length_pos_iff.2 (m.names_ne_nil name hname)) (length_le_length_upper name))
  have hblank : ∀ w ∈ "TO".toList :: m.names.map upper, ∀ c ∈ w, isBlank c = false := by
    refine List.forall_mem_cons.2 ⟨by decide, fun w hw c hc ↦ ?_⟩
    obtain ⟨name, hname, rfl⟩ := List.mem_map.1 hw
    obtain ⟨d, hd, hc⟩ := List.mem_flatMap.1 hc
    exact isBlank_of_mem_upperChar (m.names_not_blank name hname d hd) hc
  -- the words of the text, and the words around another `TO`
  have hwords : words before ++ "TO".toList :: words after =
      "TO".toList :: m.names.map upper := by
    rw [← words_intercalate hne hblank, ← h, List.append_assoc]
    show _ = words (before ++ ' ' :: ("TO".toList ++ ' ' :: after))
    rw [words_append_blank rfl, words_word_append (by decide) (by decide) rfl]
  cases hbefore : words before with
  | nil =>
    -- the text would start with a blank
    have hhead := congrArg List.head? h
    rw [head?_intercalate (by decide)] at hhead
    cases before with
    | nil =>
      have hhead : some ' ' = some 'T' := hhead
      exact absurd hhead (by decide)
    | cons c rest =>
      obtain rfl : c = 'T' := Option.some.inj hhead
      exact absurd (allBlank_of_words_eq_nil hbefore 'T' List.mem_cons_self) (by decide)
  | cons first rest =>
    rw [hbefore, List.cons_append] at hwords
    have hmem : "TO".toList ∈ m.names.map upper := by
      rw [← (List.cons.inj hwords).2]
      exact List.mem_append_right _ List.mem_cons_self
    obtain ⟨name, hname, hupper⟩ := List.mem_map.1 hmem
    obtain ⟨r, rfl⟩ := exists_receiver hname
    exact r.upper_ne hupper

/-- **The last ` TO ` in upper case is the separator**, whatever the literal holds: behind it stand
names alone. -/
theorem lastIndexOf?_upper_body (m : Move) :
    lastIndexOf? " TO ".toList (upper m.body) = some (upper m.literal.written).length := by
  have hjoined : [' '].intercalate ("TO".toList :: m.names.map upper) =
      "TO ".toList ++ [' '].intercalate (m.names.map upper) := by
    rw [names, List.map_cons, List.map_cons, List.intercalate_cons_cons]
    rfl
  have hupper : upper m.body =
      upper m.literal.written ++ ' ' :: [' '].intercalate ("TO".toList :: m.names.map upper) := by
    rw [hjoined, body, upper_append, upper_append, upper_intercalate]
    rfl
  have hstart : " TO ".toList <+: ' ' :: [' '].intercalate ("TO".toList :: m.names.map upper) := by
    rw [hjoined]
    exact ⟨_, rfl⟩
  rw [hupper]
  exact lastIndexOf?_append
    (lastIndexOf?_eq_zero hstart (by decide) m.not_separator_isInfix) _

/-- The upper case of a written literal is longer than the literal by as much as that of its text.
-/
theorem length_upper_written (l : Literal) :
    (upper l.written).length + l.text.length = l.written.length + (upper l.text).length := by
  have hquote : upper [l.quote] = [l.quote] := by
    rcases l.quote_eq with h | h <;> rw [h] <;> rfl
  have hupper : upper l.written = [l.quote] ++ (upper l.text ++ [l.quote]) := by
    rw [show l.written = [l.quote] ++ (l.text ++ [l.quote]) from rfl, upper_append, upper_append,
      hquote]
  rw [hupper]
  simp only [Literal.written, List.length_append, List.length_cons, List.length_nil]
  omega

/-- A text that loses its first character, and that is no blank, has other words. -/
theorem words_drop_ne {t : Text} {c : Char} (hhead : t.head? = some c) (hc : isBlank c = false)
    (k : Nat) : words (t.drop (k + 1)) ≠ words t := by
  intro h
  obtain ⟨rest, rfl⟩ := List.head?_eq_some_iff.1 hhead
  have hlength := congrArg (·.flatten.length) h
  have hle := ((rest.drop_sublist k).filter fun c ↦ !isBlank c).length_le
  simp only [flatten_words, List.drop_succ_cons] at hlength
  rw [List.filter_cons_of_pos (by simp [hc]), List.length_cons] at hlength
  omega

/-- What is taken for the names: the longer the upper case of the literal, the less is left of
them. -/
theorem drop_body (m : Move) : m.body.drop ((upper m.literal.written).length + 4) =
    ([' '].intercalate m.names).drop
      ((upper m.literal.text).length - m.literal.text.length) := by
  have hlength := length_upper_written m.literal
  obtain ⟨k, hk⟩ := Nat.exists_eq_add_of_le (length_le_length_upper m.literal.text)
  have hplace : (upper m.literal.written).length + 4 =
      m.literal.written.length + (" TO ".toList.length + k) := by
    show _ = m.literal.written.length + (4 + k)
    omega
  rw [hplace, body, List.drop_length_add_append, List.drop_length_add_append, hk,
    Nat.add_sub_cancel_left]

/-- **The literal and the names are found if and only if the upper case of the literal is no longer
than the literal.** -/
theorem ofText_written_iff (m : Move) :
    Action.ofText (trim m.written) = .move m.literal.written m.names ↔
      (upper m.literal.text).length = m.literal.text.length := by
  have hwords : words ([' '].intercalate m.names) = m.names :=
    words_intercalate m.names_ne_nil m.names_not_blank
  have hle := length_le_length_upper m.literal.text
  rw [ofText_written, Action.ofMove, lastIndexOf?_upper_body]
  dsimp only
  rw [drop_body]
  constructor
  · intro h
    split at h
    · cases h
    · obtain ⟨-, htargets⟩ := Action.move.inj h
      cases hshift : (upper m.literal.text).length - m.literal.text.length with
      | zero => omega
      | succ k =>
        -- a longer upper case cuts into the names, which are then other names
        obtain ⟨c, rest, hc⟩ := List.exists_cons_of_ne_nil m.first.ne_nil
        have hhead : ([' '].intercalate m.names).head? = some c :=
          (head?_intercalate m.first.ne_nil _).trans (congrArg List.head? hc)
        rw [hshift] at htargets
        exact absurd (htargets.trans hwords.symm)
          (words_drop_ne hhead (m.first.not_blank c (hc ▸ List.mem_cons_self)) k)
  · intro h
    have hlength : (upper m.literal.written).length = m.literal.written.length := by
      have := length_upper_written m.literal
      omega
    have htrim : trim m.literal.written = m.literal.written :=
      trim_eq_self rfl m.literal.isBlank_quote m.literal.getLast?_written m.literal.isBlank_quote
    rw [hlength, body, List.take_left, htrim, h, Nat.sub_self, List.drop_zero, hwords]
    rfl

/-- The upper case of the literal is one character longer, and there is no name behind the place
found in it. -/
example : Action.ofText "MOVE 'ß' TO X.".toList = .nothing := by decide +kernel

end Move

/-! ### The writes -/

/-- What is done by moving a value to names. -/
structure State.Moved (s : State) (v : Value) (names : List Text) (o : Outcome) : Prop where
  /-- Nothing but the values of slots is changed. -/
  state_eq : o.state = { s with store := { s.store with values := o.state.store.values } }
  /-- Every name gets what its picture makes of the value, unless there is a fault. -/
  moved : o.fault = none → ∀ name ∈ names, ∃ w, s.store.coerce name v = .ok w ∧
    o.state.store.values.get? (Store.key name) = some w
  /-- A fault is that of a picture which cannot take the value. -/
  fault : ∀ f, o.fault = some f → ∃ name ∈ names, s.store.coerce name v = .error f
  /-- Every other slot is as it was. -/
  other : ∀ name, (∀ target ∈ names, Store.key name ≠ Store.key target) →
    o.state.store.values.get? (Store.key name) = s.store.values.get? (Store.key name)

/-- A write fails as its coercion does. -/
theorem Store.set_eq_error_iff {s : Store} {name : Text} {v : Value} {f : Fault} :
    s.set name v = .error f ↔ s.coerce name v = .error f := by
  rw [set, coerce_key]
  cases s.coerce name v <;> simp [Except.map]

/-- Names with the same key have the same picture. -/
theorem Store.coerce_congr (s : Store) {name other : Text} (h : key name = key other) (v : Value) :
    s.coerce name v = s.coerce other v := by
  rw [← coerce_key, h, coerce_key]

/-- A value is moved to one name more by writing it there first. A name that is written again gets
the same value. -/
theorem State.Moved.cons {s : State} {v w : Value} {name : Text} {rest : List Text} {o : Outcome}
    (hw : s.store.coerce name v = .ok w)
    (h : State.Moved
      { s with store := { s.store with values := s.store.values.put (Store.key name) w } }
      v rest o) :
    s.Moved v (name :: rest) o := by
  obtain ⟨hstate, hmoved, hfault, hother⟩ := h
  refine ⟨hstate, fun hnone ↦ List.forall_mem_cons.2 ⟨⟨w, hw, ?_⟩, hmoved hnone⟩, ?_, ?_⟩
  · by_cases hagain : ∃ target ∈ rest, Store.key name = Store.key target
    · obtain ⟨target, htarget, hkey⟩ := hagain
      obtain ⟨u, hu, hget⟩ := hmoved hnone target htarget
      obtain rfl : w = u :=
        Except.ok.inj (hw.symm.trans ((s.store.coerce_congr hkey v).trans hu))
      rw [hkey, hget]
    · rw [hother name fun target htarget hkey ↦ hagain ⟨target, htarget, hkey⟩,
        Table.get?_put, if_pos rfl]
  · intro f hf
    obtain ⟨target, htarget, herror⟩ := hfault f hf
    exact ⟨target, List.mem_cons_of_mem _ htarget, herror⟩
  · intro target htarget
    obtain ⟨hne, hrest⟩ := List.forall_mem_cons.1 htarget
    rw [hother target hrest, Table.get?_put, if_neg hne]

/-- Writing a value to names in order moves it to them. -/
theorem State.moved_writeAll (v : Value) (names : List Text) (s : State) :
    s.Moved v names (writeAll v names s) := by
  induction names generalizing s with
  | nil => exact ⟨rfl, nofun, nofun, fun _ _ ↦ rfl⟩
  | cons name rest ih =>
    rw [writeAll, write]
    cases hset : s.store.set name v with
    | error f =>
      refine ⟨rfl, nofun, fun _ hf ↦ ?_, fun _ _ ↦ rfl⟩
      exact ⟨name, List.mem_cons_self, Option.some.inj hf ▸ Store.set_eq_error_iff.1 hset⟩
    | ok store =>
      obtain ⟨w, hw, rfl⟩ := Store.set_eq_ok_iff.1 hset
      exact .cons hw (ih _)

/-- **A literal is moved as it is.** If its upper case is no longer than it is, a `MOVE` of a
literal gives every receiver what its picture makes of the text, whatever the text holds, and
changes nothing else. -/
theorem execute_move (m : Move) (h : (upper m.literal.text).length = m.literal.text.length)
    (machine : Machine) (allowance : Nat) (nested : List Text → State → Outcome)
    (following : List Text) (s : State) :
    s.Moved (.text m.literal.text) m.names
      (execute machine allowance nested m.written following s) := by
  rw [execute, m.ofText_written_iff.2 h]
  show s.Moved _ _ (act allowance (trim m.written) s (.move m.literal.written m.names))
  rw [act, Literal.operandValue_written]
  exact s.moved_writeAll _ _

/-- A literal with the separator, periods, a quote and characters of every width, to a name with a
period in it and the same name again. -/
def separated : Move where
  literal := ⟨'\'', "a TO b. \"é€😀.".toList, isQuote_apostrophe, by decide⟩
  first := ⟨"X.1".toList, by decide, by decide, by decide, by decide⟩
  more := [⟨"x.1".toList, by decide, by decide, by decide, by decide⟩]

/-- A literal that holds ` TO ` itself, with two receivers. -/
theorem execute_move_separated :
    (upper separated.literal.text).length = separated.literal.text.length ∧
    (execute ⟨{}, 1⟩ 0 (fun _ ↦ State.done) separated.written [] {}).fault = none ∧
    State.Moved {} (.text separated.literal.text) separated.names
      (execute ⟨{}, 1⟩ 0 (fun _ ↦ State.done) separated.written [] {}) := by
  have hlength : (upper separated.literal.text).length = separated.literal.text.length := by
    decide +kernel
  exact ⟨hlength, by decide +kernel, execute_move separated hlength _ _ _ _ _⟩

end Cobol
