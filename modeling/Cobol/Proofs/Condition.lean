import Cobol.Proofs.Comparison
import Cobol.Proofs.Literal
import Cobol.Proofs.TypedRun

/-!
# Comparing with a literal

A condition is cut at blanks, also inside a literal: what is compared is the part of the literal in
front of its first blank. So a literal without blanks stands for its text, and any other for its
quote and the first word of its text (`Literal.compared`). The blanks at the end of a slot are
compared like any other characters.

`IF` and `PERFORM … UNTIL` read the same condition: the second joins the words of its sentence
again, and a condition is nothing but its words (`Condition.holds_congr`).

## Shape decisions

* The condition is a value with its parts (`EqualTest`), and the sentences that hold it are
  functions of it. So `IF` and `PERFORM … UNTIL` are stated about one condition.
* A loop is compared with a loop whose test is the result itself. The tests are compared only where
  they are made, in states in which the slot exists (`State.KeepsSlot`).
-/

namespace Cobol

open Text Sentence

/-! ### What is compared of a literal -/

namespace Literal

/-- The part of a literal that a condition takes: it ends at the first blank. -/
def token (l : Literal) : Text :=
  l.written.takeWhile fun c ↦ !isBlank c

/-- The text that a condition compares with: that of a literal without blanks, else the quote and
what stands in front of the first blank. -/
def compared (l : Literal) : Text :=
  if l.text.any isBlank then l.quote :: l.text.takeWhile fun c ↦ !isBlank c else l.text

/-- A literal without blanks is one token of a condition. -/
theorem token_of_not_blank {l : Literal} (h : l.text.any isBlank = false) :
    l.token = l.written := by
  refine List.takeWhile_eq_self_iff.2 fun c hc ↦ ?_
  rw [written, List.mem_cons, List.mem_append, List.mem_singleton] at hc
  rcases hc with rfl | hc | rfl
  · simp [l.isBlank_quote]
  · simpa using List.any_eq_false.1 h c hc
  · simp [l.isBlank_quote]

/-- A literal with a blank is cut there, and its token is the quote and the first word of its text.
-/
theorem token_of_blank {l : Literal} (h : l.text.any isBlank = true) :
    l.token = l.quote :: l.text.takeWhile fun c ↦ !isBlank c := by
  obtain ⟨b, hb, hblank⟩ := List.any_eq_true.1 h
  rw [token, written, List.takeWhile_cons_of_pos (by simp [l.isBlank_quote])]
  congr 1
  rw [List.takeWhile_append, if_neg]
  intro hlength
  have hall := List.takeWhile_eq_self_iff.1
    ((List.takeWhile_prefix (fun c ↦ !isBlank c)).eq_of_length hlength)
  simpa [hblank] using hall b hb

/-- A quote without another one behind it quotes nothing. -/
theorem isQuoted_cons_of_not_mem {q : Char} {t : Text} (h : q ∉ t) : isQuoted (q :: t) = false := by
  cases t with
  | nil => rfl
  | cons c rest =>
    have hlast : (c :: rest).getLast? ≠ some q := fun hlast ↦ h (List.mem_of_getLast? hlast)
    simp [isQuoted, hlast]

/-- A literal in a condition stands for the text that is compared. -/
theorem operand_token (l : Literal) {store : Store} (h : store.contains l.token = false) :
    Condition.operand store l.token = .ok (.text l.compared) := by
  rw [Condition.operand, if_neg (by simp [h])]
  cases hblank : l.text.any isBlank with
  | false =>
    rw [token_of_not_blank hblank, written, isLiteral_cons_of_isQuote l.isQuote_quote,
      if_neg (by simp),
      ← written, if_pos l.isQuoted_written, unquote_written, compared, hblank]
    rfl
  | true =>
    have hquoted : isQuoted (l.quote :: l.text.takeWhile fun c ↦ !isBlank c) = false :=
      isQuoted_cons_of_not_mem fun hmem ↦ l.quote_not_mem ((List.takeWhile_prefix _).subset hmem)
    rw [token_of_blank hblank, isLiteral_cons_of_isQuote l.isQuote_quote, if_neg (by simp), hquoted,
      compared, hblank]
    rfl

/-- The first word of a written literal is its token. -/
theorem words_written (l : Literal) : ∃ rest, words l.written = l.token :: rest := by
  have htrim : trimLeft l.written = l.written := trimLeft_cons_of_not l.isBlank_quote _
  have hnot : ¬AllBlank l.written := fun h ↦ by
    have := h l.quote List.mem_cons_self
    rw [l.isBlank_quote] at this
    cases this
  rw [words_of_not_allBlank hnot, htrim]
  exact ⟨_, rfl⟩

end Literal

/-! ### Equality with a literal -/

/-- A condition depends on its words only. -/
theorem Condition.holds_congr {t u : Text} (h : words t = words u) (store : Store) :
    Condition.holds store t = Condition.holds store u := by
  rw [holds, h]
  rfl

/-- The condition that a slot equals a literal. -/
structure EqualTest where
  /-- The name of the slot. -/
  name : Text
  /-- The name has a character. -/
  ne_nil : name ≠ []
  /-- The name has no blank. -/
  not_blank : ∀ c ∈ name, isBlank c = false
  /-- The literal. -/
  literal : Literal

namespace EqualTest

/-- The condition as it is written. -/
def written (e : EqualTest) : Text :=
  e.name ++ " = ".toList ++ e.literal.written

/-- Whether the text of the slot is the one that is compared. -/
def result (e : EqualTest) (s : State) : Except Fault Bool :=
  (s.store.get e.name).shown.map (· == e.literal.compared)

/-- The sentence that runs one of two branches by the condition. -/
def ifSentence (e : EqualTest) : Text :=
  "IF".toList ++ ' ' :: e.written

/-- The sentence that runs a paragraph until the condition is true. -/
def untilSentence (e : EqualTest) (label : Text) : Text :=
  "PERFORM".toList ++ ' ' :: (label ++ " UNTIL ".toList ++ e.written)

/-- A slot that holds a text is compared with what is left of the literal. -/
theorem result_of_text {e : EqualTest} {s : State} {v : Text}
    (h : s.store.values.get? (Store.key e.name) = some (.text v)) :
    e.result s = .ok (v == e.literal.compared) := by
  rw [result, Store.get_of_get? h]
  rfl

/-- The words of the condition are the name, the equals sign and the words of the literal. -/
theorem words_written (e : EqualTest) :
    words e.written = e.name :: "=".toList :: words e.literal.written := by
  rw [written, List.append_assoc]
  show words (e.name ++ ' ' :: ("=".toList ++ ' ' :: e.literal.written)) = _
  rw [words_word_append e.ne_nil e.not_blank rfl, words_word_append (by decide) (by decide) rfl]

/-- **The condition compares the slot with the literal.** -/
theorem holds_written (e : EqualTest) {s : State} (hslot : s.store.contains e.name = true)
    (htoken : s.store.contains e.literal.token = false) :
    Condition.holds s.store e.written = e.result s := by
  obtain ⟨rest, hrest⟩ := e.literal.words_written
  have hcompares : Condition.Compares e.written e.name .eq e.literal.token :=
    ⟨rest, by rw [e.words_written, hrest]; rfl⟩
  have hname : Condition.operand s.store e.name = .ok (s.store.get e.name) := if_pos hslot
  rw [Condition.holds_of_compares hcompares,
    Condition.order_of_operand hname (e.literal.operand_token htoken), Value.order_text, result]
  cases (s.store.get e.name).shown with
  | error f => rfl
  | ok u => exact congrArg Except.ok (Text.isEq_order u e.literal.compared)

/-- In the words of a sentence the condition is the same. -/
theorem holds_joined (e : EqualTest) (store : Store) :
    Condition.holds store ([' '].intercalate (words e.written)) =
      Condition.holds store e.written :=
  Condition.holds_congr
    (words_intercalate (fun _ ↦ ne_nil_of_mem_words) fun _ ↦ not_blank_of_mem_words) store

/-- Nothing is trimmed from the condition: it begins with a name and ends in a quote. -/
theorem trim_written (e : EqualTest) : trim e.written = e.written := by
  obtain ⟨c, rest, hc⟩ := List.exists_cons_of_ne_nil e.ne_nil
  refine trim_eq_self (a := c) ?_ (e.not_blank c (hc ▸ List.mem_cons_self)) (b := e.literal.quote)
    ?_ e.literal.isBlank_quote
  · rw [written, hc]
    rfl
  · rw [written, List.getLast?_append, e.literal.getLast?_written]
    rfl

/-! ### Sentences with the condition -/

theorem isPlain_if : Verb.IsPlain "IF".toList :=
  Verb.isPlain_keyword .ifThen

theorem isPlain_perform : Verb.IsPlain "PERFORM".toList :=
  Verb.isPlain_keyword .perform

/-- The sentence `IF` asks for a branch on the condition. -/
theorem ofText_of_if {e : EqualTest} {sentence : Text}
    (h : dropPeriod sentence = e.ifSentence) :
    Action.ofText (trim sentence) = .branch e.written := by
  have hverb : Verb.ofStatement sentence = .ifThen := by
    rw [← Verb.ofStatement_dropPeriod, h, Verb.ofStatement, ifSentence,
      Verb.wordsOf_plain_append isPlain_if (c := ' ') rfl]
    rfl
  rw [Action.ofText_of_ifThen hverb, arguments, h, ifSentence,
    afterWord_word_append isPlain_if.ne_nil isPlain_if.not_blank rfl, trim_written]

/-- The sentence `PERFORM … UNTIL` asks for a loop on the words of the condition, joined again. -/
theorem ofText_of_until {e : EqualTest} {sentence label : Text} (hne : label ≠ [])
    (hblank : ∀ c ∈ label, isBlank c = false)
    (h : dropPeriod sentence = e.untilSentence label) :
    Action.ofText (trim sentence) =
      .perform label (.untilTrue ([' '].intercalate (words e.written))) := by
  replace h : dropPeriod sentence =
      "PERFORM".toList ++ ' ' :: (label ++ " UNTIL ".toList ++ e.written) := h
  have hverb : Verb.ofStatement sentence = .perform := by
    rw [← Verb.ofStatement_dropPeriod, h, Verb.ofStatement,
      Verb.wordsOf_plain_append isPlain_perform rfl]
    rfl
  have hnonempty : trim sentence ≠ [] := Verb.trim_ne_nil (by rw [hverb]; decide)
  have hparts : words (dropPeriod sentence) =
      "PERFORM".toList :: label :: "UNTIL".toList :: words e.written := by
    rw [h, words_word_append isPlain_perform.ne_nil isPlain_perform.not_blank rfl,
      List.append_assoc]
    show _ :: words (label ++ ' ' :: ("UNTIL".toList ++ ' ' :: e.written)) = _
    rw [words_word_append hne hblank rfl, words_word_append (by decide) (by decide) rfl]
  simp only [Action.ofText, List.isEmpty_iff, hnonempty, if_false, Verb.ofStatement_trim, hverb,
    words_dropPeriod_trim, hparts]
  rfl

end EqualTest

/-! ### The tests of a loop -/

section

variable {body : State → Outcome} {test test' : State → Except Fault Bool} {passes : Nat}
  {s : State}

/-- The test of a loop is made in the state: a pass ends in it, and the run goes on. -/
def IsTested (body : State → Outcome) (test : State → Except Fault Bool) (passes : Nat)
    (s u : State) : Prop :=
  ∃ t ∈ untilStarts body test passes s,
    (body t).fault = none ∧ (body t).state = u ∧ u.running = true

/-- Loops whose tests agree wherever they are made do the same. -/
theorem repeatUntil_congr (h : ∀ u, IsTested body test passes s u → test u = test' u) :
    repeatUntil body test passes s = repeatUntil body test' passes s := by
  induction passes generalizing s with
  | zero => rfl
  | succ passes ih =>
    rw [repeatUntil, repeatUntil]
    cases hfault : (body s).fault with
    | some f => simp only [Outcome.andThen, hfault]
    | none =>
      simp only [Outcome.andThen, hfault]
      cases hrunning : (body s).state.running with
      | false => rfl
      | true =>
        have hhere : test (body s).state = test' (body s).state :=
          h _ ⟨s, List.mem_cons_self, hfault, rfl, hrunning⟩
        rw [if_pos rfl, if_pos rfl, ← hhere]
        cases htest : test (body s).state with
        | error f => rfl
        | ok b =>
          cases b with
          | true => rfl
          | false =>
            refine ih fun u hu ↦ h u ?_
            obtain ⟨t, ht, hend⟩ := hu
            refine ⟨t, List.mem_cons_of_mem _ ?_, hend⟩
            simp only [Outcome.whenDone, hfault, hrunning, if_true, htest]
            exact ht

end

/-- A slot is not removed. -/
def State.KeepsSlot (name : Text) (s t : State) : Prop :=
  s.store.contains name = true → t.store.contains name = true

/-- No statement takes a slot away. -/
theorem respected_keepsSlot (name : Text) : Respected (State.KeepsSlot name) where
  refl _ := id
  trans hst htu := htu ∘ hst
  note _ _ := id
  act allowance statement s action := (act_writes allowance statement s action).contains

/-- **A slot that holds a text is compared with a literal by their texts.** An `IF` runs the branch
for true if the text of the slot is the one that is compared, else the branch for false. `UNTIL`
makes the same test behind every pass, of what the slot holds then. The only condition is that no
slot has what is taken of the literal for its name. -/
theorem execute_equalTest (e : EqualTest) {s : State} {v : Text}
    (hslot : s.store.values.get? (Store.key e.name) = some (.text v)) (m : Machine)
    (allowance k : Nat) (following : List Text) :
    (∀ (nested : List Text → State → Outcome) {sentence : Text},
      dropPeriod sentence = e.ifSentence → s.store.contains e.literal.token = false →
      execute m allowance nested sentence following s =
        nested (if v = e.literal.compared then (IfBlock.split following).whenTrue
          else (IfBlock.split following).whenFalse) s) ∧
    ∀ {label : Text} {body : List Text} {sentence : Text}, label ≠ [] →
      (∀ c ∈ label, isBlank c = false) → m.paragraphs.get? (upper label) = some body →
      dropPeriod sentence = e.untilSentence label →
      (∀ u, IsTested (executeBlock m k body) (fun u ↦ Condition.holds u.store e.written) m.passes s
          u →
        u.store.contains e.literal.token = false) →
      execute m allowance (executeBlock m k) sentence following s =
        repeatUntil (executeBlock m k body) e.result m.passes s := by
  have hcontains : s.store.contains e.name = true := Store.contains_of_get? hslot
  constructor
  · intro nested sentence hsentence htoken
    rw [execute, EqualTest.ofText_of_if hsentence, perform, e.holds_written hcontains htoken,
      EqualTest.result_of_text hslot]
    by_cases hv : v = e.literal.compared
    · rw [if_pos hv, beq_iff_eq.2 hv]
    · rw [if_neg hv, beq_eq_false_iff_ne.2 hv]
  · intro label body sentence hne hblank hbody hsentence htoken
    rw [execute, EqualTest.ofText_of_until hne hblank hsentence]
    rw [perform, runParagraph, hbody]
    simp only [e.holds_joined]
    refine repeatUntil_congr fun u hu ↦ ?_
    obtain ⟨t, ht, -, rfl, -⟩ := id hu
    -- the slot that is compared is there in every pass, since no statement removes one
    have hR := respected_keepsSlot e.name
    have hkeeps : State.KeepsSlot e.name s (executeBlock m k body t).state :=
      hR.trans (hR.mem_untilStarts (hR.executeBlock m k body) ht) (hR.executeBlock m k body t)
    exact e.holds_written (hkeeps hcontains) (htoken _ hu)

/-- Whether `X` equals `'AB'`. -/
def equalsAB : EqualTest where
  name := "X".toList
  ne_nil := by decide
  not_blank := by decide
  literal := ⟨'\'', "AB".toList, isQuote_apostrophe, by decide⟩

/-- A slot with a blank at the end of its text. -/
def padded : State where
  store := { values := ⟨[("X".toList, .text "AB ".toList)]⟩ }

/-- A paragraph that leaves the blank out. -/
def trimming : Machine where
  paragraphs := ⟨[("P".toList, ["MOVE 'AB' TO X.".toList])]⟩
  passes := 2

/-- A slot with a blank at its end, compared with the text without it: `IF` takes its second part,
and the loop ends when the slot has been written anew. -/
theorem execute_equalTest_padded :
    padded.store.values.get? (Store.key equalsAB.name) = some (.text "AB ".toList) ∧
    execute trimming 1 (executeBlock trimming 1) "IF X = 'AB'".toList
        (["DISPLAY 'Y'", "ELSE", "DISPLAY 'N'", "END-IF"].map String.toList) padded =
      executeBlock trimming 1 ["DISPLAY 'N'".toList] padded ∧
    execute trimming 1 (executeBlock trimming 1) "PERFORM P UNTIL X = 'AB'.".toList [] padded =
      repeatUntil (executeBlock trimming 1 ["MOVE 'AB' TO X.".toList]) equalsAB.result 2 padded ∧
    (repeatUntil (executeBlock trimming 1 ["MOVE 'AB' TO X.".toList])
      equalsAB.result 2 padded).fault = none := by
  have hslot : padded.store.values.get? (Store.key equalsAB.name) = some (.text "AB ".toList) := by
    decide
  have htested : ∀ t ∈ untilStarts (executeBlock trimming 1 ["MOVE 'AB' TO X.".toList])
      (fun u ↦ Condition.holds u.store equalsAB.written) 2 padded,
      (executeBlock trimming 1 ["MOVE 'AB' TO X.".toList] t).state.store.contains
        equalsAB.literal.token = false := by
    decide +kernel
  have hifSentence : dropPeriod "IF X = 'AB'".toList = equalsAB.ifSentence := by decide +kernel
  have huntilSentence : dropPeriod "PERFORM P UNTIL X = 'AB'.".toList =
      equalsAB.untilSentence "P".toList := by
    decide +kernel
  have hbody : trimming.paragraphs.get? (upper "P".toList) = some ["MOVE 'AB' TO X.".toList] := by
    decide
  have hif := (execute_equalTest equalsAB hslot trimming 1 1
    (["DISPLAY 'Y'", "ELSE", "DISPLAY 'N'", "END-IF"].map String.toList)).1
    (executeBlock trimming 1) hifSentence (by decide)
  have huntil := (execute_equalTest equalsAB hslot trimming 1 1 []).2 (by decide) (by decide) hbody
    huntilSentence fun u ⟨t, ht, _, hu, _⟩ ↦ hu ▸ htested t ht
  exact ⟨hslot, hif, huntil, by decide +kernel⟩

/-- A slot that holds a text with a blank. -/
def spacedOut : State where
  store := { values := ⟨[("X".toList, .text "A B".toList)]⟩ }

/-- A literal with a blank is not compared as a whole, so a slot that holds its text does not equal
it. -/
theorem not_equal_literal_with_blank :
    spacedOut.store.values.get? (Store.key "X".toList) = some (.text "A B".toList) ∧
    spacedOut.store.contains "'A B'".toList = false ∧
    (executeBlock ⟨{}, 1⟩ 2
      (["IF X = 'A B'", "DISPLAY 'EQUAL'", "ELSE", "DISPLAY 'OTHER'", "END-IF"].map String.toList)
      spacedOut).state.output = #["OTHER".toList] := by
  decide +kernel

end Cobol
