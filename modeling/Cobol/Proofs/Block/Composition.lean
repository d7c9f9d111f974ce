import Cobol.Proofs.Allowance
import Cobol.Proofs.Tree.Execution

/-!
# Lines behind each other

A block statement reads ahead: what it takes depends on all the lines behind it. Lines are
self-contained when this never reaches over their end, that is, when a scan that jumps from the
header of a block to behind the line that closes it meets no block that is left open.

* `IfBlock.splitFrom_append_of_past?`, `EvaluateBlock.splitFrom_append_of_past?`: a block that finds
  its end takes the same parts whatever stands behind the end.
* `executeBlock_append`: self-contained lines in front of other lines are executed as if they stood
  alone, and then the other lines. This holds of every list of lines whose blocks are closed, well
  nested or not.
* `executeBlock_inline_of_call`, `executeBlock_call_of_inline`: a call of a self-contained paragraph
  is its body written in place, up to one level of nesting.

## Shape decisions

* Self-contained is a condition on the lines as the executor meets them, and no grammar: blocks of
  the two kinds may cross each other, and a part may come twice.
* The scan jumps over a block whole, as the executor does. So a keyword inside a block is never
  looked at by itself.
* A call costs one level of nesting more than its body written in place. Outcomes are compared under
  allowances that differ by this level.
-/

namespace Cobol

open Text

/-! ### Where a block ends -/

/-- The lines behind the line that closes a block, if there is one; `depth` inner blocks are
open. -/
def BlockKind.past? (k : BlockKind) : Nat → List Text → Option (List Text)
  | _, [] => none
  | depth, line :: rest =>
    if Verb.ofStatement line = k.opener then k.past? (depth + 1) rest
    else if Verb.ofStatement line = k.closer then
      match depth with
      | 0 => some rest
      | outer + 1 => k.past? outer rest
    else k.past? depth rest

/-- The lines hold whole blocks: a scan that jumps over blocks finds the end of each. -/
inductive SelfContained : List Text → Prop
  /-- No lines. -/
  | nil : SelfContained []
  /-- A line that opens no block. -/
  | line {line : Text} {rest : List Text}
      (hverb : ∀ k : BlockKind, Verb.ofStatement line ≠ k.opener) (hrest : SelfContained rest) :
      SelfContained (line :: rest)
  /-- A block whose end is found. -/
  | block {header : Text} {following rest : List Text} (k : BlockKind)
      (hverb : Verb.ofStatement header = k.opener) (hpast : k.past? 0 following = some rest)
      (hrest : SelfContained rest) : SelfContained (header :: following)

namespace BlockKind

variable {k : BlockKind} {line : Text}

/-- A line that moves the depth is passed with the depth it leads to. -/
theorem past?_cons_of_step {depth after : Nat}
    (h : k.step depth (Verb.ofStatement line) = some after) (rest : List Text) :
    k.past? depth (line :: rest) = k.past? after rest := by
  rcases step_cases h with ⟨hv, rfl⟩ | ⟨hv, rfl⟩ | ⟨hopener, hcloser, -, rfl⟩
  · rw [past?.eq_def]
    exact if_pos hv
  · have hne : k.closer ≠ k.opener := by cases k <;> nofun
    simp only [past?, hv, hne, if_false, if_true]
  · rw [past?.eq_def]
    simp only [hopener, hcloser, if_false]

/-- At the bottom the closing line ends the block, and what stands behind it is left. -/
theorem past?_cons_of_closer (h : Verb.ofStatement line = k.closer) (rest : List Text) :
    k.past? 0 (line :: rest) = some rest := by
  have hne : k.closer ≠ k.opener := by cases k <;> nofun
  simp only [past?, h, hne, if_false, if_true]

/-- A line that begins another part of the block does not end it. -/
theorem past?_cons_of_part (h : Verb.ofStatement line = k.part) (depth : Nat) (rest : List Text) :
    k.past? depth (line :: rest) = k.past? depth rest := by
  have hopener : k.part ≠ k.opener := by cases k <;> nofun
  have hcloser : k.part ≠ k.closer := by cases k <;> nofun
  rw [past?.eq_def]
  simp only [h, hopener, hcloser, if_false]

end BlockKind

namespace IfBlock

/-- What is pushed to a part does not touch what stands behind the block. -/
theorem push_rest (inElse : Bool) (lines rest : List Text) (b : IfBlock) :
    push inElse lines { b with rest := rest } = { b.push inElse lines with rest := rest } := by
  cases inElse <;> rfl

/-- A block that finds its end takes the same parts whatever stands behind the end. -/
theorem splitFrom_append_of_past? {depth : Nat} {inElse : Bool} {lines rest : List Text}
    (h : BlockKind.conditional.past? depth lines = some rest) (more : List Text) :
    splitFrom depth inElse (lines ++ more) =
      { splitFrom depth inElse lines with rest := rest ++ more } := by
  induction lines generalizing depth inElse with
  | nil => cases h
  | cons line tail ih =>
    rw [List.cons_append]
    cases hstep : BlockKind.conditional.step depth (Verb.ofStatement line) with
    | some after =>
      rw [BlockKind.past?_cons_of_step hstep] at h
      rw [splitFrom_cons hstep, splitFrom_cons hstep, ih h, push_rest]
    | none =>
      obtain ⟨rfl, hcloser | hpart⟩ := BlockKind.step_eq_none hstep
      · rw [BlockKind.past?_cons_of_closer hcloser, Option.some.injEq] at h
        rw [splitFrom_close hcloser, splitFrom_close hcloser, h]
      · rw [BlockKind.past?_cons_of_part hpart] at h
        rw [splitFrom_part hpart, splitFrom_part hpart, ih h, push_rest]

end IfBlock

namespace EvaluateBlock

/-- A block that finds its end takes the same branches whatever stands behind the end. -/
theorem splitFrom_append_of_past? {depth : Nat} {lines rest : List Text}
    (h : BlockKind.choice.past? depth lines = some rest) (more : List Text) :
    splitFrom depth (lines ++ more) = { splitFrom depth lines with rest := rest ++ more } := by
  induction lines generalizing depth with
  | nil => cases h
  | cons line tail ih =>
    rw [List.cons_append]
    cases hstep : BlockKind.choice.step depth (Verb.ofStatement line) with
    | some after =>
      rw [BlockKind.past?_cons_of_step hstep] at h
      rw [splitFrom_cons hstep, splitFrom_cons hstep, ih h]
      rfl
    | none =>
      obtain ⟨rfl, hcloser | hpart⟩ := BlockKind.step_eq_none hstep
      · rw [BlockKind.past?_cons_of_closer hcloser, Option.some.injEq] at h
        rw [splitFrom_close hcloser, splitFrom_close hcloser, h]
      · rw [BlockKind.past?_cons_of_part hpart] at h
        rw [splitFrom_part hpart, splitFrom_part hpart, ih h]
        rfl

end EvaluateBlock

/-! ### One statement in front of other lines -/

section

variable {m : Machine} {allowance : Nat} {nested : List Text → State → Outcome} {k : BlockKind}
  {header : Text} {following rest : List Text}

/-- What a header leaves is what stands behind the end of its block. -/
theorem unread_append_of_past? (hverb : Verb.ofStatement header = k.opener)
    (hpast : k.past? 0 following = some rest) (more : List Text) :
    unread header (following ++ more) = rest ++ more := by
  rw [unread, hverb]
  cases k with
  | conditional => exact congrArg IfBlock.rest (IfBlock.splitFrom_append_of_past? hpast more)
  | choice => exact congrArg EvaluateBlock.rest (EvaluateBlock.splitFrom_append_of_past? hpast more)

/-- A header does not see what stands behind the end of its block. -/
theorem execute_append_of_past? (hverb : Verb.ofStatement header = k.opener)
    (hpast : k.past? 0 following = some rest) (more : List Text) (s : State) :
    execute m allowance nested header (following ++ more) s =
      execute m allowance nested header following s := by
  cases k with
  | conditional =>
    rw [execute, execute, Action.ofText_of_ifThen hverb, perform, perform, IfBlock.split,
      IfBlock.splitFrom_append_of_past? hpast more]
    rfl
  | choice =>
    rw [execute, execute, Action.ofText_of_evaluate hverb, perform, perform, EvaluateBlock.split,
      EvaluateBlock.splitFrom_append_of_past? hpast more]
    rfl

/-- Three outcomes behind each other can be grouped either way. -/
theorem Outcome.andThen_assoc (o : Outcome) (f g : State → Outcome) :
    (o.andThen f).andThen g = o.andThen fun s ↦ (f s).andThen g := by
  obtain ⟨s, fault⟩ := o
  cases fault <;> rfl

/-- Self-contained lines, given that nested blocks are executed alike. -/
theorem executeLines_append {lines : List Text} (h : SelfContained lines) (more : List Text)
    (s : State) :
    executeLines m allowance nested (lines ++ more) s =
      (executeLines m allowance nested lines s).andThen (executeLines m allowance nested more) := by
  -- along the scan, not line by line: behind a header it goes on behind the end of the block
  induction h generalizing s with
  | nil =>
    rw [executeLines.eq_1]
    rfl
  | @line line rest hverb _ ih =>
    have hif := hverb .conditional
    have hevaluate := hverb .choice
    by_cases hs : s.running = true
    · rw [List.cons_append, executeLines_cons hs, executeLines_cons hs,
        unread_of_not_opener hif hevaluate, unread_of_not_opener hif hevaluate,
        execute_of_not_opener hif hevaluate, execute_of_not_opener hif hevaluate rest,
        Outcome.andThen_assoc, funext ih]
    · simp only [executeLines_of_stopped hs, State.done_andThen]
  | @block header following rest k hverb hpast _ ih =>
    by_cases hs : s.running = true
    · have hunread : unread header following = rest := by
        have := unread_append_of_past? hverb hpast []
        rwa [List.append_nil, List.append_nil] at this
      rw [List.cons_append, executeLines_cons hs, executeLines_cons hs,
        unread_append_of_past? hverb hpast, hunread, execute_append_of_past? hverb hpast,
        Outcome.andThen_assoc, funext ih]
    · simp only [executeLines_of_stopped hs, State.done_andThen]

end

/-- **Self-contained lines in front of other lines** are executed as if they stood alone, and then
the other lines. -/
theorem executeBlock_append {lines : List Text} (h : SelfContained lines) (m : Machine)
    (allowance : Nat) (more : List Text) (s : State) :
    executeBlock m allowance (lines ++ more) s =
      (executeBlock m allowance lines s).andThen (executeBlock m allowance more) := by
  cases allowance with
  | zero => rfl
  | succ allowance => exact executeLines_append h more s

/-- No lines do nothing, if there is an allowance for a block at all. -/
theorem executeBlock_nil (m : Machine) (allowance : Nat) :
    executeBlock m (allowance + 1) [] = State.done :=
  funext fun s ↦ by rw [executeBlock, executeLines]

/-! ### Calls -/

/-- A text of label characters. -/
def IsLabel (label : Text) : Prop :=
  label ≠ [] ∧ ∀ c ∈ label, Program.isLabelChar c = true

instance (label : Text) : Decidable (IsLabel label) :=
  inferInstanceAs (Decidable (_ ∧ _))

/-- The ways to write a call of a paragraph. -/
def callsOf (label : Text) : List Text :=
  ["PERFORM".toList ++ ' ' :: label, "GOTO".toList ++ ' ' :: label,
   "GO".toList ++ ' ' :: ("TO".toList ++ ' ' :: label)]

/-- The characters of labels are their own upper case, and neither blanks nor periods. -/
theorem plain_of_isLabelChar {c : Char} (h : Program.isLabelChar c = true) :
    upperChar c = [c] ∧ isBlank c = false ∧ c ≠ '.' := by
  have hascii : c.toNat < 128 := by
    simp only [Program.isLabelChar, Bool.or_eq_true, Bool.and_eq_true, decide_eq_true_eq,
      beq_iff_eq, Char.le_def, UInt32.le_iff_toNat_le] at h
    have hcode : c.toNat = c.val.toNat := rfl
    rcases h with (⟨-, h⟩ | ⟨-, h⟩) | rfl
    · exact Nat.lt_of_le_of_lt h (by decide)
    · exact Nat.lt_of_le_of_lt h (by decide)
    · decide
  have hall : ∀ n < 128, Program.isLabelChar (Char.ofNat n) = true →
      upperChar (Char.ofNat n) = [Char.ofNat n] ∧ isBlank (Char.ofNat n) = false ∧
        Char.ofNat n ≠ '.' := by decide +kernel
  have := hall c.toNat hascii
  rw [Char.ofNat_toNat] at this
  exact this h

/-- A label is one word of the kind that verbs are compared with. -/
theorem IsLabel.isPlain {label : Text} (h : IsLabel label) : Verb.IsPlain label where
  ne_nil := h.1
  upper_eq := by
    have hchars : ∀ c ∈ label, upperChar c = [c] := fun c hc ↦ (plain_of_isLabelChar (h.2 c hc)).1
    rw [upper, List.flatMap_congr hchars, List.flatMap_singleton']
  not_blank c hc := (plain_of_isLabelChar (h.2 c hc)).2.1
  not_dot c hc := (plain_of_isLabelChar (h.2 c hc)).2.2

/-- A sentence that does not end in a period only loses the blanks at its end. -/
theorem Sentence.dropPeriod_of_getLast? {t : Text} (h : (trimRight t).getLast? ≠ some '.') :
    dropPeriod t = trimRight t :=
  dropPeriod_of_not_endsIn fun body hbody ↦ h (by rw [hbody.1, List.getLast?_concat])

/-- Without a period at the end the words of a statement are those of its text. -/
theorem Sentence.words_dropPeriod_of_getLast? {t : Text} (h : (trimRight t).getLast? ≠ some '.') :
    words (dropPeriod t) = words t := by
  rw [← words_dropPeriod_trim, dropPeriod_trim, dropPeriod_of_getLast? h]
  exact words_trim t

/-- The statement asks for one run of the paragraph, and takes no lines. -/
structure IsCall (call label : Text) : Prop where
  /-- It is read as a call. -/
  asks : Action.ofText (trim call) = .perform label .once
  /-- It opens no block. -/
  flat : ∀ k : BlockKind, Verb.ofStatement call ≠ k.opener

/-- A sentence whose verb and words ask for one pass through a paragraph is a call of it. -/
theorem isCall_of_words {call label : Text} (hdot : '.' ∉ call)
    (h : Verb.ofStatement call = .perform ∧ Action.ofPerform (words call) = .perform label .once ∨
      Verb.ofStatement call = .goTo ∧ Action.ofGoTo (words call) = .perform label .once) :
    IsCall call label := by
  have hverb : Verb.ofStatement call = .perform ∨ Verb.ofStatement call = .goTo :=
    h.imp And.left And.left
  have hne : trim call ≠ [] := Verb.trim_ne_nil (by rcases hverb with h | h <;> rw [h] <;> decide)
  have hlast : (trimRight call).getLast? ≠ some '.' := fun h ↦
    hdot ((List.rdropWhile_prefix isBlank call).mem (List.mem_of_getLast? h))
  refine ⟨?_, fun k ↦ by rcases hverb with h | h <;> rw [h] <;> cases k <;> decide⟩
  rcases h with ⟨hverb, hparts⟩ | ⟨hverb, hparts⟩ <;>
    simp [Action.ofText, hne, hverb, Sentence.words_dropPeriod_trim,
      Sentence.words_dropPeriod_of_getLast? hlast, hparts]

/-- A keyword in front of a text is its first word, for the verb and for the operands. -/
theorem words_keyword {keyword : Text} (h : IsLabel keyword) (t : Text) :
    Verb.wordsOf (keyword ++ ' ' :: t) = keyword :: Verb.wordsOf t ∧
      words (keyword ++ ' ' :: t) = keyword :: words t := by
  have hblank : isBlank ' ' = true := by decide
  exact ⟨Verb.wordsOf_plain_append h.isPlain hblank t,
    words_word_append h.1 h.isPlain.not_blank hblank t⟩

/-- A keyword of one word is the verb of a statement that starts with it. -/
theorem Verb.ofStatement_keyword {keyword : Text} (h : IsLabel keyword)
    (hstop : keyword ≠ "STOP".toList) (hgo : keyword ≠ "GO".toList) (t : Text) :
    ofStatement (keyword ++ ' ' :: t) = ofWords [keyword] := by
  rw [ofStatement, (words_keyword h t).1]
  simp only [ofWords, if_neg hstop, hgo, false_and, if_false]

/-- All the ways to write a call of a label are calls of it. -/
theorem isCall_of_mem_callsOf {label call : Text} (hlabel : IsLabel label)
    (hcall : call ∈ callsOf label) : IsCall call label := by
  have hwords : words label = [label] := words_of_forall_not hlabel.1 hlabel.isPlain.not_blank
  have hdot : '.' ∉ label := fun h ↦ hlabel.isPlain.not_dot _ h rfl
  simp only [callsOf, List.mem_cons, List.not_mem_nil, or_false] at hcall
  rcases hcall with rfl | rfl | rfl
  · have hverb := Verb.ofStatement_keyword (show IsLabel "PERFORM".toList by decide) (by decide)
      (by decide) label
    refine isCall_of_words (by simpa using hdot) (Or.inl ⟨hverb.trans (by decide +kernel), ?_⟩)
    rw [(words_keyword (by decide) label).2, hwords]
    rfl
  · have hverb := Verb.ofStatement_keyword (show IsLabel "GOTO".toList by decide) (by decide)
      (by decide) label
    refine isCall_of_words (by simpa using hdot) (Or.inr ⟨hverb.trans (by decide +kernel), ?_⟩)
    rw [(words_keyword (by decide) label).2, hwords]
    rfl
  · obtain ⟨hverbsTo, hpartsTo⟩ := words_keyword (show IsLabel "TO".toList by decide) label
    obtain ⟨hverbs, hparts⟩ :=
      words_keyword (show IsLabel "GO".toList by decide) ("TO".toList ++ ' ' :: label)
    refine isCall_of_words (by simpa using hdot) (Or.inr ⟨?_, ?_⟩)
    · rw [Verb.ofStatement, hverbs, hverbsTo]
      rfl
    · rw [hparts, hpartsTo, hwords]
      rfl

/-! ### Paragraphs written in place -/

section

variable {m : Machine} {call label : Text} {body : List Text} (hcall : IsCall call label)
  (hbody : m.paragraphs.get? (upper label) = some body)

include hcall hbody

/-- A call in front of other lines: the body with the allowance that is left, and then the lines. -/
theorem executeBlock_call (allowance : Nat) (more : List Text) {s : State}
    (hs : s.running = true) :
    executeBlock m (allowance + 1) (call :: more) s =
      (executeBlock m allowance body s).andThen (executeBlock m (allowance + 1) more) := by
  have hexecute : execute m allowance (executeBlock m allowance) call more s =
      executeBlock m allowance body s := by
    rw [execute, hcall.asks, perform, runParagraph, hbody]
  rw [executeBlock, executeLines_cons hs, hexecute,
    unread_of_not_opener (hcall.flat .conditional) (hcall.flat .choice)]

variable (hclosed : SelfContained body)

include hclosed

/-- What a call ends in, its body in place ends in. -/
theorem executeBlock_inline_of_call (allowance : Nat) (more : List Text) {s : State}
    (hfits : (executeBlock m allowance (call :: more) s).Fits) :
    executeBlock m allowance (body ++ more) s = executeBlock m allowance (call :: more) s := by
  cases allowance with
  | zero => exact absurd hfits s.not_fits_fail_nesting
  | succ allowance =>
    by_cases hs : s.running = true
    · -- the call runs the body with one level less, and that it fits there is all that is needed
      rw [executeBlock_call hcall hbody allowance more hs] at hfits ⊢
      have hwider := widens_executeBlock m allowance 1 body s hfits.of_andThen
      rw [executeBlock_append hclosed, hwider]
    · rw [executeBlock, executeLines_of_stopped hs, executeLines_of_stopped hs]

/-- What a body in place ends in, its call ends in with an allowance for one block more. -/
theorem executeBlock_call_of_inline (allowance : Nat) (more : List Text) {s : State}
    (hfits : (executeBlock m allowance (body ++ more) s).Fits) :
    executeBlock m (allowance + 1) (call :: more) s =
      executeBlock m allowance (body ++ more) s := by
  rw [← widens_executeBlock m allowance 1 (body ++ more) s hfits]
  by_cases hs : s.running = true
  · rw [executeBlock_call hcall hbody allowance more hs, executeBlock_append hclosed]
    rw [executeBlock_append hclosed] at hfits
    rw [widens_executeBlock m allowance 1 body s hfits.of_andThen]
  · rw [executeBlock, executeLines_of_stopped hs, executeLines_of_stopped hs]

end

/-- **Lines compose, and calls can be written in place.** Self-contained lines in front of others
are executed as if they stood alone, faults and limits included. For a paragraph with a
self-contained body, a call and the body in its place end alike: what one of them ends in without
running out of its allowance, the other ends in, where the call needs one level more. -/
theorem executeBlock_composes (m : Machine) (more : List Text) (s : State) :
    (∀ {lines : List Text}, SelfContained lines → ∀ allowance,
      executeBlock m allowance (lines ++ more) s =
        (executeBlock m allowance lines s).andThen (executeBlock m allowance more)) ∧
    ∀ {label : Text} {body : List Text}, IsLabel label → m.paragraphs.get? label = some body →
      SelfContained body → ∀ call ∈ callsOf label, ∀ allowance,
        ((executeBlock m allowance (call :: more) s).Fits →
          executeBlock m allowance (body ++ more) s = executeBlock m allowance (call :: more) s) ∧
        ((executeBlock m allowance (body ++ more) s).Fits →
          executeBlock m (allowance + 1) (call :: more) s =
            executeBlock m allowance (body ++ more) s) := by
  refine ⟨fun hlines allowance ↦ executeBlock_append hlines m allowance more s, ?_⟩
  intro label body hlabel hbody hclosed call hmem allowance
  have hcall := isCall_of_mem_callsOf hlabel hmem
  rw [← hlabel.isPlain.upper_eq] at hbody
  exact ⟨executeBlock_inline_of_call hcall hbody hclosed allowance more,
    executeBlock_call_of_inline hcall hbody hclosed allowance more⟩

/-- A body whose blocks are closed and do not nest: the choice is opened inside the conditional and
the conditional ends before it. -/
def crossedBody : List Text :=
  ["IF 1 = 1", "DISPLAY 'A'", "EVALUATE 1", "END-IF.", "DISPLAY 'B'."].map String.toList

/-- Blocks that cross each other can still be self-contained: only the ends of the own kind are
counted. -/
theorem selfContained_crossedBody : SelfContained crossedBody :=
  have hpast : BlockKind.conditional.past? 0 crossedBody.tail = some ["DISPLAY 'B'.".toList] := by
    decide +kernel
  .block .conditional (by decide +kernel) hpast
    (.line (fun k ↦ by cases k <;> decide +kernel) .nil)

/-- A machine with the body as a paragraph. -/
def crossed : Machine := ⟨⟨[("A-1".toList, crossedBody)]⟩, 9⟩

/-- Lines that would end the choice. -/
def crossedRest : List Text :=
  ["WHEN 1", "DISPLAY 'C'.", "END-EVALUATE"].map String.toList

/-- The lines behind a call are not taken into the blocks of the paragraph. -/
theorem executeBlock_composes_crossed :
    (executeBlock crossed 9 ("GO TO A-1".toList :: crossedRest) {}).state.output =
        #["A".toList, "B".toList, "C".toList] ∧
      executeBlock crossed 9 (crossedBody ++ crossedRest) {} =
        executeBlock crossed 9 ("GO TO A-1".toList :: crossedRest) {} ∧
      executeBlock crossed 9 (crossedBody ++ crossedRest) {} =
        (executeBlock crossed 9 crossedBody {}).andThen (executeBlock crossed 9 crossedRest) := by
  have hlabel : IsLabel "A-1".toList := by decide
  have hcomposes := executeBlock_composes crossed crossedRest {}
  have hcall := hcomposes.2 hlabel rfl selfContained_crossedBody "GO TO A-1".toList (by decide) 9
  exact ⟨by decide +kernel, hcall.1 (by decide +kernel),
    hcomposes.1 selfContained_crossedBody 9⟩

end Cobol
