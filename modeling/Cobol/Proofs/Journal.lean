import Mathlib.Data.List.Forall2
import Cobol.Execution

/-!
# The journal is never read

Notes are collected while a program runs, and no statement can see them. So two runs that start in
states which differ in their journals alone stay equal in everything else, whatever they note on the
way.

* `State.visible` is a state without its journal; `Similar f g` says that `f` and `g` do the same to
  what is visible.
* `Similar` is closed under all the ways in which the executor is put together, so one induction on
  the allowance gives `similar_executeBlock`. The closure lemmas speak of two machines and two
  functions for nested blocks, because lines are also compared with other lines that do the same.

## Shape decisions

* The visible state is the state with an empty journal, so equality of visible states is one
  equation and not one for every part.
* `Similar` quantifies over two states at once. With one state it would not be kept by `andThen`,
  behind which the two journals differ.
-/

namespace Cobol

open Text

/-- The state without its journal. -/
def State.visible (s : State) : State :=
  { s with journal := #[] }

/-- The outcome without the journal of its state. -/
def Outcome.visible (o : Outcome) : Outcome :=
  ⟨o.state.visible, o.fault⟩

@[simp] theorem State.visible_note (s : State) (n : Note) : (s.note n).visible = s.visible := rfl

@[simp] theorem State.visible_done (s : State) : s.done.visible = s.visible.done := rfl

@[simp] theorem State.visible_fail (s : State) (fault : Fault) :
    (s.fail fault).visible = s.visible.fail fault := rfl

/-- The functions do the same to what is visible. -/
def Similar (f g : State → Outcome) : Prop :=
  ∀ s t : State, s.visible = t.visible → (f s).visible = (g t).visible

/-- The slots are visible. -/
theorem State.store_eq {s t : State} (h : s.visible = t.visible) : s.store = t.store :=
  congrArg (·.store) h

/-- Whether a program runs is visible. -/
theorem State.running_eq {s t : State} (h : s.visible = t.visible) : s.running = t.running :=
  congrArg (·.running) h

namespace Similar

variable {f g h : State → Outcome}

/-- What one does to the visible state the other does too. -/
theorem symm (hfg : Similar f g) : Similar g f := fun s t hst ↦
  (hfg t s hst.symm).symm

/-- Similarity is carried from one execution to the next. -/
theorem trans (hfg : Similar f g) (hgh : Similar g h) : Similar f h := fun s t hst ↦
  (hfg s s rfl).trans (hgh s t hst)

/-- Ending without a fault is similar to itself. -/
theorem done : Similar State.done State.done := fun s t hst ↦ by
  rw [State.visible_done, State.visible_done, hst]

/-- Ending in a fault is similar to ending in the same one. -/
theorem fail (fault : Fault) : Similar (State.fail · fault) (State.fail · fault) := fun s t hst ↦ by
  rw [State.visible_fail, State.visible_fail, hst]

/-- Notes do not show: any two of them are similar. -/
theorem note (m n : Note) : Similar (fun s ↦ (s.note m).done) (fun s ↦ (s.note n).done) :=
  fun s t hst ↦ by
    rw [State.visible_done, State.visible_done, State.visible_note, State.visible_note, hst]

/-- A function that does not look at the journal and leaves it alone. -/
theorem of_store {f : State → Outcome}
    (hf : ∀ s, (f s).visible = (f s.visible).visible) : Similar f f := fun s t hst ↦ by
  rw [hf s, hst, ← hf t]

/-- Similar executions behind outcomes that look alike give outcomes that look alike. -/
theorem andThen_visible {o o' : Outcome} (ho : o.visible = o'.visible) (hfg : Similar f g) :
    (o.andThen f).visible = (o'.andThen g).visible := by
  obtain ⟨s, fault⟩ := o
  obtain ⟨t, fault'⟩ := o'
  obtain rfl : fault = fault' := congrArg (·.fault) ho
  have hst : s.visible = t.visible := congrArg (·.state) ho
  cases fault with
  | none => exact hfg s t hst
  | some fault => exact ho

/-- One execution after another is similar where both are. -/
theorem andThen {f' g' : State → Outcome} (hfg : Similar f g) (hfg' : Similar f' g') :
    Similar (fun s ↦ (f s).andThen f') (fun s ↦ (g s).andThen g') := fun s t hst ↦
  andThen_visible (hfg s t hst) hfg'

/-- A check of the run flag in front. -/
theorem whileRunning (hfg : Similar f g) :
    Similar (fun s ↦ if s.running then f s else s.done)
      (fun s ↦ if s.running then g s else s.done) := fun s t hst ↦ by
  dsimp only
  rw [State.running_eq hst]
  split
  · exact hfg s t hst
  · exact done s t hst

/-- A counted loop is similar to the loop over a similar body. -/
theorem repeatTimes (hfg : Similar f g) (n : Nat) :
    Similar (repeatTimes f n) (repeatTimes g n) := by
  induction n with
  | zero => exact done
  | succ n ih => exact whileRunning (hfg.andThen ih)

/-- A loop is similar to the loop over a similar body, if the test sees the visible state alone. -/
theorem repeatUntil (hfg : Similar f g) {test : State → Except Fault Bool}
    (htest : ∀ s t : State, s.visible = t.visible → test s = test t) (passes : Nat) :
    Similar (repeatUntil f test passes) (repeatUntil g test passes) := by
  induction passes with
  | zero => exact fail .endless
  | succ passes ih =>
    refine hfg.andThen (whileRunning fun s t hst ↦ ?_)
    rw [htest s t hst]
    cases test t with
    | error fault => exact fail fault s t hst
    | ok reached =>
      cases reached with
      | true => exact done s t hst
      | false => exact ih s t hst

end Similar

/-! ### Statements -/

/-- A write does not look at the journal. -/
theorem similar_write (name : Text) (v : Value) :
    Similar (State.write · name v) (State.write · name v) :=
  .of_store fun s ↦ by
    dsimp only [State.write, State.visible]
    cases s.store.set name v <;> rfl

/-- Writes to several slots do not look at the journal. -/
theorem similar_writeAll (v : Value) (targets : List Text) :
    Similar (State.writeAll v targets) (State.writeAll v targets) := by
  induction targets with
  | nil => exact .done
  | cons name rest ih => exact (similar_write name v).andThen ih

/-- An arithmetic statement does not look at the journal. -/
theorem similar_combine (operation : Operation) (amount : Int) (target : Text) :
    Similar (State.combine · operation amount target) (State.combine · operation amount target) :=
  .of_store fun s ↦ by
    dsimp only [State.combine, State.write, State.visible]
    split
    · rfl
    · split <;> rfl

/-- `ACCEPT` does not look at the journal. -/
theorem similar_acceptLine (target : Text) :
    Similar (State.acceptLine · target) (State.acceptLine · target) :=
  .of_store fun s ↦ by
    obtain ⟨store, output, input, running, journal⟩ := s
    dsimp only [State.acceptLine, State.visible]
    cases input with
    | none => rfl
    | some input =>
      dsimp only
      cases input.read with
      | error fault => rfl
      | ok reading =>
        obtain ⟨line, rest⟩ := reading
        cases line with
        | none => rfl
        | some line =>
          dsimp only [State.write]
          split
          · cases Numeral.read line with
            | error fault => rfl
            | ok n => dsimp only; split <;> rfl
          · split <;> rfl

/-- The text of a statement goes to the journal only. -/
theorem similar_act (allowance : Nat) (statement statement' : Text) (action : Action) :
    Similar (act allowance statement · action) (act allowance statement' · action) := by
  intro s t hst
  have hstore := State.store_eq hst
  cases action with
  | move source targets =>
    dsimp only [act]
    rw [hstore]
    cases operandValue t.store source with
    | error fault => exact Similar.fail fault s t hst
    | ok v => exact similar_writeAll v targets s t hst
  | compute target expression =>
    -- the one action that notes something of its own and goes on
    dsimp only [act]
    rw [hstore]
    cases Expression.evaluate t.store allowance expression with
    | error fault => exact Similar.fail fault s t hst
    | ok result =>
      cases result with
      | error failure => exact Similar.note _ _ s t hst
      | ok n => exact similar_write target (.number n) s t hst
  | arithmetic operation operand target =>
    dsimp only [act]
    split
    · cases Numeral.read operand with
      | error fault => exact Similar.fail fault s t hst
      | ok amount => exact similar_combine operation amount target s t hst
    · exact Similar.note _ _ s t hst
  | display operands =>
    dsimp only [act]
    rw [hstore]
    cases displayLine t.store operands with
    | error fault => exact Similar.fail fault s t hst
    | ok line => exact Similar.of_store (f := fun s ↦ (s.display line).done) (fun _ ↦ rfl) s t hst
  | accept target => exact similar_acceptLine target s t hst
  | stop =>
    have hstop : Similar (fun s ↦ ({ s with running := false } : State).done)
        (fun s ↦ ({ s with running := false } : State).done) := .of_store fun _ ↦ rfl
    exact hstop s t hst
  | unrecognized => exact Similar.note _ _ s t hst
  | nothing => exact Similar.done s t hst
  | branch condition => exact Similar.done s t hst
  | choose subject => exact Similar.done s t hst
  | perform label repetition => exact Similar.done s t hst

/-! ### Paragraphs -/

section

variable {m m' : Machine} {nested nested' : List Text → State → Outcome}

/-- Machines with similar paragraphs run them alike. -/
theorem similar_runParagraph (hpasses : m.passes = m'.passes)
    (hbodies : ∀ label, Option.Rel (fun body body' ↦ Similar (nested body) (nested' body'))
      (m.paragraphs.get? label) (m'.paragraphs.get? label))
    (label : Text) (repetition : Repetition) :
    Similar (runParagraph m nested label repetition)
      (runParagraph m' nested' label repetition) := by
  intro s t hst
  unfold runParagraph
  generalize m.paragraphs.get? (upper label) = found, m'.paragraphs.get? (upper label) = found',
    hbodies (upper label) = hbody
  cases hbody with
  | none => exact Similar.note _ _ s t hst
  | some hbody =>
    cases repetition with
    | once => exact hbody s t hst
    | times count =>
      dsimp only
      rw [State.store_eq hst]
      cases operandValue t.store count >>= Value.integer with
      | error fault => exact Similar.fail fault s t hst
      | ok n => exact hbody.repeatTimes n.toNat s t hst
    | untilTrue condition =>
      dsimp only
      rw [hpasses]
      refine hbody.repeatUntil (fun s t hst ↦ ?_) m'.passes s t hst
      rw [State.store_eq hst]

/-! ### Parts of blocks -/

/-- The lines behind a header hold similar parts. -/
structure SimilarParts (nested nested' : List Text → State → Outcome)
    (following following' : List Text) : Prop where
  /-- The parts before `ELSE`. -/
  whenTrue : Similar (nested (IfBlock.split following).whenTrue)
    (nested' (IfBlock.split following').whenTrue)
  /-- The parts behind `ELSE`. -/
  whenFalse : Similar (nested (IfBlock.split following).whenFalse)
    (nested' (IfBlock.split following').whenFalse)
  /-- The branches. -/
  branches : List.Forall₂
    (fun b c ↦ b.value = c.value ∧ Similar (nested b.lines) (nested' c.lines))
    (EvaluateBlock.split following).branches (EvaluateBlock.split following').branches

/-- The choice between branches reads only their values. -/
theorem Subject.selects_congr {b c : Branch} (h : b.value = c.value) (subject : Subject) :
    subject.selects b = subject.selects c := by
  unfold Subject.selects Branch.isOther
  rw [h]

/-- Branches with the same values and similar lines are chosen between alike. -/
theorem similar_select {nested nested' : List Text → State → Outcome} (subject : Subject)
    {branches branches' : List Branch}
    (h : List.Forall₂ (fun b c ↦ b.value = c.value ∧ Similar (nested b.lines) (nested' c.lines))
      branches branches') :
    Similar
      (fun s ↦ match subject.select branches with
        | .error fault => s.fail fault
        | .ok none => s.done
        | .ok (some lines) => nested lines s)
      (fun s ↦ match subject.select branches' with
        | .error fault => s.fail fault
        | .ok none => s.done
        | .ok (some lines) => nested' lines s) := by
  induction h with
  | nil => exact .done
  | cons hhead _ ih =>
    rw [Subject.select, Subject.select, Subject.selects_congr hhead.1]
    cases subject.selects _ with
    | error fault => exact .fail fault
    | ok taken =>
      cases taken with
      | true => exact hhead.2
      | false => exact ih

/-- Statements that ask for the same do the same, if what they run is similar; their texts go to the
journal. -/
theorem similar_perform_of_parts {allowance : Nat} {following following' : List Text}
    (hcalls : ∀ label repetition,
      Similar (runParagraph m nested label repetition) (runParagraph m' nested' label repetition))
    (hparts : SimilarParts nested nested' following following') (statement statement' : Text)
    (action : Action) :
    Similar (perform m allowance nested statement following · action)
      (perform m' allowance nested' statement' following' · action) := by
  intro s t hst
  cases action with
  | branch condition =>
    dsimp only [perform]
    rw [State.store_eq hst]
    cases Condition.holds t.store condition with
    | error fault => exact Similar.fail fault s t hst
    | ok taken =>
      cases taken with
      | true => exact hparts.whenTrue s t hst
      | false => exact hparts.whenFalse s t hst
  | choose subject =>
    dsimp only [perform]
    rw [State.store_eq hst]
    cases Subject.ofText t.store allowance subject with
    | error fault => exact Similar.fail fault s t hst
    | ok subject =>
      obtain ⟨subject, remark⟩ := subject
      -- a remark on the subject goes to both journals, or to none
      have hnoted : (remark.elim s s.note).visible = (remark.elim t t.note).visible := by
        cases remark <;> exact hst
      exact similar_select subject hparts.branches _ _ hnoted
  | perform label repetition => exact hcalls label repetition s t hst
  | _ => exact similar_act allowance statement statement' _ s t hst

end

/-! ### Blocks -/

section

variable {m : Machine} {allowance : Nat} {nested : List Text → State → Outcome}

/-- The journal is not read, and the text of the statement goes nowhere else. -/
theorem similar_perform (hnested : ∀ lines, Similar (nested lines) (nested lines))
    (statement statement' : Text) (following : List Text) (action : Action) :
    Similar (perform m allowance nested statement following · action)
      (perform m allowance nested statement' following · action) := by
  have hbodies (label : Text) : Option.Rel
      (fun body body' ↦ Similar (nested body) (nested body')) (m.paragraphs.get? label)
      (m.paragraphs.get? label) := by
    cases m.paragraphs.get? label with
    | none => exact .none
    | some body => exact .some (hnested body)
  exact similar_perform_of_parts (similar_runParagraph rfl hbodies)
    ⟨hnested _, hnested _, List.forall₂_same.2 fun b _ ↦ ⟨rfl, hnested b.lines⟩⟩ _ _ action

/-- Lines do not look at the journal, if the blocks inside do not. -/
theorem similar_executeLines (hnested : ∀ lines, Similar (nested lines) (nested lines)) :
    ∀ lines : List Text,
    Similar (executeLines m allowance nested lines) (executeLines m allowance nested lines)
  | [] => fun s t hst ↦ by
    rw [executeLines, executeLines]
    exact Similar.done s t hst
  | line :: following => fun s t hst ↦ by
    have hline : Similar (execute m allowance nested line following)
        (execute m allowance nested line following) :=
      similar_perform hnested (trim line) (trim line) following (Action.ofText (trim line))
    have hrest := similar_executeLines hnested (unread line following)
    rw [executeLines, executeLines]
    exact Similar.whileRunning (hline.andThen hrest) s t hst
termination_by lines => lines.length
decreasing_by exact Nat.lt_succ_of_le (length_unread_le line following)

end

/-- **No block reads the journal.** -/
theorem similar_executeBlock (m : Machine) (allowance : Nat) (lines : List Text) :
    Similar (executeBlock m allowance lines) (executeBlock m allowance lines) := by
  induction allowance generalizing lines with
  | zero => exact .fail .nesting
  | succ allowance ih => exact similar_executeLines ih lines

end Cobol
