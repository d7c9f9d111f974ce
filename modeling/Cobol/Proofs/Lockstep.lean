import Cobol.Proofs.Forward

/-!
# Runs in step

A run meets its input in one place: an `ACCEPT` with an operand asks for the next line. So two runs
that differ in their inputs alone do the same for as long as they are given the same answers.

* `Input.ask` is the question. Where there is no input it is answered as by an input that is used
  up.
* A coupling is a family of relations between inputs: `R k i j` says that they give the same answers
  to the next `k` questions (`Coupling`).
* `Steady R f` says that `f`, started in states with coupled inputs, stays in step with itself
  (`Traced.InStep`): the same is done in states that differ in coupled inputs alone, as long as no
  more questions are asked than the coupling covers. It is kept by everything that executions are
  built from, so every block is steady (`steady_traceBlock`).

## Shape decisions

* The number of questions is an index of the relation, and not a property of a run. Two inputs can
  agree on any number of answers, and a run uses up as many of them as it asks.
* Two runs are compared moment by moment, and the outcomes at the end. So what holds of the runs
  holds of the traces, and of what a caller sees.
* The first run decides how many questions are asked. That the second asks as many is a result, and
  no hypothesis.
-/

namespace Cobol

open Text

/-! ### States with another input -/

/-- The state with another input. -/
def State.withInput (s : State) (input : Option Input) : State :=
  { s with input := input }

/-- The outcome with another input in its state. -/
def Outcome.withInput (o : Outcome) (input : Option Input) : Outcome :=
  ⟨o.state.withInput input, o.fault⟩

/-- What follows on an outcome does not see the input, if it does not see it from any state. -/
theorem Outcome.andThen_withInput (o : Outcome) (input : Option Input) {next : State → Outcome}
    (h : ∀ s : State, next (s.withInput input) = (next s).withInput input) :
    (o.withInput input).andThen next = (o.andThen next).withInput input := by
  obtain ⟨s, fault⟩ := o
  cases fault with
  | none => exact h s
  | some fault => rfl

namespace State

@[simp] theorem store_withInput (s : State) (input : Option Input) :
    (s.withInput input).store = s.store := rfl

@[simp] theorem running_withInput (s : State) (input : Option Input) :
    (s.withInput input).running = s.running := rfl

@[simp] theorem input_withInput (s : State) (input : Option Input) :
    (s.withInput input).input = input := rfl

/-- A computation with the slots does not see the input. -/
theorem check_withInput {α : Type} (s : State) (input : Option Input) (x : Except Fault α) :
    (s.withInput input).check x = (s.check x).withInput input := by
  cases x <;> rfl

/-- A write does not see the input. -/
theorem write_withInput (s : State) (input : Option Input) (name : Text) (v : Value) :
    (s.withInput input).write name v = (s.write name v).withInput input := by
  rw [write, write, store_withInput]
  split <;> rfl

/-- Writes to several slots do not see the input. -/
theorem writeAll_withInput (v : Value) (input : Option Input) (names : List Text) (s : State) :
    writeAll v names (s.withInput input) = (writeAll v names s).withInput input := by
  induction names generalizing s with
  | nil => rfl
  | cons name rest ih =>
    rw [writeAll, writeAll, write_withInput]
    exact Outcome.andThen_withInput _ input ih

/-- An arithmetic statement does not see the input. -/
theorem combine_withInput (s : State) (input : Option Input) (operation : Operation)
    (amount : Int) (target : Text) :
    (s.withInput input).combine operation amount target =
      (s.combine operation amount target).withInput input := by
  rw [combine, combine, store_withInput]
  cases operation.apply _ amount with
  | none => rfl
  | some result => exact s.write_withInput input target _

/-- A call itself does not see the input. -/
theorem call_withInput (s : State) (input : Option Input) (m : Machine) (label : Text)
    (repetition : Repetition) :
    (s.withInput input).call m label repetition = (s.call m label repetition).withInput input := by
  unfold call
  cases m.paragraphs.get? (upper label) with
  | none => rfl
  | some body =>
    cases repetition with
    | once | untilTrue => rfl
    | times count => exact s.check_withInput input _

/-- Stores the answer to a question for a line: an integer literal as its integer, any other line as
it is. -/
def storeLine (s : State) (target : Text) : Option Text → Outcome
  | none => s.done
  | some line =>
    if Numeral.isLiteral line then
      match Numeral.read line with
      | .error fault => s.fail fault
      | .ok n => s.write target (.number n)
    else s.write target (.text line)

/-- What is done with a line that has been read does not see the rest of the input. -/
theorem storeLine_withInput (s : State) (input : Option Input) (target : Text)
    (line : Option Text) :
    (s.withInput input).storeLine target line = (s.storeLine target line).withInput input := by
  cases line with
  | none => rfl
  | some line =>
    rw [storeLine, storeLine]
    split
    · split
      · rfl
      · exact s.write_withInput input target _
    · exact s.write_withInput input target _

/-- What is done with a line that has been read leaves the rest of the input. -/
theorem input_storeLine (s : State) (target : Text) (line : Option Text) :
    (s.storeLine target line).state.input = s.input := by
  cases line with
  | none => rfl
  | some line =>
    rw [storeLine]
    split
    · split
      · rfl
      · exact (s.keepsControl_write target _).input
    · exact (s.keepsControl_write target _).input

end State

/-- What is done without a question does not see the input. -/
theorem act_withInput {action : Action} (h : ∀ target, action ≠ .accept target) (allowance : Nat)
    (statement : Text) (s : State) (input : Option Input) :
    act allowance statement (s.withInput input) action =
      (act allowance statement s action).withInput input := by
  cases action with
  | move source targets =>
    rw [act, act, State.store_withInput]
    split
    · rfl
    · exact State.writeAll_withInput _ input targets s
  | compute target expression =>
    rw [act, act, State.store_withInput]
    split
    · rfl
    · rfl
    · exact s.write_withInput input target _
  | arithmetic operation operand target =>
    rw [act, act]
    split
    · split
      · rfl
      · exact s.combine_withInput input operation _ target
    · rfl
  | display operands =>
    rw [act, act, State.store_withInput]
    split <;> rfl
  | accept target => exact absurd rfl (h target)
  | _ => rfl

/-! ### Questions -/

/-- The next line from where `ACCEPT` reads, and what is left there. Without input there is no
line. -/
def Input.ask : Option Input → Except Fault (Option Text × Option Input)
  | none => .ok (none, none)
  | some i => i.read.map fun answer ↦ (answer.1, some answer.2)

/-- `ACCEPT` is a question, and then its answer is stored. -/
theorem State.acceptLine_eq (s : State) (target : Text) :
    s.acceptLine target =
      match Input.ask s.input with
      | .error fault => s.fail fault
      | .ok (line, rest) => (s.withInput rest).storeLine target line := by
  obtain ⟨store, output, input, running, journal⟩ := s
  cases input with
  | none => rfl
  | some i =>
    rw [acceptLine, Input.ask]
    dsimp only
    rcases i.read with fault | ⟨_ | line, rest⟩ <;> rfl

/-- The inputs give the same answer, and `R` holds of what is left of them. -/
inductive Input.Agree (R : Option Input → Option Input → Prop) (i j : Option Input) : Prop
  /-- Neither can be read. -/
  | fault (fault : Fault) (hi : Input.ask i = .error fault) (hj : Input.ask j = .error fault)
  /-- Both have the same line, or none. -/
  | line (line : Option Text) {i' j' : Option Input} (hi : Input.ask i = .ok (line, i'))
      (hj : Input.ask j = .ok (line, j')) (h : R i' j')

/-- Inputs with `R k` between them give the same answers to the next `k` questions. -/
structure Coupling (R : Nat → Option Input → Option Input → Prop) : Prop where
  /-- A coupling covers fewer questions too. -/
  pred : ∀ {k i j}, R (k + 1) i j → R k i j
  /-- A question takes one off the number. -/
  ask : ∀ {k i j}, R (k + 1) i j → Input.Agree (R k) i j

/-! ### Moments in step -/

namespace Moment

/-- A moment without a question does not see the input. -/
theorem own_withInput (m : Machine) {allowance : Nat} {deed : Deed} (h : deed.accepts = false)
    (s : State) (input : Option Input) :
    own m ⟨allowance, deed, s.withInput input⟩ =
      (own m ⟨allowance, deed, s⟩).withInput input := by
  cases deed with
  | statement text =>
    have haccept : ∀ target, Action.ofText (trim text) ≠ .accept target := fun target htarget ↦ by
      rw [Deed.accepts_iff.2 ⟨target, show Deed.action (.statement text) = _ from htarget⟩] at h
      cases h
    unfold own
    dsimp only
    split
    · exact s.call_withInput input m _ _
    · exact act_withInput haccept allowance _ s input
  | test condition => exact s.check_withInput input _
  | choice subject branches =>
    unfold own
    dsimp only [State.store_withInput]
    split
    · rfl
    · rename_i remark _
      cases remark with
      | none => exact s.check_withInput input _
      | some note => exact (s.note note).check_withInput input _

/-- A moment that asks for nothing leaves the input. -/
theorem input_own (m : Machine) {moment : Moment} (h : moment.deed.accepts = false) :
    (moment.own m).state.input = moment.state.input := by
  have haccept : ¬∃ target, moment.deed.action = .accept target := by
    rw [← Deed.accepts_iff, h]
    exact Bool.false_ne_true
  have hvisible : (moment.own m).state.input = _ := congrArg (·.input) (moment.visible_own m)
  rw [hvisible]
  exact input_act (not_exists.1 haccept) _ _ _

end Moment

/-- The second outcome is the first but for its input, and the inputs are coupled. -/
def Outcome.InStep (R : Nat → Option Input → Option Input → Prop) (k : Nat) (o o' : Outcome) :
    Prop :=
  ∃ j, o' = o.withInput j ∧ R k o.state.input j

/-- The second moment is the first but for its input, and the inputs are coupled. -/
def Moment.InStep (R : Nat → Option Input → Option Input → Prop) (x y : Moment) : Prop :=
  ∃ k j, y = { x with state := x.state.withInput j } ∧ R k x.state.input j

/-- The number of questions at a moment: one if an `ACCEPT` with an operand is executed. -/
def Moment.reads (moment : Moment) : Nat :=
  if moment.deed.accepts then 1 else 0

/-- How often a line is asked for. -/
def Traced.reads (x : Traced) : Nat :=
  x.moments.countP (·.deed.accepts)

/-- If the first run asks no more than `k` times for a line, then the second does the same as the
first, and the inputs behind them are coupled for the questions that are left. -/
def Traced.InStep (R : Nat → Option Input → Option Input → Prop) (k : Nat) (x y : Traced) : Prop :=
  x.reads ≤ k → List.Forall₂ (Moment.InStep R) x.moments y.moments ∧
    Outcome.InStep R (k - x.reads) x.outcome y.outcome

section

variable {R : Nat → Option Input → Option Input → Prop} (hR : Coupling R)

include hR

/-- **A question is where two runs could part.** If the inputs agree on the next answer, the two
`ACCEPT`s do the same, and the inputs behind it agree on the rest. -/
theorem State.inStep_acceptLine {k : Nat} {s : State} {j : Option Input} (h : R (k + 1) s.input j)
    (target : Text) :
    Outcome.InStep R k (s.acceptLine target) ((s.withInput j).acceptLine target) := by
  rw [acceptLine_eq, acceptLine_eq, input_withInput]
  rcases hR.ask h with ⟨fault, hi, hj⟩ | ⟨line, hi, hj, hrest⟩
  · rw [hi, hj]
    exact ⟨j, rfl, hR.pred h⟩
  · rename_i i' j'
    rw [hi, hj]
    -- what was read is stored in states that differ in what is left alone
    refine ⟨j', (s.withInput i').storeLine_withInput j' target line, ?_⟩
    rw [input_storeLine]
    exact hrest

/-- **One moment.** -/
theorem Moment.inStep_own (m : Machine) (moment : Moment) {k : Nat} {j : Option Input}
    (h : R k moment.state.input j) (hreads : moment.reads ≤ k) :
    Outcome.InStep R (k - moment.reads) (moment.own m)
      (Moment.own m { moment with state := moment.state.withInput j }) := by
  obtain ⟨allowance, deed, s⟩ := moment
  cases haccepts : deed.accepts with
  | false =>
    refine ⟨j, own_withInput m haccepts s j, ?_⟩
    rw [input_own m haccepts, reads, if_neg (by rw [haccepts]; exact Bool.false_ne_true)]
    exact h
  | true =>
    have hone : reads ⟨allowance, deed, s⟩ = 1 := if_pos haccepts
    rw [hone] at hreads ⊢
    obtain ⟨rest, rfl⟩ : ∃ rest, k = rest + 1 := Nat.exists_eq_add_of_le' hreads
    obtain ⟨target, haction⟩ := Deed.accepts_iff.1 haccepts
    obtain ⟨text, rfl, htext, -⟩ := Deed.exists_statement (by rw [haction]; nofun)
    rw [haction] at htext
    have hown (t : State) : own m ⟨allowance, .statement text, t⟩ = t.acceptLine target := by
      unfold own
      dsimp only
      rw [htext]
      rfl
    rw [hown, hown]
    exact State.inStep_acceptLine hR h target

end

/-! ### Runs in step -/

namespace Traced

/-- Behind an outcome without a fault the traces are joined. -/
theorem andThen_of_none {x : Traced} (h : x.outcome.fault = none) (next : State → Traced) :
    x.andThen next =
      ⟨x.moments ++ (next x.outcome.state).moments, (next x.outcome.state).outcome⟩ := by
  rw [andThen, h]

/-- Behind a fault nothing follows. -/
theorem andThen_of_some {x : Traced} {fault : Fault} (h : x.outcome.fault = some fault)
    (next : State → Traced) : x.andThen next = x := by
  rw [andThen, h]

/-- The questions of joined traces are added up. -/
theorem reads_append (x y : Traced) :
    reads ⟨x.moments ++ y.moments, y.outcome⟩ = x.reads + y.reads := by
  rw [reads, List.countP_append]
  rfl

end Traced

/-- Started in states with coupled inputs, the function stays in step with itself. -/
def Steady (R : Nat → Option Input → Option Input → Prop) (f : State → Traced) : Prop :=
  ∀ (k : Nat) (s : State) (j : Option Input), R k s.input j →
    (f s).InStep R k (f (s.withInput j))

namespace Steady

variable {R : Nat → Option Input → Option Input → Prop}

/-- Ending without a fault is steady. -/
theorem done : Steady R fun s ↦ { outcome := s.done } := fun _ _ j h _ ↦ ⟨.nil, j, rfl, h⟩

/-- Ending in a fault is steady. -/
theorem fail (fault : Fault) : Steady R fun s ↦ { outcome := s.fail fault } := fun _ _ j h _ ↦
  ⟨.nil, j, rfl, h⟩

/-- One moment is steady: it asks at most one question. -/
theorem single (hR : Coupling R) (m : Machine) (allowance : Nat) (deed : Deed) :
    Steady R fun s ↦ Traced.single m ⟨allowance, deed, s⟩ := by
  intro k s j h hreads
  have hone : (Traced.single m ⟨allowance, deed, s⟩).reads = Moment.reads ⟨allowance, deed, s⟩ :=
    List.countP_singleton
  rw [hone] at hreads ⊢
  exact ⟨.cons ⟨k, j, rfl, h⟩ .nil, Moment.inStep_own hR m ⟨allowance, deed, s⟩ h hreads⟩

/-- One steady run after another is steady. The first uses up a part of the coupling, and the second
starts with the rest. -/
theorem andThen {f next : State → Traced} (hf : Steady R f) (hnext : Steady R next) :
    Steady R fun s ↦ (f s).andThen next := by
  intro k s j h hreads
  dsimp only at hreads ⊢
  cases hfault : (f s).outcome.fault with
  | some fault =>
    rw [Traced.andThen_of_some hfault] at hreads ⊢
    obtain ⟨hmoments, i, ho, hi⟩ := hf k s j h hreads
    have hfault' : (f (s.withInput j)).outcome.fault = some fault := by rw [ho]; exact hfault
    rw [Traced.andThen_of_some hfault']
    exact ⟨hmoments, i, ho, hi⟩
  | none =>
    rw [Traced.andThen_of_none hfault, Traced.reads_append] at hreads ⊢
    obtain ⟨hmoments, i, ho, hi⟩ := hf k s j h (by omega)
    -- the rest may ask as often as the first part has left over
    obtain ⟨hmoments', hend⟩ := hnext _ _ i hi (by omega)
    have hfault' : (f (s.withInput j)).outcome.fault = none := by rw [ho]; exact hfault
    have hstate : (f (s.withInput j)).outcome.state = (f s).outcome.state.withInput i := by
      rw [ho]
      rfl
    rw [Traced.andThen_of_none hfault', hstate, ← Nat.sub_sub]
    exact ⟨List.rel_append hmoments hmoments', hend⟩

/-- A program that has stopped asks nothing. -/
theorem whileRunning {f : State → Traced} (hf : Steady R f) :
    Steady R fun s ↦ if s.running then f s else { outcome := s.done } := by
  intro k s j h
  dsimp only
  rw [State.running_withInput]
  split
  · exact hf k s j h
  · exact done k s j h

/-- A counted loop over a steady body is steady. -/
theorem traceTimes {body : State → Traced} (hbody : Steady R body) (n : Nat) :
    Steady R (traceTimes body n) := by
  induction n with
  | zero => exact done
  | succ n ih => exact whileRunning (hbody.andThen ih)

section

variable (hR : Coupling R) {m : Machine} {allowance : Nat}

include hR

/-- A loop over a steady body is steady: its test sees the slots alone. -/
theorem traceUntil {body : State → Traced} (hbody : Steady R body) (condition : Text)
    (passes : Nat) : Steady R (traceUntil m allowance body condition passes) := by
  induction passes with
  | zero => exact fail .endless
  | succ passes ih =>
    refine hbody.andThen (whileRunning ((single hR m allowance _).andThen fun k s j h ↦ ?_))
    rw [State.store_withInput]
    rcases Condition.holds s.store condition with _ | _ | _
    · exact done k s j h
    · exact ih k s j h
    · exact done k s j h

variable {nested : List Text → State → Traced} (hnested : ∀ lines, Steady R (nested lines))

include hnested

/-- A call of a paragraph is steady, if its body is. -/
theorem traceParagraph (label : Text) (repetition : Repetition) :
    Steady R (traceParagraph m allowance nested label repetition) := by
  intro k s j h
  unfold Cobol.traceParagraph
  split
  · exact done k s j h
  · rename_i body _
    split
    · exact hnested body k s j h
    · rw [State.store_withInput]
      split
      · exact done k s j h
      · exact (hnested body).traceTimes _ k s j h
    · exact traceUntil hR (hnested body) _ _ k s j h

/-- What one statement runs is steady, if the blocks inside are. -/
theorem traceInner (following : List Text) (action : Action) :
    Steady R (traceInner m allowance nested following · action) := by
  cases action with
  | branch condition =>
    intro k s j h
    have htest := single hR m allowance (.test condition)
    dsimp only [Cobol.traceInner, State.store_withInput]
    rcases Condition.holds s.store condition with _ | _ | _
    · exact (htest.andThen (hnested _)) k s j h
    · exact (htest.andThen (hnested _)) k s j h
    · exact (htest.andThen (hnested _)) k s j h
  | choose subject =>
    intro k s j h
    have hchoice := single hR m allowance
      (.choice subject (EvaluateBlock.split following).branches)
    dsimp only [Cobol.traceInner, State.store_withInput]
    rcases Subject.ofText s.store allowance subject >>= fun found ↦
      found.1.select (EvaluateBlock.split following).branches with _ | _ | lines
    · exact (hchoice.andThen done) k s j h
    · exact (hchoice.andThen done) k s j h
    · exact (hchoice.andThen (hnested lines)) k s j h
  | perform label repetition => exact traceParagraph hR hnested label repetition
  | _ => exact done

/-- Lines are steady, if the blocks inside are. -/
theorem traceLines : ∀ lines : List Text, Steady R (traceLines m allowance nested lines)
  | [] => fun k s j h ↦ by
    rw [Cobol.traceLines, Cobol.traceLines]
    exact done k s j h
  | line :: following => fun k s j h ↦ by
    have hline : Steady R (traceStatement m allowance nested line following) :=
      (single hR m allowance _).andThen (traceInner hR hnested following _)
    have hrest := traceLines (unread line following)
    rw [Cobol.traceLines, Cobol.traceLines]
    exact whileRunning (hline.andThen hrest) k s j h
termination_by lines => lines.length
decreasing_by exact Nat.lt_succ_of_le (length_unread_le line following)

end

end Steady

/-- **Runs on coupled inputs stay in step.** -/
theorem steady_traceBlock {R : Nat → Option Input → Option Input → Prop} (hR : Coupling R)
    (m : Machine) (allowance : Nat) (lines : List Text) :
    Steady R (traceBlock m allowance lines) := by
  induction allowance generalizing lines with
  | zero => exact .fail .nesting
  | succ allowance ih => exact .traceLines hR ih lines

/-! ### What two runs in step have in common -/

/-- The state with its input shown in another way. -/
def State.mapInput (f : Option Input → Option Input) (s : State) : State :=
  s.withInput (f s.input)

/-- The moment with its input shown in another way. -/
def Moment.mapInput (f : Option Input → Option Input) (moment : Moment) : Moment :=
  { moment with state := moment.state.mapInput f }

/-- The outcome with its input shown in another way. -/
def Outcome.mapInput (f : Option Input → Option Input) (o : Outcome) : Outcome :=
  ⟨o.state.mapInput f, o.fault⟩

/-- The run with its input shown in another way, at every moment and at the end. -/
def Traced.mapInput (f : Option Input → Option Input) (x : Traced) : Traced :=
  ⟨x.moments.map (Moment.mapInput f), x.outcome.mapInput f⟩

@[simp] theorem Traced.mapInput_id (x : Traced) : x.mapInput id = x := by
  rw [mapInput, show Moment.mapInput id = id from rfl, List.map_id]
  rfl

@[simp] theorem Traced.reads_mapInput (f : Option Input → Option Input) (x : Traced) :
    (x.mapInput f).reads = x.reads := by
  rw [reads, mapInput, List.countP_map]
  rfl

section

variable {R : Nat → Option Input → Option Input → Prop} {f g : Option Input → Option Input}
  (hsame : ∀ k i j, R k i j → g j = f i)

include hsame

/-- States that differ in coupled inputs look alike, if coupled inputs do. -/
theorem State.mapInput_withInput {k : Nat} {s : State} {j : Option Input} (h : R k s.input j) :
    (s.withInput j).mapInput g = s.mapInput f := by
  rw [mapInput, mapInput, input_withInput, hsame k _ j h]
  rfl

/-- Moments in step look alike one by one, if coupled inputs do. -/
theorem Moment.map_mapInput_eq {xs ys : List Moment} (h : List.Forall₂ (Moment.InStep R) xs ys) :
    ys.map (mapInput g) = xs.map (mapInput f) := by
  induction h with
  | nil => rfl
  | cons hmoment _ ih =>
    obtain ⟨k, j, rfl, hj⟩ := hmoment
    rw [List.map_cons, List.map_cons, ih, mapInput, mapInput, State.mapInput_withInput hsame hj]

/-- Runs in step are the same run where coupled inputs are shown as the same. -/
theorem Traced.InStep.mapInput_eq {k : Nat} {x y : Traced} (h : x.InStep R k y)
    (hreads : x.reads ≤ k) : y.mapInput g = x.mapInput f := by
  obtain ⟨hmoments, j, houtcome, hj⟩ := h hreads
  rw [mapInput, Moment.map_mapInput_eq hsame hmoments, houtcome, Outcome.withInput,
    Outcome.mapInput, State.mapInput_withInput hsame hj]
  rfl

end

end Cobol
