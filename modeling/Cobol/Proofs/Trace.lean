import Cobol.Execution

/-!
# The moments of a run

A run is a sequence of moments. At a moment one thing is done in one state: a statement is executed,
a condition is tested, or the subject of a choice is evaluated and compared with the values of the
branches. What that does by itself, without the blocks that are run because of it, is `Moment.own`.

`executeBlock` returns where a block ends. `traceBlock` is the same executor with the moments
written down, so that what was done, and in which order, can be spoken of.

* `outcome_traceBlock`: writing down the moments changes nothing.
* `chained_moments`: the moments of a block form a chain (`Chained`). Each starts, in a running
  state, where the one before it has ended, and the block ends where the last one has, unless it
  meets one of the two limits there.

Laws of runs are proved by induction on the chain; the executor is opened here and nowhere behind.

## Shape decisions

* A moment holds its state. What it does is computed from it, so a chain of moments is a run by
  itself and the executor is not needed to read it.
* A condition that is tested is a moment of its own, and so is a choice that is made. Both can fail,
  and what they leave is the state as it was.
* The limits are met between moments. So a chain ends in the outcome of its last moment or, in the
  state behind it, in the fault of a limit.
-/

namespace Cobol

open Text

/-! ### Moments -/

/-- What is done at a moment. -/
inductive Deed
  /-- A statement is executed. -/
  | statement (text : Text)
  /-- A condition is tested. -/
  | test (condition : Text)
  /-- The subject of a choice is evaluated and compared with the values of the branches. -/
  | choice (subject : Text) (branches : List Branch)

/-- Something that is done, with which allowance and in which state. -/
structure Moment where
  /-- The allowance for what is nested in it. -/
  allowance : Nat
  /-- What is done. -/
  deed : Deed
  /-- The state in which it is done. -/
  state : State

/-- Ends in this state, with the fault of a computation that failed. -/
def State.check {α : Type} (s : State) : Except Fault α → Outcome
  | .error fault => s.fail fault
  | .ok _ => s.done

/-- What a `PERFORM` does before the paragraph is run: it looks up the label and reads the count. -/
def State.call (s : State) (m : Machine) (label : Text) (repetition : Repetition) : Outcome :=
  match m.paragraphs.get? (upper label) with
  | none => (s.note (.unknownParagraph (upper label))).done
  | some _ =>
    match repetition with
    | .times count => s.check (operandValue s.store count >>= Value.integer)
    | .once | .untilTrue _ => s.done

/-- What is done at a moment, by itself. -/
def Moment.own (m : Machine) (moment : Moment) : Outcome :=
  let s := moment.state
  match moment.deed with
  | .statement text =>
    match Action.ofText (trim text) with
    | .perform label repetition => s.call m label repetition
    | action => act moment.allowance (trim text) s action
  | .test condition => s.check (Condition.holds s.store condition)
  | .choice subject branches =>
    match Subject.ofText s.store moment.allowance subject with
    | .error fault => s.fail fault
    | .ok (subject, remark) => (remark.elim s s.note).check (subject.select branches)

/-! ### The executor with its moments -/

/-- An outcome, and the moments that led to it. -/
structure Traced where
  /-- The moments in order. -/
  moments : List Moment := []
  /-- The outcome. -/
  outcome : Outcome

namespace Traced

/-- One moment. -/
def single (m : Machine) (moment : Moment) : Traced :=
  ⟨[moment], moment.own m⟩

/-- Goes on behind an execution that no fault ended. -/
def andThen (x : Traced) (next : State → Traced) : Traced :=
  match x.outcome.fault with
  | none =>
    ⟨x.moments ++ (next x.outcome.state).moments, (next x.outcome.state).outcome⟩
  | some _ => x

/-- The outcome of traces behind each other is that of their outcomes behind each other. -/
@[simp] theorem outcome_andThen (x : Traced) (next : State → Traced) :
    (x.andThen next).outcome = x.outcome.andThen fun s ↦ (next s).outcome := by
  unfold andThen Outcome.andThen
  cases x.outcome.fault <;> rfl

end Traced

/-- `repeatTimes` with its moments. -/
def traceTimes (body : State → Traced) : Nat → State → Traced
  | 0, s => { outcome := s.done }
  | n + 1, s => if s.running then (body s).andThen (traceTimes body n) else { outcome := s.done }

section

variable (m : Machine) (allowance : Nat)

/-- `repeatUntil` with its moments. -/
def traceUntil (body : State → Traced) (condition : Text) : Nat → State → Traced
  | 0, s => { outcome := s.fail .endless }
  | passes + 1, s =>
    (body s).andThen fun s ↦
      if s.running then
        (Traced.single m ⟨allowance, .test condition, s⟩).andThen fun s ↦
          match Condition.holds s.store condition with
          | .ok false => traceUntil body condition passes s
          | _ => { outcome := s.done }
      else { outcome := s.done }

variable (nested : List Text → State → Traced)

/-- The paragraph of a label with its moments. -/
def traceParagraph (label : Text) (repetition : Repetition) (s : State) : Traced :=
  match m.paragraphs.get? (upper label) with
  -- an unknown label and a count that cannot be read belong to the call
  | none => { outcome := s.done }
  | some body =>
    match repetition with
    | .once => nested body s
    | .times count =>
      match operandValue s.store count >>= Value.integer with
      | .error _ => { outcome := s.done }
      | .ok n => traceTimes (nested body) n.toNat s
    | .untilTrue condition => traceUntil m allowance (nested body) condition m.passes s

/-- What an action runs behind its statement, with its moments. -/
def traceInner (following : List Text) (s : State) : Action → Traced
  | .branch condition =>
    (Traced.single m ⟨allowance, .test condition, s⟩).andThen fun t ↦
      match Condition.holds s.store condition with
      | .ok true => nested (IfBlock.split following).whenTrue t
      | _ => nested (IfBlock.split following).whenFalse t
  | .choose subject =>
    let branches := (EvaluateBlock.split following).branches
    (Traced.single m ⟨allowance, .choice subject branches, s⟩).andThen fun t ↦
      match Subject.ofText s.store allowance subject >>= fun found ↦ found.1.select branches with
      | .ok (some lines) => nested lines t
      | _ => { outcome := t.done }
  | .perform label repetition => traceParagraph m allowance nested label repetition s
  | _ => { outcome := s.done }

/-- One statement with its moments. -/
def traceStatement (line : Text) (following : List Text) (s : State) : Traced :=
  (Traced.single m ⟨allowance, .statement line, s⟩).andThen fun t ↦
    traceInner m allowance nested following t (Action.ofText (trim line))

/-- `executeLines` with its moments. -/
def traceLines (lines : List Text) (s : State) : Traced :=
  match lines with
  | [] => { outcome := s.done }
  | line :: following =>
    if s.running then
      (traceStatement m allowance nested line following s).andThen
        (traceLines (unread line following))
    else { outcome := s.done }
termination_by lines.length
decreasing_by exact Nat.lt_succ_of_le (length_unread_le line following)

end

/-- `executeBlock` with its moments. -/
def traceBlock (m : Machine) : Nat → List Text → State → Traced
  | 0 => fun _ s ↦ { outcome := s.fail .nesting }
  | allowance + 1 => traceLines m allowance (traceBlock m allowance)

/-- What is done in a block, at any depth, in order. -/
def moments (m : Machine) (allowance : Nat) (lines : List Text) (s : State) : List Moment :=
  (traceBlock m allowance lines s).moments

/-! ### The moments change nothing -/

/-- What follows on a computation with the slots follows unless it fails. -/
@[simp] theorem State.andThen_check {α : Type} (s : State) (x : Except Fault α)
    (next : State → Outcome) :
    (s.check x).andThen next =
      match x with
      | .error fault => s.fail fault
      | .ok _ => next s := by
  cases x <;> rfl

/-- A computation with the slots leaves the state. -/
@[simp] theorem State.state_check {α : Type} (s : State) (x : Except Fault α) :
    (s.check x).state = s := by
  cases x <;> rfl

@[simp] theorem Outcome.andThen_done (o : Outcome) : o.andThen State.done = o := by
  obtain ⟨s, fault⟩ := o
  cases fault <;> rfl

@[simp] theorem State.done_andThen (s : State) (next : State → Outcome) :
    s.done.andThen next = next s := rfl

/-- An outcome without a fault is its state. -/
theorem Outcome.eq_done {o : Outcome} (h : o.fault = none) : o = o.state.done := by
  rw [State.done, ← h]

/-- What follows on an outcome without a fault starts from its state. -/
theorem Outcome.andThen_of_none {o : Outcome} (h : o.fault = none) (next : State → Outcome) :
    o.andThen next = next o.state := by
  rw [Outcome.eq_done h]
  rfl

/-- Writing down the moments of a counted loop changes nothing. -/
theorem outcome_traceTimes (body : State → Traced) (n : Nat) (s : State) :
    (traceTimes body n s).outcome = repeatTimes (fun s ↦ (body s).outcome) n s := by
  induction n generalizing s with
  | zero => rfl
  | succ n ih =>
    rw [traceTimes, repeatTimes]
    split
    · rw [Traced.outcome_andThen]
      exact congrArg _ (funext ih)
    · rfl

section

variable {m : Machine} {allowance : Nat}

/-- Writing down the moments of a loop changes nothing, its tests included. -/
theorem outcome_traceUntil (body : State → Traced) (condition : Text) (passes : Nat) (s : State) :
    (traceUntil m allowance body condition passes s).outcome =
      repeatUntil (fun s ↦ (body s).outcome) (fun s ↦ Condition.holds s.store condition) passes
        s := by
  induction passes generalizing s with
  | zero => rfl
  | succ passes ih =>
    rw [traceUntil, repeatUntil, Traced.outcome_andThen]
    refine congrArg _ (funext fun t ↦ ?_)
    split
    · rw [Traced.outcome_andThen]
      show (t.check (Condition.holds t.store condition)).andThen _ = _
      rw [State.andThen_check]
      cases Condition.holds t.store condition with
      | error fault => rfl
      | ok found =>
        cases found with
        | true => rfl
        | false => exact ih t
    · rfl

variable {nested : List Text → State → Traced}

/-- A `PERFORM` is its call and then its paragraph. -/
theorem outcome_traceParagraph (label : Text) (repetition : Repetition) (s : State) :
    (s.call m label repetition).andThen
        (fun t ↦ (traceParagraph m allowance nested label repetition t).outcome) =
      runParagraph m (fun lines s ↦ (nested lines s).outcome) label repetition s := by
  unfold State.call traceParagraph runParagraph
  cases m.paragraphs.get? (upper label) with
  | none => rfl
  | some body =>
    cases repetition with
    | once => rfl
    | times count =>
      dsimp only
      rw [State.andThen_check]
      cases operandValue s.store count >>= Value.integer with
      | error fault => rfl
      | ok n => exact outcome_traceTimes (nested body) n.toNat s
    | untilTrue condition => exact outcome_traceUntil (nested body) condition m.passes s

/-- Writing down the moments of a statement changes nothing. -/
theorem outcome_traceStatement (line : Text) (following : List Text) (s : State) :
    (traceStatement m allowance nested line following s).outcome =
      execute m allowance (fun lines s ↦ (nested lines s).outcome) line following s := by
  rw [traceStatement, Traced.outcome_andThen, Traced.single, Moment.own, execute]
  dsimp only
  cases haction : Action.ofText (trim line) with
  | perform label repetition => exact outcome_traceParagraph label repetition s
  | branch condition =>
    dsimp only [act, traceInner, perform]
    rw [State.done_andThen, Traced.outcome_andThen]
    show (s.check (Condition.holds s.store condition)).andThen _ = _
    rw [State.andThen_check]
    cases Condition.holds s.store condition with
    | error fault => rfl
    | ok found => cases found <;> rfl
  | choose subject =>
    dsimp only [act, traceInner, perform]
    rw [State.done_andThen, Traced.outcome_andThen, Traced.single, Moment.own]
    dsimp only
    cases Subject.ofText s.store allowance subject with
    | error fault => rfl
    | ok found =>
      obtain ⟨subject, remark⟩ := found
      dsimp only [bind, Except.bind]
      rw [State.andThen_check]
      cases subject.select (EvaluateBlock.split following).branches with
      | error fault => rfl
      | ok lines => cases lines <;> rfl
  | _ => exact Outcome.andThen_done _

/-- Writing down the moments of lines changes nothing. -/
theorem outcome_traceLines : ∀ (lines : List Text) (s : State),
    (traceLines m allowance nested lines s).outcome =
      executeLines m allowance (fun lines s ↦ (nested lines s).outcome) lines s
  | [], s => by rw [traceLines, executeLines]
  | line :: following, s => by
    rw [traceLines, executeLines]
    split
    · rw [Traced.outcome_andThen, outcome_traceStatement]
      exact congrArg _ (funext (outcome_traceLines (unread line following)))
    · rfl
termination_by lines => lines.length
decreasing_by exact Nat.lt_succ_of_le (length_unread_le line following)

end

/-- **Writing down the moments changes nothing.** -/
theorem outcome_traceBlock (m : Machine) (allowance : Nat) (lines : List Text) (s : State) :
    (traceBlock m allowance lines s).outcome = executeBlock m allowance lines s := by
  induction allowance generalizing lines s with
  | zero => rfl
  | succ allowance ih =>
    rw [traceBlock, executeBlock, outcome_traceLines]
    congr 1
    exact funext fun lines ↦ funext fun s ↦ ih lines s

/-! ### The run flag and the input at a moment -/

/-- The run flag and the input are as they were. -/
structure State.KeepsControl (s t : State) : Prop where
  /-- The run flag. -/
  running : t.running = s.running
  /-- The input. -/
  input : t.input = s.input

/-- A write neither stops a run nor reads. -/
theorem State.keepsControl_write (s : State) (name : Text) (v : Value) :
    s.KeepsControl (s.write name v).state := by
  unfold State.write
  split <;> exact ⟨rfl, rfl⟩

/-- An arithmetic statement neither stops a run nor reads, also where it would divide by zero. -/
theorem State.keepsControl_combine (s : State) (operation : Operation) (amount : Int)
    (target : Text) : s.KeepsControl (s.combine operation amount target).state := by
  unfold State.combine
  dsimp only
  split
  · exact ⟨rfl, rfl⟩
  · exact s.keepsControl_write target _

/-- Writes to several slots neither stop a run nor read. -/
theorem State.keepsControl_writeAll (v : Value) (names : List Text) (s : State) :
    s.KeepsControl (State.writeAll v names s).state := by
  induction names generalizing s with
  | nil => exact ⟨rfl, rfl⟩
  | cons name rest ih =>
    have hfirst := s.keepsControl_write name v
    rw [State.writeAll, Outcome.andThen]
    split
    · have hrest := ih (s.write name v).state
      exact ⟨hrest.running.trans hfirst.running, hrest.input.trans hfirst.input⟩
    · exact hfirst

/-- `ACCEPT` does not stop a run. -/
theorem State.running_acceptLine (s : State) (target : Text) :
    (s.acceptLine target).state.running = s.running := by
  unfold State.acceptLine
  split
  · rfl
  · split
    · rfl
    · rfl
    · dsimp only
      split
      · split
        · rfl
        · exact (keepsControl_write _ target _).running
      · exact (keepsControl_write _ target _).running

/-- A call does not stop a run by itself. -/
theorem State.running_call (s : State) (m : Machine) (label : Text)
    (repetition : Repetition) : (s.call m label repetition).state.running = s.running := by
  unfold State.call
  split
  · rfl
  · split
    · rw [state_check]
    all_goals rfl

/-- Most actions touch neither the run flag nor the input. -/
theorem keepsControl_act {action : Action} (hstop : action ≠ .stop)
    (haccept : ∀ target, action ≠ .accept target) (allowance : Nat) (statement : Text) (s : State) :
    s.KeepsControl (act allowance statement s action).state := by
  cases action with
  | move source targets =>
    -- a failing action keeps the control too: its slots may have changed, nothing else has
    rw [act]
    split
    · exact ⟨rfl, rfl⟩
    · exact State.keepsControl_writeAll _ targets s
  | compute target expression =>
    rw [act]
    split
    · exact ⟨rfl, rfl⟩
    · exact ⟨rfl, rfl⟩
    · exact s.keepsControl_write target _
  | arithmetic operation operand target =>
    rw [act]
    split
    · split
      · exact ⟨rfl, rfl⟩
      · exact s.keepsControl_combine operation _ target
    · exact ⟨rfl, rfl⟩
  | display operands =>
    rw [act]
    split <;> exact ⟨rfl, rfl⟩
  | accept target => exact absurd rfl (haccept target)
  | stop => exact absurd rfl hstop
  | _ => exact ⟨rfl, rfl⟩

/-- Only `STOP RUN` and `GOBACK` touch the run flag. -/
theorem running_act {action : Action} (h : action ≠ .stop) (allowance : Nat) (statement : Text)
    (s : State) : (act allowance statement s action).state.running = s.running := by
  by_cases haccept : ∃ target, action = .accept target
  · obtain ⟨target, rfl⟩ := haccept
    exact State.running_acceptLine s target
  · exact (keepsControl_act h (not_exists.1 haccept) allowance statement s).running

/-- Only `ACCEPT` touches the input. -/
theorem input_act {action : Action} (h : ∀ target, action ≠ .accept target) (allowance : Nat)
    (statement : Text) (s : State) : (act allowance statement s action).state.input = s.input := by
  by_cases hstop : action = .stop
  · rw [hstop]
    rfl
  · exact (keepsControl_act hstop h allowance statement s).input

/-- The statement stops the run. -/
def Moment.Stops (moment : Moment) : Prop :=
  ∃ text, moment.deed = .statement text ∧ Action.ofText (trim text) = .stop

/-- **Nothing but a stop stops a run.** -/
theorem Moment.running_own {m : Machine} {moment : Moment} (h : ¬moment.Stops) :
    (moment.own m).state.running = moment.state.running := by
  obtain ⟨allowance, deed, s⟩ := moment
  cases deed with
  | statement text =>
    have hstop : Action.ofText (trim text) ≠ .stop := fun hstop ↦ h ⟨text, rfl, hstop⟩
    unfold own
    dsimp only
    split
    · exact State.running_call s m _ _
    · exact running_act hstop allowance _ s
  | test condition =>
    unfold own
    rw [State.state_check]
  | choice subject branches =>
    unfold own
    dsimp only
    split
    · rfl
    · rename_i remark _
      rw [State.state_check]
      cases remark <;> rfl

/-! ### The moments form a chain -/

/-- The moments lead from a state to an outcome: each of them starts, in a running state, where the
one before it has ended. -/
inductive Chained (m : Machine) : State → List Moment → Outcome → Prop
  /-- Nothing more is done. -/
  | done (s : State) : Chained m s [] s.done
  /-- A limit is met. -/
  | limit {s : State} {fault : Fault} (hs : s.running = true)
      (hfault : fault = .nesting ∨ fault = .endless) : Chained m s [] (s.fail fault)
  /-- What is done fails. -/
  | fault {moment : Moment} {fault : Fault} (hs : moment.state.running = true)
      (hfault : (moment.own m).fault = some fault) :
      Chained m moment.state [moment] (moment.own m)
  /-- What is done succeeds, and the rest starts where it ends. -/
  | step {moment : Moment} {rest : List Moment} {o : Outcome} (hs : moment.state.running = true)
      (hfault : (moment.own m).fault = none) (hrest : Chained m (moment.own m).state rest o) :
      Chained m moment.state (moment :: rest) o

/-- Chains can be joined where the first ended without a fault. -/
theorem Chained.append {m : Machine} {s : State} {xs ys : List Moment} {o o' : Outcome}
    (hxs : Chained m s xs o) (ho : o.fault = none) (hys : Chained m o.state ys o') :
    Chained m s (xs ++ ys) o' := by
  induction hxs with
  | done s => exact hys
  | limit => cases ho
  | fault hs hfault =>
    rw [hfault] at ho
    cases ho
  | step hs hfault _ ih => exact .step hs hfault (ih ho hys)

/-- The moments lead to the outcome. -/
def Traced.IsChain (x : Traced) (m : Machine) (s : State) : Prop :=
  Chained m s x.moments x.outcome

namespace Traced.IsChain

variable {m : Machine} {allowance : Nat}

/-- Traces behind each other form a chain. -/
theorem andThen {s : State} {x : Traced} {next : State → Traced} (hx : x.IsChain m s)
    (hnext : (next x.outcome.state).IsChain m x.outcome.state) : (x.andThen next).IsChain m s := by
  unfold Traced.andThen
  cases hfault : x.outcome.fault with
  | none => exact hx.append hfault hnext
  | some fault => exact hx

/-- A moment in a running state is a chain. -/
theorem single {moment : Moment} (hs : moment.state.running = true) :
    (Traced.single m moment).IsChain m moment.state := by
  unfold IsChain Traced.single
  cases hown : moment.own m with
  | mk t fault =>
    cases fault with
    | some fault =>
      rw [← hown]
      exact .fault hs (by rw [hown])
    | none =>
      refine .step hs (by rw [hown]) ?_
      rw [hown]
      exact .done t

/-- What follows a moment that does not stop the run starts in a running state. -/
theorem andThen_single {moment : Moment} {next : State → Traced}
    (hs : moment.state.running = true) (hgoes : ¬moment.Stops)
    (hnext : ∀ t, t.running = true → (next t).IsChain m t) :
    ((Traced.single m moment).andThen next).IsChain m moment.state :=
  (single hs).andThen (hnext _ ((Moment.running_own hgoes).trans hs))

section

variable {body : State → Traced} (hbody : ∀ s, s.running = true → (body s).IsChain m s)

include hbody

/-- The moments of a counted loop form a chain: a pass starts only in a running state. -/
theorem traceTimes (n : Nat) (s : State) : (traceTimes body n s).IsChain m s := by
  induction n generalizing s with
  | zero => exact Chained.done s
  | succ n ih =>
    rw [Cobol.traceTimes]
    split
    · exact (hbody s ‹_›).andThen (ih _)
    · exact Chained.done s

/-- The moments of a loop form a chain, its tests between the passes. -/
theorem traceUntil (condition : Text) (passes : Nat) {s : State} (hs : s.running = true) :
    (traceUntil m allowance body condition passes s).IsChain m s := by
  induction passes generalizing s with
  | zero => exact Chained.limit hs (Or.inr rfl)
  | succ passes ih =>
    rw [Cobol.traceUntil]
    refine (hbody s hs).andThen ?_
    split
    · rename_i ht
      refine andThen_single ht nofun fun u hu ↦ ?_
      split
      · exact ih hu
      · exact Chained.done _
    · exact Chained.done _

end

variable {nested : List Text → State → Traced}
  (hnested : ∀ lines s, s.running = true → (nested lines s).IsChain m s)

include hnested

/-- The moments of a call form a chain. -/
theorem traceParagraph (label : Text) (repetition : Repetition) {s : State}
    (hs : s.running = true) :
    (traceParagraph m allowance nested label repetition s).IsChain m s := by
  unfold Cobol.traceParagraph
  split
  · exact Chained.done s
  · rename_i body _
    split
    · exact hnested body s hs
    · split
      · exact Chained.done s
      · exact traceTimes (hnested body) _ s
    · exact traceUntil (hnested body) _ _ hs

/-- The moments of what a statement runs form a chain. -/
theorem traceInner (following : List Text) {s : State} (hs : s.running = true) (action : Action) :
    (traceInner m allowance nested following s action).IsChain m s := by
  cases action with
  | branch condition =>
    rw [Cobol.traceInner]
    refine andThen_single hs nofun fun t ht ↦ ?_
    split <;> exact hnested _ t ht
  | choose subject =>
    rw [Cobol.traceInner]
    refine andThen_single hs nofun fun t ht ↦ ?_
    split
    · exact hnested _ t ht
    · exact Chained.done t
  | perform label repetition => exact traceParagraph hnested label repetition hs
  | _ => exact Chained.done s

/-- A statement and what it runs form a chain, with the statement in front. -/
theorem traceStatement (line : Text) (following : List Text) {s : State} (hs : s.running = true) :
    (traceStatement m allowance nested line following s).IsChain m s := by
  -- behind a stop nothing is run, and every other statement leaves a running state
  by_cases hstop : Action.ofText (trim line) = .stop
  · refine (single hs).andThen ?_
    rw [hstop]
    exact Chained.done _
  · refine andThen_single hs ?_ fun t ht ↦ traceInner hnested following ht _
    rintro ⟨text, ⟨⟩, h⟩
    exact hstop h

/-- The moments of lines form a chain: a line is executed only in a running state. -/
theorem traceLines : ∀ (lines : List Text) (s : State),
    (traceLines m allowance nested lines s).IsChain m s
  | [], s => by
    rw [Cobol.traceLines]
    exact Chained.done s
  | line :: following, s => by
    rw [Cobol.traceLines]
    split
    · exact (traceStatement hnested line following ‹_›).andThen (traceLines _ _)
    · exact Chained.done s
termination_by lines => lines.length
decreasing_by exact Nat.lt_succ_of_le (length_unread_le line following)

end Traced.IsChain

/-- **The moments of a block form a chain** from its start to its outcome. -/
theorem chained_moments (m : Machine) (allowance : Nat) (lines : List Text) {s : State}
    (hs : s.running = true) :
    Chained m s (moments m allowance lines s) (executeBlock m allowance lines s) := by
  rw [← outcome_traceBlock]
  induction allowance generalizing lines s with
  | zero => exact Chained.limit hs (Or.inl rfl)
  | succ allowance ih => exact Traced.IsChain.traceLines (fun lines s hs ↦ ih lines hs) lines s

end Cobol
