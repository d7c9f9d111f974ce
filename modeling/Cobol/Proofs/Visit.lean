import Cobol.Proofs.Store
import Cobol.Execution

/-!
# What a run passes through

`executeBlock` only returns where a block ends. This module lists where it has been: `visits` has an
entry for every statement that is executed, at any depth, with the state in which it starts and the
lines behind it, in the order of execution. The state in which the statement ends, or fails, is a
function of the entry (`Visit.after`).

* `calls` are the blocks that one statement runs, with the states in which they start. It is the
  only place where the three kinds of nesting and the two kinds of loop differ.
* A relation between states is `Respected` if it is reflexive and transitive and holds across every
  action that runs no other statements. It then holds across every block, finished or not
  (`Respected.executeBlock`), and from the start of a block to every state that is visited in it
  (`Respected.before_visits`).

## Shape decisions

* A visit records where a statement starts. Where it ends is computed from that and not recorded, so
  the two cannot disagree.
* A property of the state is carried through a run as a relation between two states, not as a
  property of one. A relation can say that something has not changed, or has only grown, and
  whatever is kept by every action follows from it at the start.
* The lemmas under `Respected` come in pairs, one across the execution and one to the points inside
  it, and each pair follows one recursion of the executor.
-/

namespace Cobol

open Text

/-! ### Visits -/

/-- A statement that is executed: with which allowance, before which lines and in which state. -/
structure Visit where
  /-- The allowance for the blocks inside the statement. -/
  allowance : Nat
  /-- The statement. -/
  statement : Text
  /-- The lines behind it. -/
  following : List Text
  /-- The state in which it starts. -/
  before : State

/-- Where the statement ends, or fails. -/
def Visit.after (m : Machine) (v : Visit) : Outcome :=
  execute m v.allowance (executeBlock m v.allowance) v.statement v.following v.before

/-- What is listed behind an execution that no fault ended. -/
def Outcome.whenDone {α : Type} (o : Outcome) (next : State → List α) : List α :=
  match o.fault with
  | none => next o.state
  | some _ => []

/-- The states in which the passes of `repeatTimes` start. -/
def timesStarts (body : State → Outcome) : Nat → State → List State
  | 0, _ => []
  | n + 1, s => if s.running then s :: (body s).whenDone (timesStarts body n) else []

/-- The states in which the passes of `repeatUntil` start. -/
def untilStarts (body : State → Outcome) (test : State → Except Fault Bool) :
    Nat → State → List State
  | 0, _ => []
  | passes + 1, s =>
    s :: (body s).whenDone fun s ↦
      if s.running then
        match test s with
        | .ok false => untilStarts body test passes s
        | _ => []
      else []

/-- The states in which the passes of a paragraph start. -/
def paragraphStarts (body : State → Outcome) (passes : Nat) (repetition : Repetition) (s : State) :
    List State :=
  match repetition with
  | .once => [s]
  | .times count =>
    match operandValue s.store count >>= Value.integer with
    | .error _ => []
    | .ok n => timesStarts body n.toNat s
  | .untilTrue condition => untilStarts body (fun s ↦ Condition.holds s.store condition) passes s

section

variable (m : Machine) (allowance : Nat) (nested : List Text → State → Outcome)

/-- The blocks that an action runs, with the states in which they start. -/
def calls (following : List Text) (s : State) : Action → List (List Text × State)
  | .branch condition =>
    match Condition.holds s.store condition with
    | .error _ => []
    | .ok true => [((IfBlock.split following).whenTrue, s)]
    | .ok false => [((IfBlock.split following).whenFalse, s)]
  | .choose subject =>
    match Subject.ofText s.store allowance subject with
    | .error _ => []
    | .ok (subject, remark) =>
      match subject.select (EvaluateBlock.split following).branches with
      | .ok (some lines) => [(lines, remark.elim s s.note)]
      | _ => []
  | .perform label repetition =>
    match m.paragraphs.get? (upper label) with
    | none => []
    | some body =>
      (paragraphStarts (nested body) m.passes repetition s).map fun start ↦ (body, start)
  | _ => []

/-- The statements that are executed in a block, with a function for nested blocks. -/
def visitsLines (inner : List Text → State → List Visit) (lines : List Text) (s : State) :
    List Visit :=
  match lines with
  | [] => []
  | line :: following =>
    if s.running then
      ⟨allowance, line, following, s⟩ ::
        ((calls m allowance nested following s (Action.ofText (trim line))).flatMap fun call ↦
          inner call.1 call.2) ++
        (execute m allowance nested line following s).whenDone
          (visitsLines inner (unread line following))
    else []
termination_by lines.length
decreasing_by exact Nat.lt_succ_of_le (length_unread_le line following)

end

/-- The statements that are executed in a block, at any depth, in order. -/
def visits (m : Machine) : Nat → List Text → State → List Visit
  | 0 => fun _ _ ↦ []
  | allowance + 1 => visitsLines m allowance (executeBlock m allowance) (visits m allowance)

/-! ### Relations along a run -/

/-- A relation that holds across everything that runs no other statements. -/
structure Respected (R : State → State → Prop) : Prop where
  /-- It is reflexive. -/
  refl : ∀ s, R s s
  /-- It is transitive. -/
  trans : ∀ {s t u}, R s t → R t u → R s u
  /-- A note does not matter. -/
  note : ∀ s n, R s (s.note n)
  /-- It holds across an action, also one that fails. -/
  act : ∀ allowance statement s action, R s (act allowance statement s action).state

namespace Respected

variable {R : State → State → Prop} (hR : Respected R)

include hR

/-- Across two executions behind each other, also if the first one fails. -/
theorem andThen {s : State} {o : Outcome} {next : State → Outcome} (ho : R s o.state)
    (hnext : ∀ t, R t (next t).state) : R s (o.andThen next).state := by
  obtain ⟨t, fault⟩ := o
  cases fault with
  | none => exact hR.trans ho (hnext t)
  | some fault => exact ho

theorem noted (s : State) (remark : Option Note) : R s (remark.elim s s.note) := by
  cases remark with
  | none => exact hR.refl s
  | some n => exact hR.note s n

/-- To what is listed behind an execution: it is listed only if no fault ended the execution. -/
theorem mem_whenDone {α : Type} {s : State} {o : Outcome} {next : State → List α} {a : α}
    (point : α → State) (ho : R s o.state) (ha : a ∈ o.whenDone next)
    (hnext : ∀ t, a ∈ next t → R t (point a)) : R s (point a) := by
  obtain ⟨t, fault⟩ := o
  cases fault with
  | none => exact hR.trans ho (hnext t ha)
  | some fault => cases ha

section

variable {body : State → Outcome} (hbody : ∀ s, R s (body s).state)

include hbody

/-- Across a counted loop. -/
theorem repeatTimes (n : Nat) (s : State) : R s (repeatTimes body n s).state := by
  induction n generalizing s with
  | zero => exact hR.refl s
  | succ n ih =>
    rw [Cobol.repeatTimes]
    split
    · exact hR.andThen (hbody s) ih
    · exact hR.refl s

/-- To the start of every pass of a counted loop. -/
theorem mem_timesStarts {n : Nat} {s t : State} (ht : t ∈ timesStarts body n s) : R s t := by
  induction n generalizing s with
  | zero => cases ht
  | succ n ih =>
    rw [timesStarts] at ht
    split at ht
    · rcases List.mem_cons.1 ht with rfl | ht
      · exact hR.refl t
      · exact hR.mem_whenDone id (hbody s) ht fun u hu ↦ ih hu
    · cases ht

/-- Across a loop with a condition, also one that runs out of passes. -/
theorem repeatUntil (test : State → Except Fault Bool) (passes : Nat) (s : State) :
    R s (repeatUntil body test passes s).state := by
  induction passes generalizing s with
  | zero => exact hR.refl s
  | succ passes ih =>
    rw [Cobol.repeatUntil]
    refine hR.andThen (hbody s) fun t ↦ ?_
    split
    · split
      · exact hR.refl t
      · exact hR.refl t
      · exact ih t
    · exact hR.refl t

/-- To the start of every pass of a loop with a condition. -/
theorem mem_untilStarts {test : State → Except Fault Bool} {passes : Nat} {s t : State}
    (ht : t ∈ untilStarts body test passes s) : R s t := by
  induction passes generalizing s with
  | zero => cases ht
  | succ passes ih =>
    rw [untilStarts] at ht
    rcases List.mem_cons.1 ht with rfl | ht
    · exact hR.refl t
    · refine hR.mem_whenDone id (hbody s) ht fun u hu ↦ ?_
      split at hu
      · split at hu
        · exact ih hu
        · cases hu
      · cases hu

/-- To the start of every pass of a paragraph. -/
theorem mem_paragraphStarts {passes : Nat} {repetition : Repetition} {s t : State}
    (ht : t ∈ paragraphStarts body passes repetition s) : R s t := by
  cases repetition with
  | once =>
    rw [List.mem_singleton.1 ht]
    exact hR.refl s
  | times count =>
    rw [paragraphStarts] at ht
    split at ht
    · cases ht
    · exact hR.mem_timesStarts hbody ht
  | untilTrue condition => exact hR.mem_untilStarts hbody ht

end

section

variable {m : Machine} {allowance : Nat} {nested : List Text → State → Outcome}
  (hnested : ∀ lines s, R s (nested lines s).state)

include hnested

/-- Across a call, also one of a label that is not there. -/
theorem runParagraph (label : Text) (repetition : Repetition) (s : State) :
    R s (runParagraph m nested label repetition s).state := by
  unfold Cobol.runParagraph
  split
  · exact hR.note s _
  · rename_i body _
    split
    · exact hnested body s
    · split
      · exact hR.refl s
      · exact hR.repeatTimes (hnested body) _ s
    · exact hR.repeatUntil (hnested body) _ _ s

/-- Across an action with the blocks that it runs. -/
theorem perform (statement : Text) (following : List Text) (s : State) (action : Action) :
    R s (perform m allowance nested statement following s action).state := by
  cases action with
  | branch condition =>
    rw [Cobol.perform]
    split
    · exact hR.refl s
    · exact hnested _ s
    · exact hnested _ s
  | choose subject =>
    rw [Cobol.perform]
    split
    · exact hR.refl s
    · rename_i subject remark _
      have hremark := hR.noted s remark
      dsimp only
      split
      · exact hremark
      · exact hremark
      · exact hR.trans hremark (hnested _ _)
  | perform label repetition => exact hR.runParagraph hnested label repetition s
  | _ => exact hR.act allowance statement s _

theorem execute (statement : Text) (following : List Text) (s : State) :
    R s (execute m allowance nested statement following s).state :=
  hR.perform hnested _ following s _

/-- To the start of every block that an action runs. -/
theorem mem_calls {following : List Text} {s : State} {action : Action}
    {call : List Text × State} (hcall : call ∈ calls m allowance nested following s action) :
    R s call.2 := by
  cases action with
  | branch condition =>
    rw [calls] at hcall
    split at hcall
    · cases hcall
    · rw [List.mem_singleton.1 hcall]
      exact hR.refl s
    · rw [List.mem_singleton.1 hcall]
      exact hR.refl s
  | choose subject =>
    -- the remark on the subject is noted before the branch starts
    rw [calls] at hcall
    split at hcall
    · cases hcall
    · split at hcall
      · rw [List.mem_singleton.1 hcall]
        exact hR.noted s _
      · cases hcall
  | perform label repetition =>
    rw [calls] at hcall
    split at hcall
    · cases hcall
    · rename_i body _
      obtain ⟨start, hstart, rfl⟩ := List.mem_map.1 hcall
      exact hR.mem_paragraphStarts (hnested body) hstart
  | _ => cases hcall

/-- Across lines behind each other. -/
theorem executeLines : ∀ (lines : List Text) (s : State),
    R s (executeLines m allowance nested lines s).state
  | [], s => by
    rw [Cobol.executeLines]
    exact hR.refl s
  | line :: following, s => by
    rw [Cobol.executeLines]
    split
    · exact hR.andThen (hR.execute hnested line following s)
        (executeLines (unread line following))
    · exact hR.refl s
-- behind a block the executor goes on with fewer lines, not with the tail of the list
termination_by lines => lines.length
decreasing_by exact Nat.lt_succ_of_le (length_unread_le line following)

/-- To every statement in lines behind each other, if it holds to those in the blocks that they run.
-/
theorem before_visitsLines {inner : List Text → State → List Visit}
    (hinner : ∀ lines s, ∀ v ∈ inner lines s, R s v.before) :
    ∀ (lines : List Text) (s : State), ∀ v ∈ visitsLines m allowance nested inner lines s,
      R s v.before
  | [], s, v, hv => by
    rw [visitsLines] at hv
    cases hv
  | line :: following, s, v, hv => by
    rw [visitsLines] at hv
    split at hv
    · rcases List.mem_append.1 hv with hv | hv
      · rcases List.mem_cons.1 hv with rfl | hv
        · exact hR.refl s
        · obtain ⟨call, hcall, hv⟩ := List.mem_flatMap.1 hv
          exact hR.trans (hR.mem_calls hnested hcall) (hinner call.1 call.2 v hv)
      · exact hR.mem_whenDone Visit.before (hR.execute hnested line following s) hv fun t ht ↦
          before_visitsLines hinner (unread line following) t v ht
    · cases hv
termination_by lines => lines.length
decreasing_by exact Nat.lt_succ_of_le (length_unread_le line following)

end

/-- **Across a block**, whether it finishes or fails. -/
theorem executeBlock (m : Machine) (allowance : Nat) (lines : List Text) (s : State) :
    R s (executeBlock m allowance lines s).state := by
  induction allowance generalizing lines s with
  | zero => exact hR.refl s
  | succ allowance ih => exact hR.executeLines ih lines s

/-- **From the start of a block to every statement in it**, at any depth. -/
theorem before_visits (m : Machine) (allowance : Nat) (lines : List Text) (s : State) :
    ∀ v ∈ visits m allowance lines s, R s v.before := by
  induction allowance generalizing lines s with
  | zero => exact nofun
  | succ allowance ih => exact hR.before_visitsLines (hR.executeBlock m allowance) ih lines s

/-- **From the start of a block to the end of every statement in it**, also of one that fails. -/
theorem after_visits (m : Machine) (allowance : Nat) (lines : List Text) (s : State) :
    ∀ v ∈ visits m allowance lines s, R s (v.after m).state := fun v hv ↦
  hR.trans (hR.before_visits m allowance lines s v hv)
    (hR.execute (hR.executeBlock m v.allowance) v.statement v.following v.before)

end Respected

end Cobol
