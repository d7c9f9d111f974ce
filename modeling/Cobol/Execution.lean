import Cobol.Condition
import Cobol.Input
import Cobol.Note
import Cobol.Program
import Cobol.Statement

/-!
# Execution

Blocks of lines are executed statement by statement against a state. `IF` and `EVALUATE` run parts
of the lines that follow them, `PERFORM` and `GO TO` run paragraphs, and a cleared run flag ends
every block and loop that is active.

## Shape decisions

* The parts of the state that a program can change form `State`; what it cannot change, the
  paragraphs and the limit on the passes of a loop, forms `Machine`.
* `act` does everything that runs no other statements; `perform` adds the three actions that do.
* An `Outcome` always has a state, also when a fault ended the execution: it holds what was done
  before.
* `execute` runs one statement with a function for nested blocks, `executeLines` a block with the
  same function, and `executeBlock` ties the knot by an allowance for nesting. Parentheses of
  expressions draw on the same allowance.
* How many lines a statement takes from those behind it does not depend on the state (`unread`), so
  `executeLines` recurses on their number.
* Notes are collected in `journal`, which nothing reads.
-/

namespace Cobol

open Text

/-! ### States and outcomes -/

/-- What a program can change. -/
structure State where
  /-- The slots. -/
  store : Store := {}
  /-- The lines written, in order. -/
  output : Array Text := #[]
  /-- Where `ACCEPT` reads from, if anywhere. -/
  input : Option Input := none
  /-- The run has not been stopped. -/
  running : Bool := true
  /-- The notes taken, in order. -/
  journal : Array Note := #[]

/-- What a program cannot change, with paragraphs whose bodies are of the type `Body`. -/
structure MachineOf (Body : Type) where
  /-- The bodies of the paragraphs by label. -/
  paragraphs : Table Body := {}
  /-- The greatest number of passes of a conditional loop. -/
  passes : Nat

/-- A machine whose paragraphs are lines. -/
abbrev Machine := MachineOf (List Text)

/-- The state behind an execution, and the fault that ended it early. -/
structure Outcome where
  /-- The state that was reached. -/
  state : State
  /-- The fault that ended the execution, if any. -/
  fault : Option Fault := none

/-- Goes on behind an execution that no fault ended. -/
@[inline]
def Outcome.andThen (o : Outcome) (next : State → Outcome) : Outcome :=
  match o.fault with
  | none => next o.state
  | some _ => o

namespace State

/-- The state with a note added. -/
def note (s : State) (n : Note) : State :=
  { s with journal := s.journal.push n }

/-- The state with a line of output added. -/
def display (s : State) (line : Text) : State :=
  { s with output := s.output.push line }

/-- Ends an execution in this state with a fault. -/
def fail (s : State) (fault : Fault) : Outcome :=
  ⟨s, some fault⟩

/-- Ends an execution in this state. -/
def done (s : State) : Outcome :=
  ⟨s, none⟩

/-- Writes a value to a slot. -/
def write (s : State) (name : Text) (v : Value) : Outcome :=
  match s.store.set name v with
  | .ok store => done { s with store := store }
  | .error fault => s.fail fault

/-- Writes a value to slots in order; a fault leaves the earlier ones written. -/
def writeAll (v : Value) : List Text → State → Outcome
  | [], s => s.done
  | name :: rest, s => (s.write name v).andThen (writeAll v rest)

end State

/-! ### Operands -/

/-- The constants with a name. -/
def figurative? (name : Text) : Option Value :=
  let name := upper name
  if name = "SPACE".toList ∨ name = "SPACES".toList then some (.text [' '])
  else if name = "ZERO".toList ∨ name = "ZEROS".toList ∨ name = "ZEROES".toList then
    some (.number 0)
  else none

/-- The value of an operand: a literal, a named constant that is no slot, or a slot. -/
def operandValue (store : Store) (token : Text) : Except Fault Value :=
  if isQuoted token then .ok (.text (unquote token))
  else if Numeral.isLiteral token then (Numeral.read token).map .number
  else
    match figurative? token with
    | some constant => .ok (if store.contains token then store.get token else constant)
    | none => .ok (store.get token)

/-- What an operand adds to a line of output; an integer literal is shown as written. -/
def displayed (store : Store) (token : Text) : Except Fault Text :=
  if Numeral.isLiteral token then .ok token else operandValue store token >>= Value.shown

/-- The line that operands make. -/
def displayLine (store : Store) : List Text → Except Fault Text
  | [] => .ok []
  | token :: rest => do return (← displayed store token) ++ (← displayLine store rest)

/-! ### The subject of a choice -/

/-- The subject of an `EVALUATE`: its integer, if it has one, and its text. -/
structure Subject where
  /-- The integer. -/
  number : Option Int
  /-- The text. -/
  text : Text

namespace Subject

/-- The subject that a text denotes: the text between quotes, the text of a slot without its
trailing blanks, the value of an expression, or itself, with a note that it is no expression. -/
def ofText (store : Store) (allowance : Nat) (t : Text) : Except Fault (Subject × Option Note) :=
  if isQuoted t then .ok (⟨none, unquote t⟩, none)
  else
    match store.contains t, store.get t with
    | true, .text value => .ok (⟨none, trimRight value⟩, none)
    | _, _ => do
      match ← Expression.evaluate store allowance t with
      | .ok n => return (⟨some n, ← Numeral.write n⟩, none)
      | .error failure => return (⟨none, t⟩, some (.expressionFailed t failure))

/-- A branch is taken for the subject: an integer literal for its integer, a quoted literal for its
text, anything else for its text in any case. -/
def selects (subject : Subject) (b : Branch) : Except Fault Bool :=
  if b.isOther then .ok true
  else if Numeral.isLiteral b.value then
    match subject.number with
    | none => .ok false
    | some n => (Numeral.read b.value).map (· == n)
  else if isQuoted b.value then .ok (unquote b.value == subject.text)
  else .ok (upper b.value == upper subject.text)

/-- The lines of the first branch that is taken. -/
def select (subject : Subject) : List Branch → Except Fault (Option (List Text))
  | [] => .ok none
  | b :: rest => do if ← subject.selects b then return some b.lines else select subject rest

end Subject

/-! ### Loops -/

/-- Runs a body a number of times, as long as the run is not stopped. -/
def repeatTimes (body : State → Outcome) : Nat → State → Outcome
  | 0, s => s.done
  | n + 1, s => if s.running then (body s).andThen (repeatTimes body n) else s.done

/-- Runs a body, and again as long as the run is not stopped and the test fails, within a number of
passes. -/
def repeatUntil (body : State → Outcome) (test : State → Except Fault Bool) :
    Nat → State → Outcome
  | 0, s => s.fail .endless
  | passes + 1, s =>
    (body s).andThen fun s ↦
      if s.running then
        match test s with
        | .error fault => s.fail fault
        | .ok true => s.done
        | .ok false => repeatUntil body test passes s
      else s.done

/-! ### Statements -/

/-- The line written for a division by zero. -/
def divisionByZero : Text := "ERROR: DIVIDE BY ZERO".toList

/-- Combines a slot with an integer literal; a slot that holds no integer counts as zero. -/
def State.combine (s : State) (operation : Operation) (amount : Int) (target : Text) : Outcome :=
  let current := match s.store.get target with
    | .number n => n
    | .text _ => 0
  match operation.apply current amount with
  | none => (s.display divisionByZero).done
  | some result => s.write target (.number result)

/-- Reads a line of input into a slot; without input nothing happens. -/
def State.acceptLine (s : State) (target : Text) : Outcome :=
  match s.input with
  | none => s.done
  | some input =>
    match input.read with
    | .error fault => s.fail fault
    | .ok (none, rest) => done { s with input := some rest }
    | .ok (some line, rest) =>
      let s := { s with input := some rest }
      if Numeral.isLiteral line then
        match Numeral.read line with
        | .error fault => s.fail fault
        | .ok n => s.write target (.number n)
      else s.write target (.text line)

/-- Runs the paragraph of a label by running its body; a label that is none leaves a note. -/
def runParagraph {Body : Type} (m : MachineOf Body) (run : Body → State → Outcome) (label : Text)
    (repetition : Repetition) (s : State) : Outcome :=
  match m.paragraphs.get? (upper label) with
  | none => (s.note (.unknownParagraph (upper label))).done
  | some body =>
    match repetition with
    | .once => run body s
    | .times count =>
      match operandValue s.store count >>= Value.integer with
      | .error fault => s.fail fault
      | .ok n => repeatTimes (run body) n.toNat s
    | .untilTrue condition =>
      repeatUntil (run body) (fun s ↦ Condition.holds s.store condition) m.passes s

/-- Does what a statement asks for that runs no other statements; an action that does is left to
`perform`. -/
def act (allowance : Nat) (statement : Text) (s : State) : Action → Outcome
  | .move source targets =>
    match operandValue s.store source with
    | .error fault => s.fail fault
    | .ok v => State.writeAll v targets s
  | .compute target expression =>
    match Expression.evaluate s.store allowance expression with
    | .error fault => s.fail fault
    | .ok (.error failure) => (s.note (.expressionFailed expression failure)).done
    | .ok (.ok n) => s.write target (.number n)
  | .arithmetic operation operand target =>
    if Numeral.isLiteral operand then
      match Numeral.read operand with
      | .error fault => s.fail fault
      | .ok amount => s.combine operation amount target
    else (s.note (.literalNeeded operation.verb statement)).done
  | .display operands =>
    match displayLine s.store operands with
    | .error fault => s.fail fault
    | .ok line => (s.display line).done
  | .accept target => s.acceptLine target
  | .stop => ({ s with running := false }.note (.stopped statement)).done
  | .unrecognized => (s.note (.unrecognized statement)).done
  | .nothing | .branch _ | .choose _ | .perform _ _ => s.done

section

variable (m : Machine) (allowance : Nat) (nested : List Text → State → Outcome)

/-- Does what a statement asks for; `following` are the lines behind it. -/
def perform (statement : Text) (following : List Text) (s : State) : Action → Outcome
  | .branch condition =>
    match Condition.holds s.store condition with
    | .error fault => s.fail fault
    | .ok true => nested (IfBlock.split following).whenTrue s
    | .ok false => nested (IfBlock.split following).whenFalse s
  | .choose subject =>
    match Subject.ofText s.store allowance subject with
    | .error fault => s.fail fault
    | .ok (subject, remark) =>
      let s := remark.elim s s.note
      match subject.select (EvaluateBlock.split following).branches with
      | .error fault => s.fail fault
      | .ok none => s.done
      | .ok (some lines) => nested lines s
  | .perform label repetition => runParagraph m nested label repetition s
  | action => act allowance statement s action

/-- Executes one statement; `following` are the lines behind it. -/
def execute (statement : Text) (following : List Text) (s : State) : Outcome :=
  perform m allowance nested (trim statement) following s (Action.ofText (trim statement))

/-- Executes the statements of a block until it ends or the run is stopped. -/
def executeLines (lines : List Text) (s : State) : Outcome :=
  match lines with
  | [] => s.done
  | line :: following =>
    if s.running then
      (execute m allowance nested line following s).andThen
        (executeLines (unread line following))
    else s.done
termination_by lines.length
decreasing_by exact Nat.lt_succ_of_le (length_unread_le line following)

end

/-- Executes a block whose nested blocks and parentheses stay within the allowance. -/
def executeBlock (m : Machine) : Nat → List Text → State → Outcome
  | 0 => fun _ s ↦ s.fail .nesting
  | allowance + 1 => executeLines m allowance (executeBlock m allowance)

end Cobol
