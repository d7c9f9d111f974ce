import Cobol.Execution

/-!
# Sessions

A session runs programs one after the other. Each program starts from a fresh state that holds its
declarations; only the input is shared, so a program reads on where the one before it stopped.

A run that nests too deeply is stopped and keeps its output; any other fault ends it without one.
-/

namespace Cobol

/-- The bounds within which a program runs. -/
structure Limits where
  /-- How deeply blocks and parentheses may nest. -/
  allowance : Nat := 330
  /-- How many passes a conditional loop may make. -/
  passes : Nat := Nat.pow 10 18

namespace State

/-- Declares the slots of a program in order. -/
def declareAll (store : Store) : List Declaration → Except Fault Store
  | [] => .ok store
  | d :: rest =>
    match store.declare d.name d.picture d.value with
    | (store, none) => declareAll store rest
    | (_, some fault) => .error fault

/-- The state in which a program starts. -/
def start (p : Program) (input : Option Input) : Except Fault State :=
  (declareAll {} (p.declarations.entries.map (·.2))).map fun store ↦
    { store := store, input := input }

end State

/-- The machine that runs a program. -/
def Program.machine (p : Program) (limits : Limits) : Machine :=
  ⟨p.paragraphs, limits.passes⟩

/-- Executes the procedure of a program from a state. -/
def Program.execute (p : Program) (limits : Limits) (s : State) : Outcome :=
  executeBlock (p.machine limits) limits.allowance p.procedure s

/-- The input that is left, and the name of the program that ran last. -/
structure Session where
  /-- The input that is left. -/
  input : Option Input := none
  /-- The name of the program that was run last. -/
  programName : Text := "UNKNOWN".toList

/-- What a run yields: its output or a fault, the session behind it and the notes taken. -/
structure Ran where
  /-- The output lines. -/
  output : Except Fault (List Text)
  /-- The session behind the run. -/
  session : Session
  /-- The notes taken. -/
  notes : List Note

namespace Session

/-- The output of an execution that has ended: a run that nested too deeply keeps what it wrote. -/
def outputOf (o : Outcome) : Except Fault (List Text) :=
  match o.fault with
  | none | some .nesting => .ok o.state.output.toList
  | some fault => .error fault

/-- Runs a program. -/
def run (limits : Limits) (lines : List Text) (session : Session) : Ran :=
  let passedOver := (Program.namelessSentences lines).map Note.nameless
  match Program.parse lines with
  | .error fault => ⟨.error fault, session, passedOver⟩
  | .ok p =>
    let read := passedOver ++
      [.structured p.name p.declarations.size p.paragraphs.size p.procedure.length]
    match State.start p session.input with
    | .error fault => ⟨.error fault, { session with programName := p.name }, read⟩
    | .ok s =>
      let o := p.execute limits s
      let stopped := if o.fault = some .nesting then [Note.nestedTooDeeply p.name] else []
      ⟨outputOf o, ⟨o.state.input, p.name⟩, read ++ o.state.journal.toList ++ stopped⟩

end Session

/-- The program that runs when none is given. -/
def sampleProgram : List Text :=
  ["IDENTIFICATION DIVISION.",
   "PROGRAM-ID. HELLO.",
   "DATA DIVISION.",
   "WORKING-STORAGE SECTION.",
   "01 X PIC 9(3).",
   "PROCEDURE DIVISION.",
   "    MOVE 10 TO X.",
   "    ADD 5 TO X.",
   "    SUBTRACT 2 FROM X.",
   "    DISPLAY X.",
   "    MOVE 'HELLO' TO MSG.",
   "    DISPLAY 'Message:'",
   "    DISPLAY MSG.",
   "    STOP RUN."].map String.toList

end Cobol
