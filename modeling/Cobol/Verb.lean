import Cobol.Text.Upper

/-!
# Verbs

The verb of a statement is read off its first words, in any case and with periods taken for blanks.
A verb of two parts may be written with a hyphen or an underscore between them, except that the run
is stopped only by `STOP RUN` and `STOP-RUN`.
-/

namespace Cobol

open Text

/-- The kinds of statement. -/
inductive Verb
  /-- `MOVE` -/
  | move
  /-- `COMPUTE` -/
  | compute
  /-- `ADD` -/
  | add
  /-- `SUBTRACT` -/
  | subtract
  /-- `MULTIPLY` -/
  | multiply
  /-- `DIVIDE` -/
  | divide
  /-- `DISPLAY` -/
  | display
  /-- `ACCEPT` -/
  | accept
  /-- `IF` -/
  | ifThen
  /-- `ELSE` -/
  | otherwise
  /-- `END-IF` -/
  | endIf
  /-- `EVALUATE` -/
  | evaluate
  /-- `WHEN` -/
  | when
  /-- `END-EVALUATE` -/
  | endEvaluate
  /-- `PERFORM` -/
  | perform
  /-- `GOTO`, `GO TO` -/
  | goTo
  /-- `STOP RUN` -/
  | stopRun
  /-- `GOBACK` -/
  | goBack
  /-- `CONTINUE` -/
  | noop
  /-- `EXIT` -/
  | exit
  /-- Any other statement. -/
  | unknown
  deriving DecidableEq, Repr

namespace Verb

/-- The verbs under their keywords. -/
def keywords : List (Text × Verb) :=
  [("MOVE".toList, move), ("COMPUTE".toList, compute), ("ADD".toList, add),
   ("SUBTRACT".toList, subtract), ("MULTIPLY".toList, multiply), ("DIVIDE".toList, divide),
   ("DISPLAY".toList, display), ("ACCEPT".toList, accept), ("IF".toList, ifThen),
   ("ELSE".toList, otherwise), ("END_IF".toList, endIf), ("EVALUATE".toList, evaluate),
   ("WHEN".toList, when), ("END_EVALUATE".toList, endEvaluate), ("PERFORM".toList, perform),
   ("GOTO".toList, goTo), ("STOP_RUN".toList, stopRun), ("GOBACK".toList, goBack),
   ("CONTINUE".toList, noop), ("EXIT".toList, exit)]

/-- The keyword of a verb. -/
def keyword (v : Verb) : Text :=
  ((keywords.find? fun k ↦ k.2 == v).map (·.1)).getD "UNKNOWN".toList

/-- The words of a statement in upper case, with periods taken for blanks. -/
def wordsOf (statement : Text) : List Text :=
  words ((upper statement).map fun c ↦ if c == '.' then ' ' else c)

/-- The verb a list of words starts with. -/
def ofWords : List Text → Verb
  | [] => unknown
  | first :: rest =>
    if first = "STOP".toList then
      if rest.head? = some "RUN".toList then stopRun else unknown
    else if first = "GO".toList ∧ rest.head? = some "TO".toList then goTo
    else if first = "STOP_RUN".toList then unknown
    else (keywords.lookup (first.map fun c ↦ if c == '-' then '_' else c)).getD unknown

/-- The verb of a statement. -/
def ofStatement (statement : Text) : Verb :=
  ofWords (wordsOf statement)

end Verb

end Cobol
