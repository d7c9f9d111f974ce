import Cobol.Expression
import Cobol.Verb

/-!
# Notes

While a program is read and run, everything that is passed over or stopped leaves a note. A note has
a severity and a channel; notes are no part of a program's output, and nothing a program does
depends on them.
-/

namespace Cobol

/-- How grave a note is. -/
inductive Severity
  /-- For following what a run does. -/
  | debug
  /-- What a run has done. -/
  | info
  /-- What a run could not do. -/
  | error
  deriving DecidableEq, Repr

namespace Severity

/-- The rank by which severities are compared with a threshold. -/
def rank : Severity → Nat
  | debug => 10
  | info => 20
  | error => 40

/-- The label of a severity. -/
def label : Severity → String
  | debug => "DEBUG"
  | info => "INFO"
  | error => "ERROR"

end Severity

/-- Something noted while a program is read, run and delivered. -/
inductive Note
  /-- A picture without a level or a name was passed over. -/
  | nameless (sentence : Text)
  /-- A program was read. -/
  | structured (program : Text) (declarations paragraphs statements : Nat)
  /-- An expression had no value. -/
  | expressionFailed (expression : Text) (failure : Expression.Failure)
  /-- A statement was passed over. -/
  | unrecognized (statement : Text)
  /-- A statement named a paragraph that is none. -/
  | unknownParagraph (label : Text)
  /-- An arithmetic statement had no integer literal. -/
  | literalNeeded (verb : Verb) (statement : Text)
  /-- A statement stopped the run. -/
  | stopped (statement : Text)
  /-- A run was stopped because its blocks nested too deeply. -/
  | nestedTooDeeply (program : Text)
  /-- A source file is read. -/
  | readingSource (path : Text)
  /-- A run ended. -/
  | produced (program : Text) (lines : Nat)
  /-- The built-in program is run. -/
  | runningSample
  /-- The output was written to a file. -/
  | outputWritten (path : Text)
  /-- The command failed. -/
  | commandFailed (message : Text)
  deriving DecidableEq, Repr

namespace Note

/-- The severity of a note. -/
def severity : Note → Severity
  | nameless .. | structured .. | expressionFailed .. | unrecognized .. | unknownParagraph ..
  | literalNeeded .. | stopped .. => .debug
  | readingSource .. | produced .. | runningSample | outputWritten .. => .info
  | nestedTooDeeply .. | commandFailed .. => .error

/-- The channel a note goes to. -/
def channel : Note → String
  | nameless .. | structured .. => "cobol_interpreter.structurer"
  | expressionFailed .. => "cobol_interpreter.expressions"
  | unrecognized .. | unknownParagraph .. | literalNeeded .. | stopped .. =>
    "cobol_interpreter.executor"
  | nestedTooDeeply .. | readingSource .. | produced .. => "cobol_interpreter.api"
  | runningSample | outputWritten .. | commandFailed .. => "main"

/-- The wording of a note. -/
def message : Note → Text
  | nameless sentence => "Ignoring declaration without level or name: ".toList ++ sentence
  | structured program declarations paragraphs statements =>
    "Structured ".toList ++ program ++ ": ".toList ++ Numeral.digits declarations ++
      " declarations, ".toList ++ Numeral.digits paragraphs ++ " paragraphs, ".toList ++
      Numeral.digits statements ++ " statements".toList
  | expressionFailed expression failure =>
    "Expression '".toList ++ expression ++ "' failed: ".toList ++ failure.message.toList
  | unrecognized statement => "Skipping unrecognized statement: ".toList ++ statement
  | unknownParagraph label => "Ignoring reference to unknown paragraph ".toList ++ label
  | literalNeeded verb statement =>
    verb.keyword ++ " needs an integer literal operand: ".toList ++ statement
  | stopped statement => "Run stopped by: ".toList ++ statement
  | nestedTooDeeply program =>
    "Program ".toList ++ program ++ " nested too deeply; run stopped".toList
  | readingSource path => "Reading source file: ".toList ++ path
  | produced program lines =>
    "Program ".toList ++ program ++ " produced ".toList ++ Numeral.digits lines ++
      " output lines".toList
  | runningSample => "No source file given, running the built-in sample program".toList
  | outputWritten path => "Output written to: ".toList ++ path
  | commandFailed message => message

end Note

end Cobol
