import Cobol.Block
import Cobol.Numeral

/-!
# Statements

What a statement asks for is read off its text alone, before anything is executed: `Action.ofText`
recognises the form of a statement and cuts out its operands. A statement whose verb is known and
whose operands are missing asks for nothing.

## Shape decisions

* `MOVE` is cut at the last ` TO ` of its upper-case text; the place found there is used in the text
  as written.
* `GO TO` is an unconditional `PERFORM`: both run the paragraph and come back.
* Operands stay texts. They are resolved against the store when the action is executed.
-/

namespace Cobol

open Text

/-- The operands of a text: closed literals, and the blank-free pieces between them. -/
def operands (t : Text) : List Text :=
  match h : trimLeft t with
  | [] => []
  | c :: rest =>
    have := length_firstOperand_lt h
    (firstOperand (c :: rest)).1 :: operands (firstOperand (c :: rest)).2
termination_by t.length

/-- The operations of the arithmetic statements. -/
inductive Operation
  /-- `ADD amount TO target` -/
  | add
  /-- `SUBTRACT amount FROM target` -/
  | subtract
  /-- `MULTIPLY amount BY target` -/
  | multiply
  /-- `DIVIDE amount INTO target` -/
  | divide
  deriving DecidableEq, Repr

namespace Operation

/-- The verb of an operation. -/
def verb : Operation → Verb
  | add => .add
  | subtract => .subtract
  | multiply => .multiply
  | divide => .divide

/-- The result of an operation on the current value; `none` for a division by zero. -/
def apply : Operation → Int → Int → Option Int
  | add, current, amount => some (current + amount)
  | subtract, current, amount => some (current - amount)
  | multiply, current, amount => some (current * amount)
  | divide, current, amount => Numeral.divide? current amount

end Operation

/-- How often a paragraph is run. -/
inductive Repetition
  /-- Once. -/
  | once
  /-- As often as an operand says. -/
  | times (count : Text)
  /-- Once, and again as long as a condition is false. -/
  | untilTrue (condition : Text)
  deriving DecidableEq, Repr

/-- What a statement asks for. -/
inductive Action
  /-- Copy the value of an operand to the targets. -/
  | move (source : Text) (targets : List Text)
  /-- Store the value of an expression. -/
  | compute (target expression : Text)
  /-- Combine the target with an integer literal. -/
  | arithmetic (operation : Operation) (operand target : Text)
  /-- Write a line of output. -/
  | display (operands : List Text)
  /-- Read a line of input. -/
  | accept (target : Text)
  /-- Run one of the two parts of the block that follows. -/
  | branch (condition : Text)
  /-- Run the first branch of the block that follows whose value is that of the subject. -/
  | choose (subject : Text)
  /-- Run a paragraph. -/
  | perform (label : Text) (repetition : Repetition)
  /-- Stop the run. -/
  | stop
  /-- Nothing. -/
  | nothing
  /-- The statement is not understood. -/
  | unrecognized
  deriving DecidableEq, Repr

namespace Action

/-- `MOVE source TO target …` -/
def ofMove (arguments : Text) : Action :=
  match lastIndexOf? " TO ".toList (upper arguments) with
  | none => .nothing
  | some i =>
    let source := trim (arguments.take i)
    let targets := words (arguments.drop (i + 4))
    if source.isEmpty || targets.isEmpty then .nothing else .move source targets

/-- `COMPUTE target = expression` -/
def ofCompute (arguments : Text) : Action :=
  match cutAt? '=' arguments with
  | none => .nothing
  | some (target, expression) =>
    if (trim target).isEmpty then .nothing else .compute (trim target) (trim expression)

/-- An arithmetic statement: its verb, a literal, a preposition and the target. -/
def ofArithmetic (operation : Operation) : List Text → Action
  | _ :: operand :: _ :: target :: _ => .arithmetic operation operand target
  | _ => .nothing

/-- How often a `PERFORM` runs its paragraph, from the words behind the label. -/
def repetitionOf (rest : List Text) : Repetition :=
  match rest.dropWhile fun w ↦ upper w != "UNTIL".toList with
  | _ :: condition => .untilTrue ([' '].intercalate condition)
  | [] =>
    match rest with
    | count :: times :: _ => if upper times = "TIMES".toList then .times count else .once
    | _ => .once

/-- `PERFORM label`, with a repetition behind it. -/
def ofPerform : List Text → Action
  | _ :: label :: rest => .perform label (repetitionOf rest)
  | _ => .nothing

/-- `GOTO label` or `GO TO label` -/
def ofGoTo : List Text → Action
  | first :: rest =>
    match if upper first = "GO".toList then rest.tail else rest with
    | label :: _ => .perform label .once
    | [] => .nothing
  | [] => .nothing

/-- What a statement without surrounding blanks asks for. -/
def ofText (statement : Text) : Action :=
  if statement.isEmpty then .nothing
  else
    let parts := words (Sentence.dropPeriod statement)
    match Verb.ofStatement statement with
    | .move => ofMove (arguments statement)
    | .compute => ofCompute (arguments statement)
    | .add => ofArithmetic .add parts
    | .subtract => ofArithmetic .subtract parts
    | .multiply => ofArithmetic .multiply parts
    | .divide => ofArithmetic .divide parts
    | .display =>
      if (arguments statement).isEmpty then .nothing else .display (operands (arguments statement))
    | .accept =>
      match parts with
      | _ :: target :: _ => .accept target
      | _ => .nothing
    | .ifThen => .branch (arguments statement)
    | .evaluate => .choose (arguments statement)
    | .perform => ofPerform parts
    | .goTo => ofGoTo parts
    | .stopRun | .goBack => .stop
    | .otherwise | .endIf | .when | .endEvaluate | .noop | .exit => .nothing
    | .unknown => .unrecognized

end Action

end Cobol
