import Cobol.Store
import Cobol.Text.Letter

/-!
# Expressions

Integer expressions over the store:

* an *expression* is a chain of terms with `+` and `-`, a *term* a chain of factors with `*` and
  `/`, both grouped to the left;
* a *factor* is an expression in parentheses, a run of digits with an optional sign directly before
  it, or a name, which stands for the integer its slot denotes (zero if it denotes none).

Blanks may stand between all of these. Division rounds toward zero.

## Shape decisions

* The value is computed while the text is read, so the first failure from the left is the one
  reported, a division by zero included, and a conversion that fails ends the reading.
* A reading returns the rest of the text with a proof that it is shorter, so chains recurse on the
  length of what is left and need no other bound.
* Parentheses nest by an allowance: `expression` at allowance `n + 1` reads a parenthesised
  expression at allowance `n`. Sums and products are the same `chain` over different operators.
* A failure carries the unread text; its position is what is missing of it from the whole.
-/

namespace Cobol.Expression

open Text

/-! ### Failures -/

/-- The ways in which a text is no expression or has no value. -/
inductive Reason
  /-- A character that cannot stand here. -/
  | unexpected (c : Char)
  /-- An open parenthesis that is not closed. -/
  | missingParenthesis
  /-- The text ends where a factor should stand. -/
  | unexpectedEnd
  /-- A sign without digits. -/
  | expectedDigits
  /-- A division by zero. -/
  | divisionByZero
  deriving DecidableEq, Repr

/-- The wording of a reason. -/
def Reason.message : Reason → String
  | .unexpected c => "Unexpected '" ++ String.ofList [c] ++ "'"
  | .missingParenthesis => "Missing ')'"
  | .unexpectedEnd => "Unexpected end of expression"
  | .expectedDigits => "Expected digits"
  | .divisionByZero => "Division by zero"

/-- A failed expression: what is wrong, and at which character. -/
structure Failure where
  /-- What is wrong. -/
  reason : Reason
  /-- The index of the character. -/
  position : Nat
  deriving DecidableEq, Repr

/-- The wording of a failure. -/
def Failure.message (f : Failure) : String :=
  f.reason.message ++ " at position " ++ toString f.position

/-- Why a reading stops: the expression fails at the unread text, or a fault ends it. -/
inductive Stop
  /-- The expression fails. -/
  | failure (reason : Reason) (unread : Text)
  /-- A fault. -/
  | fault (f : Fault)
  deriving DecidableEq, Repr

/-! ### Readings -/

/-- A value read from the start of a text, and the rest of the text. -/
structure Reading (t : Text) where
  /-- The value read. -/
  value : Int
  /-- What is left of the text. -/
  rest : Text
  /-- Something has been read. -/
  shorter : rest.length < t.length

/-- Reads a value from the start of a text. -/
abbrev Reader := (t : Text) → Except Stop (Reading t)

/-- The rest of a text that has been read up to some point. -/
structure Tail (t : Text) where
  /-- The value read. -/
  value : Int
  /-- What is left of the text. -/
  rest : Text
  /-- Nothing has been added. -/
  shorter : rest.length ≤ t.length

/-- A reading of a text that is at least as long. -/
def Reading.widen {s t : Text} (r : Reading s) (h : s.length ≤ t.length) : Reading t :=
  ⟨r.value, r.rest, Nat.lt_of_lt_of_le r.shorter h⟩

/-- The tail of a text that is at least as long. -/
def Tail.widen {s t : Text} (r : Tail s) (h : s.length ≤ t.length) : Tail t :=
  ⟨r.value, r.rest, Nat.le_trans r.shorter h⟩

/-! ### Factors -/

/-- The characters of a name behind its first letter. -/
def isNameChar (c : Char) : Bool :=
  isAlphanumeric c || c == '-' || c == '_'

/-- A number with its digits, or a name with its characters, becomes a reading. -/
def reading {t : Text} (rest : Text) (h : rest.length < t.length) :
    Except Fault Int → Except Stop (Reading t)
  | .ok value => .ok ⟨value, rest, h⟩
  | .error f => .error (.fault f)

/-- Reads one factor; `nested` reads the expression behind an open parenthesis. -/
def factor (store : Store) (nested : Reader) (t : Text) : Except Stop (Reading t) :=
  match h : trimLeft t with
  | [] => .error (.failure .unexpectedEnd [])
  | c :: rest =>
    have hrest : rest.length < t.length := length_lt_of_trimLeft h
    if c == '(' then
      match nested rest with
      | .error stop => .error stop
      | .ok r =>
        match hclose : trimLeft r.rest with
        | ')' :: after =>
          .ok ⟨r.value, after,
            Nat.lt_trans (length_lt_of_trimLeft hclose) (Nat.lt_trans r.shorter hrest)⟩
        | unread => .error (.failure .missingParenthesis unread)
    else if c == '+' || c == '-' then
      match rest.takeWhile isDigit with
      | [] => .error (.failure .expectedDigits rest)
      | digits =>
        reading (rest.dropWhile isDigit) (Nat.lt_of_le_of_lt (length_dropWhile_le ..) hrest)
          (Numeral.read (c :: digits))
    else if isDigit c then
      reading (rest.dropWhile isDigit) (Nat.lt_of_le_of_lt (length_dropWhile_le ..) hrest)
        (Numeral.read (c :: rest.takeWhile isDigit))
    else if isLetter c then
      reading (rest.dropWhile isNameChar) (Nat.lt_of_le_of_lt (length_dropWhile_le ..) hrest)
        (store.get (c :: rest.takeWhile isNameChar)).integer
    else .error (.failure (.unexpected c) (c :: rest))

/-! ### Chains -/

/-- The operators of a chain: a partial operation for each character that is one. -/
abbrev Operators := Char → Option (Int → Int → Option Int)

/-- The operators between terms. -/
def additive : Operators
  | '+' => some fun a b ↦ some (a + b)
  | '-' => some fun a b ↦ some (a - b)
  | _ => none

/-- The operators between factors. -/
def multiplicative : Operators
  | '*' => some fun a b ↦ some (a * b)
  | '/' => some Numeral.divide?
  | _ => none

/-- Continues a chain behind the value of its items so far. An operation without a value fails at
its operator. -/
def chainFrom (operators : Operators) (item : Reader) (value : Int) (t : Text) :
    Except Stop (Tail t) :=
  match h : trimLeft t with
  | [] => .ok ⟨value, [], Nat.zero_le _⟩
  | c :: rest =>
    have hrest : rest.length < t.length := length_lt_of_trimLeft h
    match operators c with
    | none => .ok ⟨value, c :: rest, hrest⟩
    | some operation =>
      match item rest with
      | .error stop => .error stop
      | .ok r =>
        match operation value r.value with
        | none => .error (.failure .divisionByZero (c :: rest))
        | some result =>
          have hlt : r.rest.length < t.length := Nat.lt_trans r.shorter hrest
          match chainFrom operators item result r.rest with
          | .error stop => .error stop
          | .ok tail => .ok (tail.widen (Nat.le_of_lt hlt))
termination_by t.length

/-- Reads a chain of items, grouped to the left. -/
def chain (operators : Operators) (item : Reader) (t : Text) : Except Stop (Reading t) :=
  match item t with
  | .error stop => .error stop
  | .ok r =>
    match chainFrom operators item r.value r.rest with
    | .error stop => .error stop
    | .ok tail => .ok ⟨tail.value, tail.rest, Nat.lt_of_le_of_lt tail.shorter r.shorter⟩

/-- Reads an expression whose parentheses nest less deeply than the allowance. -/
def expression (store : Store) : Nat → Reader
  | 0 => fun _ ↦ .error (.fault .nesting)
  | allowance + 1 =>
    chain additive (chain multiplicative (factor store (expression store allowance)))

/-! ### Whole texts -/

/-- The value of a text that is an expression from its first to its last character. -/
def readAll (store : Store) (allowance : Nat) (t : Text) : Except Stop Int :=
  match expression store allowance t with
  | .error stop => .error stop
  | .ok r =>
    match trimLeft r.rest with
    | [] => .ok r.value
    | c :: rest => .error (.failure (.unexpected c) (c :: rest))

/-- The value of an expression, or how it fails, unless a fault ends the reading. -/
def evaluate (store : Store) (allowance : Nat) (t : Text) : Except Fault (Except Failure Int) :=
  match readAll store allowance t with
  | .ok value => .ok (.ok value)
  | .error (.failure reason unread) => .ok (.error ⟨reason, t.length - unread.length⟩)
  | .error (.fault f) => .error f

end Cobol.Expression
