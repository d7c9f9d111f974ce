import Cobol.Picture
import Cobol.Text.Letter

/-!
# Declarations

A declaration is a sentence of the form `level name PIC picture VALUE literal`. Only the picture
clause is required to be recognised as one; the name is the last word before it, and a value clause
behind it gives the initial value.

## Shape decisions

* Both clauses are found by the same `search`: the first place where a word starts and the clause
  can be read. Keywords are recognised in any case (`Text.dropKeyword?`).
* A sentence with a picture but without a level or a name is kept apart from a sentence that is no
  declaration at all (`Entry`), because only the former is worth a note.
-/

namespace Cobol

open Text

/-! ### Clauses -/

namespace Clause

/-- A word may start behind this character. -/
def startsWord (previous? : Option Char) : Bool :=
  !(previous?.any isWordChar)

/-- The first place at the start of a word where a clause can be read: the text before it and what
was read. -/
def search {α : Type} (clause? : Text → Option α) (previous? : Option Char) :
    Text → Option (Text × α)
  | [] => none
  | c :: rest =>
    match if startsWord previous? then clause? (c :: rest) else none with
    | some a => some ([], a)
    | none => (search clause? (some c) rest).map fun found ↦ (c :: found.1, found.2)

/-- The text behind at least one blank. -/
def afterBlanks? (t : Text) : Option Text :=
  if t.head?.any isBlank then some (trimLeft t) else none

/-- The text behind the blanks after a keyword, and behind the word `IS` that may follow. -/
def afterIs? (t : Text) : Option Text :=
  (afterBlanks? t).map fun rest ↦
    (dropKeyword? "IS".toList rest >>= afterBlanks?).getD rest

/-- A symbol with which a picture starts. -/
def isSymbol (c : Char) : Bool :=
  c == '9' || sameLetter 'X' c

/-- A text starts with a picture: a symbol behind an optional sign symbol. -/
def startsPicture : Text → Bool
  | [] => false
  | c :: rest => isSymbol c || (sameLetter 'S' c && rest.head?.any isSymbol)

/-- The characters of a picture. -/
def isPictureChar (c : Char) : Bool :=
  !isBlank c && c != '.'

/-- The picture of a picture clause at the start of a text, and what stands behind it. -/
def picture? (t : Text) : Option (Text × Text) := do
  let rest ← dropKeyword? "PIC".toList t
  let body ← afterIs? ((dropKeyword? "TURE".toList rest).getD rest)
  if startsPicture body then some (body.takeWhile isPictureChar, body.dropWhile isPictureChar)
  else none

/-- The characters between a quote at the start of a text and the next one. -/
def literal? : Text → Option Text
  | [] => none
  | q :: rest => if isQuote q then (cutAt? q rest).map (·.1) else none

/-- The integer at the start of a text. -/
def integer? (t : Text) : Option (Except Fault Int) :=
  let sign := match t with
    | c :: _ => if c == '+' || c == '-' then [c] else []
    | [] => []
  match (t.drop sign.length).takeWhile isDecimal with
  | [] => none
  | digits => some (Numeral.read (sign ++ digits))

/-- The value of a value clause at the start of a text. -/
def value? (t : Text) : Option (Except Fault Value) := do
  let rest ← dropKeyword? "VALUE".toList t
  let body ← afterIs? rest
  match literal? body, integer? body with
  | some text, _ => some (.ok (.text text))
  | none, some n => some (n.map .number)
  | none, none =>
    if (dropKeyword? "SPACE".toList body).isSome then some (.ok (.text [' ']))
    else if (dropKeyword? "ZERO".toList body).isSome then some (.ok (.number 0))
    else none

end Clause

/-! ### Declarations -/

/-- A declared slot. -/
structure Declaration where
  /-- The name in upper case. -/
  name : Text
  /-- The shape of the slot. -/
  picture : Picture
  /-- The initial value, if one is given. -/
  value : Option Value := none
  /-- The number of the line, from one. -/
  line : Nat := 0
  deriving DecidableEq, Repr

/-- What a sentence of the data division is. -/
inductive Entry
  /-- No declaration. -/
  | other
  /-- A picture without a level or a name. -/
  | nameless
  /-- A declaration. -/
  | declaration (d : Declaration)
  deriving DecidableEq, Repr

namespace Declaration

/-- The initial value given by the first value clause of a text. -/
def initialValue (t : Text) : Except Fault (Option Value) :=
  match Clause.search Clause.value? none t with
  | none => .ok none
  | some (_, value) => value.map some

/-- Reads a sentence that stands on the line of the given number. -/
def ofSentence (line : Nat) (sentence : Text) : Except Fault Entry :=
  match Clause.search Clause.picture? none sentence with
  | none => .ok .other
  | some (before, picture, after) =>
    match (words before).reverse with
    | last :: _ :: _ => do
      let p ← Picture.parse picture
      let v ← initialValue after
      return .declaration ⟨upper (last.filter (· != '.')), p, v, line⟩
    | _ => .ok .nameless

end Declaration

end Cobol
