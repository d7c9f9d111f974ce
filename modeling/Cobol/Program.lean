import Cobol.Declaration
import Cobol.Sentence

/-!
# Programs

A program is read from its source lines in three views: its name, its declarations, and the
sentences of its procedure division with the paragraphs they form. Reading is lenient: a line that
is not understood is dropped.

## Shape decisions

* The three views are three functions of the normalized lines; none depends on another.
* `sections` cuts the procedure at its labels by recursion on the sentences: what stands before the
  first label of the rest is the body of the paragraph that a label opens. No paragraph is ever
  under construction.
* A repeated label or name replaces the earlier entry in its place, by `Table.put`.
-/

namespace Cobol

open Text

/-- A program as the executor needs it. -/
structure Program where
  /-- The name of the program. -/
  name : Text := "UNKNOWN".toList
  /-- The declarations by name. -/
  declarations : Table Declaration := {}
  /-- The bodies of the paragraphs by label. -/
  paragraphs : Table (List Text) := {}
  /-- The sentences of the procedure division. -/
  procedure : List Text := []
  deriving DecidableEq, Repr

namespace Program

/-! ### The name -/

/-- The characters of a program name, which may be written with the characters that fold to ASCII
letters. -/
def isNameChar (c : Char) : Bool :=
  c.isAlphanum || c == '-' || c == '\u0130' || c == '\u0131' || c == '\u017F' || c == '\u212A'

/-- The name that a line declares. -/
def nameOf? (line : Text) : Option Text := do
  let rest ← dropKeyword? "PROGRAM-ID".toList line
  let body ← Clause.afterBlanks? ((dropLead? ['.'] rest).getD rest)
  match body.takeWhile isNameChar with
  | [] => none
  | name => some (upper name)

/-- The name of a program: the first one declared. -/
def findName (lines : List Text) : Text :=
  (lines.findSome? nameOf?).getD "UNKNOWN".toList

/-! ### Divisions -/

/-- A line that opens the procedure division. -/
def opensProcedure (line : Text) : Bool :=
  "PROCEDURE DIVISION".toList.isPrefixOf (upper line)

/-- A line that opens a part with declarations. -/
def opensData (line : Text) : Bool :=
  ["DATA DIVISION", "WORKING-STORAGE SECTION", "LOCAL-STORAGE SECTION"].any fun marker ↦
    marker.toList.isPrefixOf (upper line)

/-! ### Declarations -/

/-- The sentences before the procedure division that may be declarations, with the numbers of their
lines; `number` is that of the first line, and `inData` says that a part with declarations is
open. -/
def dataSentences (number : Nat) (inData : Bool) : List Text → List (Nat × Text)
  | [] => []
  | line :: rest =>
    if opensProcedure line then []
    else if opensData line then dataSentences (number + 1) true rest
    else if inData then
      (Sentence.sentences line).map (number, ·) ++ dataSentences (number + 1) true rest
    else dataSentences (number + 1) false rest

/-- Adds the declarations among the sentences to a table. -/
def declare (table : Table Declaration) : List (Nat × Text) → Except Fault (Table Declaration)
  | [] => .ok table
  | (number, sentence) :: rest =>
    match Declaration.ofSentence number sentence with
    | .error fault => .error fault
    | .ok (.declaration d) => declare (table.put d.name d) rest
    | .ok _ => declare table rest

/-! ### The procedure -/

/-- The sentences behind the line that opens the procedure division. -/
def procedureSentences (lines : List Text) : List Text :=
  ((lines.dropWhile fun l ↦ !opensProcedure l).filter fun l ↦ !opensProcedure l).flatMap
    Sentence.sentences

/-- Words that stand alone on a line like a label and are none. -/
def reservedLabels : List Text :=
  ["EXIT", "CONTINUE", "GOBACK", "ELSE", "END-IF", "END-EVALUATE", "END-PERFORM"].map String.toList

/-- The characters of a label. -/
def isLabelChar (c : Char) : Bool :=
  ('A' ≤ c && c ≤ 'Z') || ('0' ≤ c && c ≤ '9') || c == '-'

/-- The label a sentence declares: label characters before a final period. -/
def labelOf? (sentence : Text) : Option Text :=
  let t := Numeral.dropFinalNewline sentence
  let label := t.dropLast
  if t.getLast? == some '.' && !label.isEmpty && label.all isLabelChar
    && !reservedLabels.contains label then some label
  else none

/-- The sentences before the first label, and the paragraphs behind it in order. -/
def sections : List Text → List Text × List (Text × List Text)
  | [] => ([], [])
  | sentence :: rest =>
    let (body, paragraphs) := sections rest
    match labelOf? sentence with
    | some label => ([], (label, body) :: paragraphs)
    | none => (sentence :: body, paragraphs)

/-! ### Reading a program -/

/-- Reads a program whose lines are normalized. -/
def ofContents (lines : List Text) : Except Fault Program :=
  (declare {} (dataSentences 1 false lines)).map fun declarations ↦
    { name := findName lines
      declarations := declarations
      paragraphs := Table.ofList (sections (procedureSentences lines)).2
      procedure := procedureSentences lines }

/-- Reads a program from its source lines. -/
def parse (lines : List Text) : Except Fault Program :=
  ofContents (Sentence.normalize lines)

/-- The body of the paragraph of a label, in any case. -/
def paragraph? (p : Program) (label : Text) : Option (List Text) :=
  p.paragraphs.get? (upper label)

/-- The sentences with a picture and without a name that reading the program passes over, up to the
first that cannot be read. -/
def namelessSentences (lines : List Text) : List Text :=
  let read := (dataSentences 1 false (Sentence.normalize lines)).map fun (number, sentence) ↦
    (sentence, Declaration.ofSentence number sentence)
  (read.takeWhile fun e ↦ e.2.isOk).filterMap fun (sentence, entry) ↦
    match entry with
    | .ok .nameless => some sentence
    | _ => none

end Program

end Cobol
