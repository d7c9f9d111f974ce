import Cobol.Json.Printer

/-!
# Reports

The result of a run is delivered as plain text, one output line per line, or as a document with the
name of the program, its output lines, the time it took and, where asked for, where it came from.
-/

namespace Cobol

/-! ### Plain text -/

namespace PlainText

/-- The output lines joined by a line ending. -/
def joined (ending : Text) (lines : List Text) : Text :=
  Text.join ending lines

/-- What a file of the output lines holds: the joined lines and a final ending; nothing if the
joined lines are empty. -/
def fileContent (ending : Text) (lines : List Text) : Text :=
  if (joined ending lines).isEmpty then [] else joined ending lines ++ ending

/-- What a stream of the output lines holds: each line with an ending. -/
def streamed (ending : Text) (lines : List Text) : Text :=
  lines.flatMap (· ++ ending)

end PlainText

/-! ### Documents -/

/-- The result of a run. -/
structure RunResult where
  /-- The name of the program. -/
  programName : Text
  /-- The output lines. -/
  output : List Text := []
  /-- The seconds that the run took. -/
  seconds : Binary64 := .zero
  /-- Where the program came from. -/
  sourceInfo : Option Json.Document := none

namespace RunResult

/-- The name of the field with the time of a run. -/
def timingField : Text := "execution_time_seconds".toList

/-- The decimal places of the time of a run. -/
def timingPlaces : Nat := 4

/-- The document of a result. -/
def document (r : RunResult) : Json.Document :=
  .object <|
    [("program_name".toList, .text r.programName),
     ("output".toList, .array (r.output.map .text)),
     (timingField, .number (r.seconds.roundPlaces timingPlaces))] ++
    (r.sourceInfo.map fun info ↦ ("source_info".toList, info)).toList

end RunResult

/-- How a document is written. -/
structure DocumentStyle where
  /-- The unit of indentation; without one the document stands on one line. -/
  indent : Json.Indent := some [' ', ' ']
  /-- The names of objects are sorted. -/
  sorted : Bool := true
  /-- The time of the run is kept. -/
  timed : Bool := true

namespace DocumentStyle

/-- Writes a document in a style. -/
def render (style : DocumentStyle) (d : Json.Document) : Except Json.PrintError Text :=
  let d := if style.timed then d else d.dropField RunResult.timingField
  Json.print style.indent (if style.sorted then d.sortNames else d)

/-- What a file of a written document holds. -/
def fileContent (written : Text) : Text :=
  written ++ ['\n']

end DocumentStyle

end Cobol
