import Cobol.Encoding.Charset
import Cobol.FileTree
import Cobol.Report
import Cobol.Session
import Cobol.Text.CodePoint

/-!
# Source files

A program is run from its lines or from a file. A file is decoded by its character set, its line
ends are made uniform, and it is cut at every line boundary; from there on it is run like any other
list of lines. The result can tell where the program came from.
-/

namespace Cobol

open Text

/-- Why a run has no result. -/
inductive RunError
  /-- Nothing stands at the path. -/
  | missing (path : Path)
  /-- Something other than a file stands at the path. -/
  | noFile (path : Path)
  /-- The file cannot be read in the character set of the name, and the message says why. -/
  | unknownEncoding (path : Path) (message : Text)
  /-- The character set has ended with an error of its own. -/
  | brokenEncoding (message : Text)
  /-- The path cannot be looked up. -/
  | file (e : FileError)
  /-- The name of the character set holds a null character. -/
  | nullInEncoding
  /-- The name of the character set holds surrogates. -/
  | surrogatesInEncoding (run : CodePoint.Unencodable)
  /-- The name of the character set is no text but something of this kind. -/
  | noEncoding (kind : String)
  /-- A fault ended the run. -/
  | fault (f : Fault)
  deriving DecidableEq, Repr

/-- The wording of an error. -/
def RunError.message : RunError → Text
  | .missing path => "Source file not found: ".toList ++ path.text
  | .noFile path => "Source path is not a file: ".toList ++ path.text
  | .unknownEncoding path message =>
    "Failed to read ".toList ++ path.text ++ ": ".toList ++ message
  | .brokenEncoding message => message
  | .file e => e.message
  | .nullInEncoding => "embedded null character".toList
  | .surrogatesInEncoding run => run.message
  | .noEncoding kind =>
    "open() argument 'encoding' must be str or None, not ".toList ++ kind.toList
  | .fault f => f.message.toList

/-- A result or an error, and the notes taken. -/
structure Run where
  /-- The result. -/
  result : Except RunError RunResult
  /-- The notes taken. -/
  notes : List Note

/-- The source lines of a decoded file. -/
def sourceLines (t : Text) : List Text :=
  lines (unifyNewlines t)

/-- Where a program came from: its full path, the name of the file and the number of its lines. -/
def sourceInfo (tree : FileTree) (p : Path) (count : Nat) : Json.Document :=
  .object
    [("file_path".toList, .text (Path.below ⟨['/'], tree.current⟩ p).text),
     ("file_name".toList, .text p.name),
     ("lines_count".toList, .integer count)]

/-- What stands for the name of a character set. -/
inductive EncodingName
  /-- A name. -/
  | name (t : Text)
  /-- A text with surrogates in it. -/
  | surrogates (run : CodePoint.Unencodable)
  /-- Something of a kind that is no text. -/
  | other (kind : String)
  deriving DecidableEq, Repr

/-- How a program is run. -/
structure RunOptions where
  /-- The bounds of the run. -/
  limits : Limits := {}
  /-- Where `ACCEPT` reads from. -/
  input : Option Input := none
  /-- The name of the character set of source files. -/
  encoding : EncodingName := .name "utf-8".toList
  /-- The further character sets of the platform. -/
  further : Charset.Further := Charset.noFurther
  /-- The result tells where the program came from. -/
  includeSourceInfo : Bool := false

/-- Runs a program given by its lines. -/
def runLines (options : RunOptions) (source : List Text) : Run :=
  let ran := Session.run options.limits source { input := options.input }
  match ran.output with
  | .error f => ⟨.error (.fault f), ran.notes⟩
  | .ok output =>
    let name := ran.session.programName
    ⟨.ok { programName := name, output := output }, ran.notes ++ [.produced name output.length]⟩

/-- Runs the built-in program. -/
def runSample (options : RunOptions) : Run :=
  runLines options sampleProgram

/-- The lines of a source file. -/
def readSource (options : RunOptions) (p : Path) (bytes : List UInt8) :
    Except RunError (List Text) :=
  match options.encoding with
  | .other kind => .error (.noEncoding kind)
  | .surrogates run => .error (.surrogatesInEncoding run)
  | .name name =>
    if name.contains '\x00' then .error .nullInEncoding
    else
      match Charset.decodeNamed options.further name bytes with
      | .ok t => .ok (sourceLines t)
      | .error (.unknown message) => .error (.unknownEncoding p message)
      | .error (.broken message) => .error (.brokenEncoding message)

/-- Runs a program file. -/
def runFile (options : RunOptions) (tree : FileTree) (p : Path) : Run :=
  match tree.find? p with
  | .error e => ⟨.error (.file e), []⟩
  | .ok none => ⟨.error (.missing p), []⟩
  | .ok (some .folder) => ⟨.error (.noFile p), []⟩
  | .ok (some (.file bytes)) =>
    match readSource options p bytes with
    | .error e => ⟨.error e, [.readingSource p.text]⟩
    | .ok source =>
      let ran := runLines options source
      let info := if options.includeSourceInfo then some (sourceInfo tree p source.length) else none
      ⟨ran.result.map fun r ↦ { r with sourceInfo := info }, .readingSource p.text :: ran.notes⟩

end Cobol
