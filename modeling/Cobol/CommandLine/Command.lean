import Cobol.CommandLine.Arguments
import Cobol.CommandLine.Help
import Cobol.Config
import Cobol.Source

/-!
# The command

The command as a function: arguments, a file tree and what the host has besides the files give an
exit code, standard output, the lines on standard error, and the file tree afterwards.

## Shape decisions

* A document tells how many seconds the run took, and only a clock knows. So the command gives what
  it comes to as a function of the seconds (`Timed`), and whoever runs it reads the clock.
* The settings file is loaded twice: for the threshold of notes, and again by the run itself
  (`handle`), before the folders of the output file are made.
* A failure of the run itself is a note and the exit code one. Only a configuration that cannot be
  used, or an output path that no file system can hold, ends the command without an exit code
  (`Crash`).
* Nothing is written before the whole result has been rendered, and the write of the output file is
  the last thing that can fail.
-/

namespace Cobol.CommandLine

open Text

/-! ### Severities shown -/

/-- Why the configuration gives no threshold for notes. -/
inductive LevelError
  /-- The section is no mapping, or the level is no text or no known name. -/
  | unknown
  /-- The name stands for a text that is no level. -/
  | format
  /-- The name stands for something else that is no level. -/
  | styles
  deriving DecidableEq, Repr

/-- The thresholds by name. -/
def levels : List (Text × Nat) :=
  [("NOTSET".toList, 0), ("DEBUG".toList, 10), ("INFO".toList, 20), ("WARNING".toList, 30),
   ("WARN".toList, 30), ("ERROR".toList, 40), ("CRITICAL".toList, 50), ("FATAL".toList, 50)]

/-- The threshold of a name, in any case. -/
def levelOf (name : Text) : Except LevelError Nat :=
  let name := upper name
  match levels.lookup name with
  | some rank => .ok rank
  | none =>
    if name = "BASIC_FORMAT".toList then .error .format
    else if name = "_STYLES".toList then .error .styles
    else .error .unknown

/-- The threshold below which notes are not shown. -/
def threshold (a : Arguments) (config : Config) : Except LevelError Nat :=
  if a.verbose then .ok Severity.debug.rank
  else
    match config.section? "logging" with
    | .error _ => .error .unknown
    | .ok fields =>
      if a.quiet then .ok Severity.error.rank
      else
        match Config.field fields "level" (.text "INFO".toList) with
        | .text name => levelOf name
        | _ => .error .unknown

/-- The line of a note on standard error, with the time it was taken. -/
def noteLine (time : Text) (n : Note) : Text :=
  time ++ " - ".toList ++ n.channel.toList ++ " - ".toList ++ n.severity.label.toList ++
    " - ".toList ++ n.message

/-- The notes that reach a threshold. -/
def shownNotes (rank : Nat) (notes : List Note) : List Note :=
  notes.filter fun n ↦ rank ≤ n.severity.rank

/-! ### Delivery -/

/-- The wording of a failed run. -/
def runFailed (message : Text) : Text :=
  "Run failed: ".toList ++ message

/-- The wording of a failed operation on a file. -/
def fileFailed (e : FileError) : Text :=
  match e with
  | .refused .. => "I/O error: ".toList ++ e.message
  | .nullInPath => runFailed e.message

/-- The wording for a section of this kind in the place of a mapping. -/
def noSection (kind : String) : Text :=
  runFailed ('\'' :: kind.toList ++ "' object has no attribute 'get'".toList)

/-- Why a setting gives no unit of indentation. -/
inductive IndentError
  /-- There is no such number of spaces. -/
  | fault (f : Fault)
  /-- A value of this kind is no number of spaces. -/
  | noCount (kind : String)
  /-- The unit would hold surrogates. -/
  | surrogates (run : CodePoint.Unencodable)
  deriving DecidableEq, Repr

/-- The number of characters of a document in front of its first unit of indentation: a bracket and
a line feed. -/
def beforeIndent : Nat := 2

/-- The wording of an error. Surrogates are placed where the document would have them first. -/
def IndentError.message : IndentError → Text
  | .fault f => f.message.toList
  | .noCount kind => "can't multiply sequence by non-int of type '".toList ++ kind.toList ++ ['\'']
  | .surrogates run =>
    CodePoint.Unencodable.message { run with position := beforeIndent + run.position }

/-- The unit of indentation that a setting asks for: a number of spaces, a text, or none. -/
def indentOf : Yaml → Except IndentError Json.Indent
  | .null => .ok none
  | .integer n => ((Field.spaces n).map some).mapError .fault
  | .bool b => .ok (some (if b then [' '] else []))
  | .text t => .ok (some t)
  | .surrogates points =>
    match CodePoint.unencodable? points with
    | some run => .error (.surrogates run)
    | none => .ok none
  | v => .error (.noCount v.kind)

/-- The style of documents with these settings. The size of the indentation counts only if documents
are to be indented. -/
def styleWith (pretty : Bool) (size : Yaml) (sorted timed : Bool) :
    Except IndentError DocumentStyle :=
  if pretty then (indentOf size).map fun indent ↦ { indent, sorted, timed }
  else .ok { indent := none, sorted, timed }

/-- The style of documents that the output section asks for. -/
def styleOf (fields : List (Yaml × Yaml)) : Except IndentError DocumentStyle :=
  styleWith (Config.field fields "pretty_print" (.bool true)).isTruthy
    (Config.field fields "indent_size" (.integer 2)) true true

/-- The output is written as a document. -/
def asDocument (a : Arguments) (fields : List (Yaml × Yaml)) : Bool :=
  a.json ||
    match Config.field fields "format" .null with
    | .text t => t == "json".toList
    | _ => false

/-- A rendered result. -/
inductive Rendered
  /-- What goes to standard output, without the final line feed, and what goes to a file. -/
  | ready (text file : Text)
  /-- The result has no written form. -/
  | unrendered (message : Text)
  /-- The result has a written form that has no bytes. -/
  | unwritable (message : Text)

/-- Renders a result. -/
def render (a : Arguments) (fields : List (Yaml × Yaml)) (r : RunResult) : Rendered :=
  if asDocument a fields then
    match styleOf fields with
    | .error (.surrogates run) =>
      .unwritable (runFailed (IndentError.message (.surrogates run)))
    | .error e => .unrendered (runFailed e.message)
    | .ok style =>
      match style.render r.document with
      | .ok t => .ready t (DocumentStyle.fileContent t)
      | .error e => .unrendered (runFailed e.message.toList)
  else .ready (PlainText.joined ['\n'] r.output) (PlainText.fileContent ['\n'] r.output)

/-! ### The run -/

/-- What a run finds where it takes place, besides the files. -/
structure Host where
  /-- The bounds of a run. -/
  limits : Limits := {}
  /-- The further character sets of source files. -/
  further : Charset.Further := Charset.noFurther
  /-- Standard input, if there is any. -/
  stdin : Option Input := none

/-- Something that may depend on the seconds that a run has taken. -/
inductive Timed (α : Type)
  /-- It does not. -/
  | known (a : α)
  /-- It does, in this way. -/
  | waiting (f : Binary64 → α)

namespace Timed

variable {α β : Type}

/-- What it is after a run of so many seconds. -/
def after (seconds : Binary64) : Timed α → α
  | known a => a
  | waiting f => f seconds

/-- What a function makes of it. -/
def map (g : α → β) : Timed α → Timed β
  | known a => known (g a)
  | waiting f => waiting (g ∘ f)

end Timed

/-- What ends the command without an exit code. -/
inductive Crash
  /-- The configuration cannot be loaded. -/
  | config (e : ConfigError)
  /-- The configuration gives no threshold for notes. -/
  | level (e : LevelError)
  /-- The path of the output holds a null character in front of its last name. -/
  | nullInFolder
  deriving DecidableEq, Repr

/-- How the command ends. -/
inductive Ending
  /-- With an exit code. -/
  | exit (code : Nat)
  /-- Without one. -/
  | crash (c : Crash)
  deriving DecidableEq, Repr

/-- What a run of the command has done. -/
structure Done where
  /-- How it ended. -/
  ending : Ending
  /-- What is on standard output. -/
  stdout : Text := []
  /-- The notes in order. -/
  notes : List Note := []
  /-- The file tree afterwards. -/
  tree : FileTree

/-- Ends the command with an error. -/
def failed (tree : FileTree) (notes : List Note) (message : Text) : Done :=
  { ending := .exit 1, notes := notes ++ [.commandFailed message], tree := tree }

/-- The message for a run without a result. -/
def runErrorMessage (e : RunError) : Text :=
  match e with
  | .missing _ | .noFile _ | .unknownEncoding .. => e.message
  | .file e => fileFailed e
  | .brokenEncoding _ | .nullInEncoding | .surrogatesInEncoding _ | .noEncoding _ | .fault _ =>
    runFailed e.message

/-- The input of the run: the input file, or else standard input. -/
def inputOf (a : Arguments) (host : Host) (tree : FileTree) : Except FileError (Option Input) :=
  match a.input.path? with
  | none => .ok host.stdin
  | some p => (tree.read p).map fun bytes ↦ some (.ofBytes bytes)

/-- The name of the character set that a setting gives; nothing stands for the usual one. -/
def encodingOf : Yaml → EncodingName
  | .null => .name "utf-8".toList
  | .text t => .name t
  | .surrogates points =>
    match CodePoint.unencodable? points with
    | some run => .surrogates run
    | none => .other "str"
  | v => .other v.kind

/-- How the arguments and the configuration ask for a program to be run. -/
def optionsOf (a : Arguments) (config : Config) (host : Host) (input : Option Input) :
    Except String RunOptions := do
  let source ← config.section? "source"
  let encoding := encodingOf (Config.field source "encoding" (.text "utf-8".toList))
  let includeInfo ←
    if a.includeSourceInfo then pure true
    else do
      let output ← config.section? "output"
      pure (Config.field output "include_source_info" (.bool false)).isTruthy
  return { limits := host.limits, input := input, encoding := encoding, further := host.further,
           includeSourceInfo := includeInfo }

/-- A run that has a result still to be delivered. -/
structure Pending where
  /-- The result. -/
  result : RunResult
  /-- The notes so far. -/
  notes : List Note
  /-- The file tree so far. -/
  tree : FileTree

/-- The run of the source file, or else of the built-in program. -/
def runSource (a : Arguments) (options : RunOptions) (tree : FileTree) : Run :=
  match a.source with
  | none => runSample options
  | some p => runFile options tree p

/-- Runs the program that the arguments ask for. -/
def runRequested (a : Arguments) (config : Config) (host : Host) (tree : FileTree) :
    Except Done Pending :=
  match inputOf a host tree with
  | .error e => .error (failed tree [] (fileFailed e))
  | .ok input =>
    match optionsOf a config host input with
    | .error kind => .error (failed tree [] (noSection kind))
    | .ok options =>
      let run := runSource a options tree
      let notes := (if a.source.isNone then [Note.runningSample] else []) ++ run.notes
      match run.result with
      | .error e => .error (failed tree notes (runErrorMessage e))
      | .ok r => .ok ⟨r, notes, tree⟩

/-- Makes the folder of the output file, then runs the program. -/
def attempt (a : Arguments) (config : Config) (host : Host) (tree : FileTree) :
    Except Done Pending :=
  match a.output.path? with
  | none => runRequested a config host tree
  | some p =>
    match tree.ensureFolders p.parent with
    | (tree, some .nullInPath) => .error { ending := .crash .nullInFolder, tree := tree }
    | (tree, some e) =>
      .error (failed tree [] ("Failed to create output directory: ".toList ++ e.message))
    | (tree, none) => runRequested a config host tree

/-- Writes content to the output file and ends the command, with an error if the content is only
what could be written of a result. -/
def deliverFile (p : Pending) (path : Path) (content : Text) (message? : Option Text) : Done :=
  match p.tree.write path (Utf8.encode content), message? with
  | .error e, _ => failed p.tree p.notes (fileFailed e)
  | .ok tree, some message => failed tree p.notes message
  | .ok tree, none =>
    { ending := .exit 0, notes := p.notes ++ [.outputWritten path.text], tree := tree }

/-- Delivers a result to its file or to standard output. A file is emptied before it is written,
also if nothing can be. -/
def deliver (a : Arguments) (config : Config) (seconds : Binary64) (p : Pending) : Done :=
  match config.section? "output" with
  | .error kind => failed p.tree p.notes (noSection kind)
  | .ok fields =>
    match render a fields { p.result with seconds := seconds }, a.output.path? with
    | .unrendered message, _ => failed p.tree p.notes message
    | .unwritable message, none => failed p.tree p.notes message
    | .unwritable message, some path => deliverFile p path [] (some message)
    | .ready text _, none =>
      { ending := .exit 0
        stdout := if text.isEmpty then [] else text ++ ['\n']
        notes := p.notes
        tree := p.tree }
    | .ready _ file, some path => deliverFile p path file none

/-- Loads the settings file, runs the program that the arguments ask for and delivers its result. -/
def handle (a : Arguments) (host : Host) (tree : FileTree) : Timed Done :=
  match Config.load tree a.config.path? with
  | .error e => .known { ending := .crash (.config e), tree := tree }
  | .ok config =>
    match attempt a config host tree with
    | .error done => .known done
    | .ok pending => .waiting fun seconds ↦ deliver a config seconds pending

/-! ### The command -/

/-- What the command has done. -/
structure Finished where
  /-- How it ended. -/
  ending : Ending
  /-- What is on standard output. -/
  stdout : Text := []
  /-- The error in the arguments, if that ended it. -/
  usageError : Option Text := none
  /-- The notes shown, in order. -/
  notes : List Note := []
  /-- The file tree afterwards. -/
  tree : FileTree

/-- Ends the command where the reading of its arguments ended. -/
def Early.finish (e : Early) (tree : FileTree) : Finished :=
  match e with
  | .help => { ending := .exit 0, stdout := helpText, tree := tree }
  | .version =>
    { ending := .exit 0, stdout := (commandName ++ " " ++ versionText ++ "\n").toList,
      tree := tree }
  | e => { ending := .exit 2, usageError := e.message?, tree := tree }

/-- The arguments, unless the reading ends early or options exclude each other. -/
def readArguments (argv : List Text) : Except Early Arguments := do
  let a ← Arguments.parse argv
  if a.verbose && a.quiet then throw .excluded else return a

/-- The arguments, and the threshold for notes that they and the settings file ask for. -/
def setUp (argv : List Text) (tree : FileTree) : Except Finished (Arguments × Nat) :=
  match readArguments argv with
  | .error e => .error (e.finish tree)
  | .ok a =>
    match Config.load tree a.config.path? with
    | .error e => .error { ending := .crash (.config e), tree := tree }
    | .ok config =>
      match threshold a config with
      | .error e => .error { ending := .crash (.level e), tree := tree }
      | .ok rank => .ok (a, rank)

/-- Ends the command behind a run of it. -/
def Done.finish (rank : Nat) (d : Done) : Finished :=
  { ending := d.ending, stdout := d.stdout, notes := shownNotes rank d.notes, tree := d.tree }

/-- The command. -/
def command (host : Host) (argv : List Text) (tree : FileTree) : Timed Finished :=
  match setUp argv tree with
  | .error f => .known f
  | .ok (a, rank) => (handle a host tree).map (Done.finish rank)

end Cobol.CommandLine
