import Cobol.CommandLine.Command

/-!
# The program

The command line on a real file system. What the command can see is read beforehand into a file tree
(`survey`), the command runs on that, and what it has changed is written back (`apply`). Standard
input is read to its end beforehand, unless a file supplies the input, and it is decoded like the
input file: the read that reaches malformed bytes fails. The platform has no further character sets.
-/

namespace Cobol.CommandLine

open Text

/-- The text of a path from its names. -/
def absoluteText (names : List Text) : String :=
  String.ofList (Path.text ⟨['/'], names⟩)

/-- What stands at a place of the file system whose parent is a folder. -/
def probe (names : List Text) : IO (Option Node) := do
  try
    return some (.file (← IO.FS.readBinFile (absoluteText names)).toList)
  catch e =>
    match e with
    | .inappropriateType .. => return some .folder
    | _ => return none

/-- Adds what a path leads through, from a folder on, to a tree. -/
def surveyFrom (tree : FileTree) (folder : List Text) : List Text → IO FileTree
  | [] => return tree
  | name :: rest => do
    if name = ['.', '.'] then surveyFrom tree folder.dropLast rest
    else
      let names := folder ++ [name]
      match ← probe names with
      | some .folder => surveyFrom (tree.put names .folder) names rest
      | some node => return tree.put names node
      | none => return tree

/-- The part of the file system that the arguments speak of. -/
def survey (argv : List Text) : IO FileTree := do
  let current := (Path.ofText (← IO.currentDir).toString.toList).parts
  let tree := ({ current := current } : FileTree).plantFolder current
  match Arguments.parse argv with
  | .error _ => return tree
  | .ok a =>
    ([a.source, a.input.path?, a.config.path?, a.output.path?].filterMap id).foldlM
      (fun tree path ↦ surveyFrom tree (if path.isAbsolute then [] else current) path.parts) tree

/-- Writes what is new or changed in a tree to the file system. -/
def apply (before after : FileTree) : IO Unit := do
  for (names, node) in after.nodes do
    if node = .folder && (before.node? names).isNone then
      IO.FS.createDirAll (absoluteText names)
  for (names, content) in after.changedSince before do
    IO.FS.writeBinFile (absoluteText names) ⟨content.toArray⟩

/-- Reads standard input to its end. -/
partial def readInput (input : IO.FS.Stream) (read : List UInt8) : IO (List UInt8) := do
  let more ← input.read 65536
  if more.isEmpty then return read else readInput input (read ++ more.toList)

/-- Shows and writes what the command has done, and gives its exit code. -/
def report (before : FileTree) (f : Finished) : IO UInt32 := do
  apply before f.tree
  IO.print (String.ofList f.stdout)
  match f.usageError with
  | none => pure ()
  | some message =>
    IO.eprint (String.ofList usageText)
    IO.eprintln (commandName ++ ": error: " ++ String.ofList message)
  for n in f.notes do
    IO.eprintln (String.ofList (noteLine (toString (← IO.monoMsNow)).toList n))
  match f.ending with
  | .exit code => return code.toUInt32
  | .crash _ =>
    IO.eprintln (commandName ++ ": the configuration or the output path cannot be used")
    return 1

/-- The arguments ask for a run whose input no file supplies. -/
def needsInput (argv : List Text) : Bool :=
  match readArguments argv with
  | .error _ => false
  | .ok a => a.input.path?.isNone

/-- The command on the real file system, timed by the clock. -/
def run (argv : List Text) : IO UInt32 := do
  let tree ← survey argv
  let bytes ← if needsInput argv then readInput (← IO.getStdin) [] else pure []
  let start ← IO.monoMsNow
  let finished ← IO.lazyPure fun _ ↦ command { stdin := some (.ofBytes bytes) } argv tree
  let seconds := Binary64.ofQuotient false ((← IO.monoMsNow) - start) 1000
  report tree (finished.after seconds)

end Cobol.CommandLine

/-- The program. -/
def main (args : List String) : IO UInt32 :=
  Cobol.CommandLine.run (args.map String.toList)
