import Cobol.Encoding.Utf8
import Cobol.Path
import Cobol.Text.Shown

/-!
# File trees

The files and folders that a command sees, as a value. A path is looked up name by name from the
current folder; a double dot leads to the folder above. Every operation that can fail names the path
it was given.

## Shape decisions

* Nodes are kept under their full lists of names, so the content of a file is one look-up, and
  writing one file leaves every other as it was.
* Looking a path up distinguishes a node, a free place in an existing folder, and the ways in which
  a path leads nowhere (`Place`, `FileErrorKind`).
* Names and paths have limits in bytes. A path with a null character names no place at all; it is
  refused before anything is looked up (`FileError.nullInPath`).
-/

namespace Cobol

/-- What stands at a place of the tree. -/
inductive Node
  /-- A file with its bytes. -/
  | file (content : List UInt8)
  /-- A folder. -/
  | folder
  deriving DecidableEq, Repr

/-- The ways in which an operation on a path fails. -/
inductive FileErrorKind
  /-- The path leads nowhere. -/
  | missing
  /-- Something stands there already. -/
  | occupied
  /-- The path leads through a file. -/
  | notFolder
  /-- The path leads to a folder. -/
  | isFolder
  /-- The path or a name in it is too long. -/
  | tooLong
  deriving DecidableEq, Repr

namespace FileErrorKind

/-- The number of an error. -/
def number : FileErrorKind → Nat
  | missing => 2
  | occupied => 17
  | notFolder => 20
  | isFolder => 21
  | tooLong => 36

/-- The wording of an error. -/
def wording : FileErrorKind → String
  | missing => "No such file or directory"
  | occupied => "File exists"
  | notFolder => "Not a directory"
  | isFolder => "Is a directory"
  | tooLong => "File name too long"

end FileErrorKind

/-- A failed operation on a path. -/
inductive FileError
  /-- The file system refuses the path. -/
  | refused (kind : FileErrorKind) (path : Path)
  /-- The path holds a null character. -/
  | nullInPath
  deriving DecidableEq, Repr

/-- The wording of a failed operation. -/
def FileError.message : FileError → Text
  | .refused kind path =>
    "[Errno ".toList ++ Nat.toDigits 10 kind.number ++ "] ".toList ++ kind.wording.toList ++
      ": ".toList ++ Text.shown path.text
  | .nullInPath => "embedded null byte".toList

/-- Files and folders, and the folder in which relative paths start. -/
structure FileTree where
  /-- The nodes by their names from the root, which is a folder without an entry. -/
  nodes : List (List Text × Node) := []
  /-- The current folder. -/
  current : List Text := []

namespace FileTree

/-- The node with the given names. -/
def node? (t : FileTree) (names : List Text) : Option Node :=
  if names.isEmpty then some .folder else t.nodes.lookup names

/-- Where a path leads: to a node, or to a free place in a folder. -/
inductive Place
  /-- A node. -/
  | node (names : List Text) (n : Node)
  /-- A free place. -/
  | free (names : List Text)

/-- The greatest number of bytes of a name. -/
def nameLimit : Nat := 255

/-- The greatest number of bytes of a path. -/
def pathLimit : Nat := 4095

/-- The number of bytes of a text. -/
def byteCount (t : Text) : Nat :=
  (Utf8.encode t).length

/-- Follows names from a folder. -/
def follow (t : FileTree) (folder : List Text) : List Text → Except FileErrorKind Place
  | [] => .ok (.node folder .folder)
  | name :: rest =>
    if name = ['.', '.'] then follow t folder.dropLast rest
    else if nameLimit < byteCount name then .error .tooLong
    else
      match t.node? (folder ++ [name]), rest with
      | some .folder, _ => follow t (folder ++ [name]) rest
      | some (.file content), [] => .ok (.node (folder ++ [name]) (.file content))
      | some (.file _), _ :: _ => .error .notFolder
      | none, [] => .ok (.free (folder ++ [name]))
      | none, _ :: _ => .error .missing

/-- Looks a path up. -/
def locate (t : FileTree) (p : Path) : Except FileError Place :=
  if p.hasNull then .error .nullInPath
  else if pathLimit < byteCount p.text then .error (.refused .tooLong p)
  else (t.follow (if p.isAbsolute then [] else t.current) p.parts).mapError (.refused · p)

/-- What stands at a path, if anything. A path that is too long is an error, any other that leads
nowhere has nothing there. -/
def find? (t : FileTree) (p : Path) : Except FileError (Option Node) :=
  match t.locate p with
  | .ok (.node _ n) => .ok (some n)
  | .error (.refused .tooLong p) => .error (.refused .tooLong p)
  | _ => .ok none

/-- The path leads to a folder. -/
def isFolder (t : FileTree) (p : Path) : Bool :=
  match t.locate p with
  | .ok (.node _ .folder) => true
  | _ => false

/-- The content of a file. -/
def read (t : FileTree) (p : Path) : Except FileError (List UInt8) :=
  match t.locate p with
  | .ok (.node _ (.file content)) => .ok content
  | .ok (.node _ .folder) => .error (.refused .isFolder p)
  | .ok (.free _) => .error (.refused .missing p)
  | .error e => .error e

/-- Puts a node in the place of another, or adds it. -/
def putNode (names : List Text) (n : Node) : List (List Text × Node) → List (List Text × Node)
  | [] => [(names, n)]
  | (key, old) :: rest =>
    if names == key then (key, n) :: rest else (key, old) :: putNode names n rest

/-- The tree with a node at a place. -/
def put (t : FileTree) (names : List Text) (n : Node) : FileTree :=
  { t with nodes := putNode names n t.nodes }

/-- Writes a file, in the place of an earlier one. -/
def write (t : FileTree) (p : Path) (content : List UInt8) : Except FileError FileTree :=
  match t.locate p with
  | .ok (.node names (.file _)) | .ok (.free names) => .ok (t.put names (.file content))
  | .ok (.node _ .folder) => .error (.refused .isFolder p)
  | .error e => .error e

/-- Makes one folder. -/
def makeFolder (t : FileTree) (p : Path) : Except FileError FileTree :=
  match t.locate p with
  | .ok (.free names) => .ok (t.put names .folder)
  | .ok (.node ..) => .error (.refused .occupied p)
  | .error e => .error e

/-- Makes one folder, or finds it there. -/
def ensureFolder (t : FileTree) (p : Path) : Except FileError FileTree :=
  match t.makeFolder p with
  | .ok t => .ok t
  | .error e => if t.isFolder p then .ok t else .error e

/-- Makes a folder and the folders above it that are missing, or finds it there. What has been made
before an error stays. -/
def ensureFolders (t : FileTree) (p : Path) : FileTree × Option FileError :=
  match t.makeFolder p with
  | .ok t => (t, none)
  | .error (.refused .missing q) =>
    if h : p.parts = [] then (t, some (.refused .missing q))
    else
      have := List.length_pos_iff.mpr h
      match ensureFolders t p.parent with
      | (t, some e) => (t, some e)
      | (t, none) =>
        match t.ensureFolder p with
        | .ok t => (t, none)
        | .error e => (t, some e)
  | .error e => if t.isFolder p then (t, none) else (t, some e)
termination_by p.parts.length
decreasing_by
  simp only [Path.parent, List.length_dropLast]
  omega

/-- Adds a folder with the folders above it, without looking any of them up. -/
def plantFolder (t : FileTree) (names : List Text) : FileTree :=
  (List.range names.length).foldl (fun t i ↦ t.put (names.take (i + 1)) .folder) t

/-- Adds a file with the folders above it, without looking any of them up. -/
def plantFile (t : FileTree) (names : List Text) (content : List UInt8) : FileTree :=
  (t.plantFolder names.dropLast).put names (.file content)

/-- The files that are new or have another content than in an earlier tree, by their names. -/
def changedSince (t before : FileTree) : List (List Text × List UInt8) :=
  t.nodes.filterMap fun (names, n) ↦
    match n with
    | .file content => if before.node? names = some n then none else some (names, content)
    | .folder => none

end FileTree

end Cobol
