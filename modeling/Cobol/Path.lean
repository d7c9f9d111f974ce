import Cobol.Text.Line

/-!
# Paths

A path is a root (none, one slash or two) and the names below it. Repeated slashes and single dots
have no meaning and are dropped when a path is read; a double dot is a name like any other here, and
only looking a path up gives it its meaning.
-/

namespace Cobol

open Text

/-- A path of the file tree. -/
structure Path where
  /-- The slashes before the first name. -/
  root : Text
  /-- The names. -/
  parts : List Text
  deriving DecidableEq, Repr

namespace Path

/-- The root of a path text: two slashes are kept, any other number counts as one. -/
def rootOf (t : Text) : Text :=
  match (t.takeWhile (· == '/')).length with
  | 0 => []
  | 2 => ['/', '/']
  | _ => ['/']

/-- Reads a path. -/
def ofText (t : Text) : Path :=
  ⟨rootOf t, (t.splitOnP (· == '/')).filter fun part ↦ !part.isEmpty && part != ['.']⟩

/-- The text of a path; a path without root and names is a dot. -/
def text (p : Path) : Text :=
  match p.root ++ ['/'].intercalate p.parts with
  | [] => ['.']
  | t => t

/-- The path holds a null character, which no file system takes. -/
def hasNull (p : Path) : Bool :=
  p.parts.any fun part ↦ part.contains '\x00'

/-- The last name. -/
def name (p : Path) : Text :=
  p.parts.getLast?.getD []

/-- The path without its last name. -/
def parent (p : Path) : Path :=
  { p with parts := p.parts.dropLast }

/-- The path does not depend on the current directory. -/
def isAbsolute (p : Path) : Bool :=
  !p.root.isEmpty

/-- A path below another; an absolute path stays itself. -/
def below (directory p : Path) : Path :=
  if p.isAbsolute then p else { directory with parts := directory.parts ++ p.parts }

end Path

end Cobol
