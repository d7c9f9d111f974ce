import Cobol.Picture

/-!
# The store

The store holds the slots of a run under their names in upper case, and the pictures of the declared
ones. Every write to a declared slot is coerced to its picture; a slot that was never declared takes
whatever is written to it.

## Shape decisions

* Values and pictures are two tables. `declare` registers the picture before the initial value is
  coerced, so a value that cannot be coerced leaves a picture behind.
* Every operation takes a name in any case; `key` is where it is turned to upper case. A write
  coerces its value under the key, so the name is turned twice on the way to its picture.
-/

namespace Cobol

/-- The slots of a run and the pictures of those that are declared. -/
structure Store where
  /-- The values by name. -/
  values : Table Value := {}
  /-- The pictures by name. -/
  pictures : Table Picture := {}
  deriving DecidableEq, Repr

namespace Store

/-- The form under which a name is kept. -/
def key (name : Text) : Text :=
  Text.upper name

/-- The picture of a declared slot. -/
def picture? (s : Store) (name : Text) : Option Picture :=
  s.pictures.get? (key name)

/-- The slot is declared. -/
def isDeclared (s : Store) (name : Text) : Bool :=
  s.pictures.contains (key name)

/-- The slot exists. -/
def contains (s : Store) (name : Text) : Bool :=
  s.values.contains (key name)

/-- The value of a slot, zero if there is none. -/
def get (s : Store) (name : Text) : Value :=
  (s.values.get? (key name)).getD (.number 0)

/-- A value as the slot would hold it. -/
def coerce (s : Store) (name : Text) (v : Value) : Except Fault Value :=
  match s.picture? name with
  | none => .ok v
  | some p => p.coerce v

/-- Writes a value to a slot. -/
def set (s : Store) (name : Text) (v : Value) : Except Fault Store :=
  (s.coerce (key name) v).map fun w ↦ { s with values := s.values.put (key name) w }

/-- The store with the picture registered. -/
def register (s : Store) (name : Text) (p : Picture) : Store :=
  { s with pictures := s.pictures.put (key name) p }

/-- The initial value of a slot: the given one as the slot holds it, else the blank one of its
picture. -/
def initial (s : Store) (name : Text) (p : Picture) : Option Value → Except Fault Value
  | none => p.blank
  | some v => s.coerce (key name) v

/-- Declares a slot with its picture and initial value; without a value it is blank. The store
behind a failed declaration keeps the picture. -/
def declare (s : Store) (name : Text) (p : Picture) (v : Option Value) : Store × Option Fault :=
  let registered := s.register name p
  match registered.initial name p v with
  | .ok w => ({ registered with values := s.values.put (key name) w }, none)
  | .error fault => (registered, some fault)

/-- The number of slots. -/
def size (s : Store) : Nat :=
  s.values.size

end Store

end Cobol
