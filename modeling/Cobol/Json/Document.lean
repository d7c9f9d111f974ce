import Cobol.Decimal.Shortest
import Cobol.Path
import Cobol.Table
import Cobol.Value

/-!
# Documents

The data that a result is written as: the values of JSON, with integers and binary numbers apart,
paths, which are written as their texts, and foreign things, which cannot be written at all. The
names of an object keep their order; `sortNames` puts them in the order of their code points.
-/

namespace Cobol.Json

/-- A document. -/
inductive Document
  /-- `null` -/
  | null
  /-- A truth value. -/
  | bool (b : Bool)
  /-- An integer. -/
  | integer (n : Int)
  /-- A binary number. -/
  | number (x : Binary64)
  /-- A text. -/
  | text (t : Text)
  /-- A path. -/
  | path (p : Path)
  /-- A list. -/
  | array (items : List Document)
  /-- Documents under names. -/
  | object (fields : List (Text × Document))
  /-- Something that has no written form. -/
  | foreign

namespace Document

/-- The object of a list of fields; the last field of a repeated name counts, in the place of the
first. -/
def ofFields (fields : List (Text × Document)) : Document :=
  .object (Table.ofList fields).entries

/-- The order of fields by name. -/
def fieldLE (a b : Text × Document) : Bool :=
  (Text.order a.1 b.1).isLE

mutual

/-- The document with the names of every object in order. -/
def sortNames : Document → Document
  | .array items => .array (sortItems items)
  | .object fields => .object ((sortFields fields).mergeSort fieldLE)
  | d => d

/-- `sortNames` on every item of a list. -/
def sortItems : List Document → List Document
  | [] => []
  | d :: rest => sortNames d :: sortItems rest

/-- `sortNames` on every field of an object. -/
def sortFields : List (Text × Document) → List (Text × Document)
  | [] => []
  | (name, d) :: rest => (name, sortNames d) :: sortFields rest

end

/-- An object without the field of a name. -/
def dropField (name : Text) : Document → Document
  | .object fields => .object (fields.filter (·.1 != name))
  | d => d

end Document

end Cobol.Json
