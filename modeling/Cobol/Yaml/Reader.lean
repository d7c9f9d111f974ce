import Cobol.Yaml.Node

/-!
# Reading settings

The value of a settings text: its tokens make a tree (`Node.ofTokens`), and the scalars of the tree
denote values (`ofPlain`).

## Shape decisions

* The key `<<` takes the fields of other mappings into its own. `Node.merged` does that for the
  whole tree first; what is left are mappings whose keys are values.
* A tree may have several faults, on several levels. A list or a mapping is filled only after the
  one around it, so the fault of the lowest level counts, and of several on one level the first
  (`lowest?`). The value itself is then built without any regard to faults.
-/

namespace Cobol.Yaml

namespace Node

/-! ### Merging -/

/-- A key that takes the fields of other mappings. -/
def isMerge : Node → Bool
  | plain t => t == mergeMark
  | _ => false

/-- The fields of a mapping that takes none from others. -/
def plainFields? : Node → Option (List (Node × Node))
  | mapping fields => if fields.any fun f ↦ isMerge f.1 then none else some fields
  | _ => none

/-- The fields that a value under the key `<<` stands for, in the order in which they are put. Only
a mapping or a list of mappings stands for any, and of a list the first mapping is put last. -/
def sources? : Node → Option (List (Node × Node))
  | sequence items => (items.reverse.mapM plainFields?).map List.flatten
  | node => plainFields? node

/-- A key as it counts: the mark for a value is a text here. -/
def asKey : Node → Node
  | plain t => if t = valueMark then quoted (points t) else plain t
  | node => node

/-- The mapping of fields, of which those that are merged come first. Where there is no mapping to
take from, the merging key is all that stays, and denotes nothing. -/
def ofFields (fields : List (Node × Node)) : Node :=
  let (merges, own) := fields.partition fun f ↦ isMerge f.1
  match merges.mapM fun f ↦ sources? f.2 with
  | some taken => mapping (taken.flatten ++ own)
  | none => mapping [(plain mergeMark, empty)]

mutual

/-- The tree with all fields merged. -/
def merged : Node → Node
  | plain t => plain t
  | quoted points => quoted points
  | sequence items => sequence (mergedItems items)
  | mapping fields => ofFields (mergedFields fields)

/-- The items with all fields merged. -/
def mergedItems : List Node → List Node
  | [] => []
  | n :: rest => merged n :: mergedItems rest

/-- The fields with all fields in them merged. -/
def mergedFields : List (Node × Node) → List (Node × Node)
  | [] => []
  | (key, value) :: rest => (asKey (merged key), merged value) :: mergedFields rest

end

/-! ### Faults -/

/-- The faults of a plain scalar on a level. -/
def plainFaults (level : Nat) (t : Text) : List (Nat × ReadError) :=
  match ofPlain t with
  | .error e => [(level, e)]
  | .ok _ => []

/-- The faults of a key on a level: lists and mappings are no keys. -/
def keyFaults (level : Nat) : Node → List (Nat × ReadError)
  | plain t => plainFaults level t
  | quoted _ => []
  | sequence _ | mapping _ => [(level, .malformed)]

mutual

/-- The faults in a tree with their levels, from left to right. A list or a mapping fills a level,
and the lists and mappings in it the next. -/
def faults (level : Nat) : Node → List (Nat × ReadError)
  | plain t => plainFaults level t
  | quoted _ => []
  | sequence items => itemFaults (level + 1) items
  | mapping fields => fieldFaults (level + 1) fields

/-- The faults in the items of a list. -/
def itemFaults (level : Nat) : List Node → List (Nat × ReadError)
  | [] => []
  | n :: rest => faults level n ++ itemFaults level rest

/-- The faults in the fields of a mapping. -/
def fieldFaults (level : Nat) : List (Node × Node) → List (Nat × ReadError)
  | [] => []
  | (key, value) :: rest => keyFaults level key ++ faults level value ++ fieldFaults level rest

end

/-- The first fault of the lowest level. -/
def lowest? (faults : List (Nat × ReadError)) : Option ReadError :=
  match faults with
  | [] => none
  | f :: rest => some (rest.foldl (fun a b ↦ if b.1 < a.1 then b else a) f).2

/-! ### Values -/

mutual

/-- The value of a tree without faults. -/
def value : Node → Yaml
  | plain t => (ofPlain t).toOption.getD .null
  | quoted points =>
    match CodePoint.text? points with
    | some t => .text t
    | none => .surrogates points
  | sequence items => .sequence (itemValues items)
  | mapping fields => .mapping (putAll [] (fieldValues fields))

/-- The values of the items of a list. -/
def itemValues : List Node → List Yaml
  | [] => []
  | n :: rest => value n :: itemValues rest

/-- The values of the fields of a mapping. -/
def fieldValues : List (Node × Node) → List (Yaml × Yaml)
  | [] => []
  | (key, v) :: rest => (value key, value v) :: fieldValues rest

end

/-- The value of a tree. -/
def evaluate (node : Node) : Read Yaml :=
  let node := node.merged
  match lowest? (node.faults 0) with
  | some e => .error e
  | none => .ok node.value

end Node

/-- Reads a settings text. -/
def parse (s : Supply) : Read Yaml := do
  let node ← Node.ofTokens (Token.ofSupply s)
  node.evaluate

end Cobol.Yaml
