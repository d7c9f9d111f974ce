import Cobol.Json.Document
import Cobol.Proofs.Value
import Mathlib.Data.List.Nodup

/-!
# Documents as values

What a document says, apart from how it is written: paths count as their texts (`Document.textual`),
and objects are told apart only by what stands under which name (`Document.Alike`).

* `Document.induction`: what holds of a list or an object whose parts it holds of, holds of every
  document. The functions on documents go through lists by functions of their own; these are maps
  and checks of all members, so that no proof has to follow their recursion.
* `Document.alike_sortNames`: sorting the names changes nothing that a document says.
* `Document.inOrder_sortNames`: it puts the names of every object in the order of their code points.

## Shape decisions

* `Alike` looks from the fields of one object to those of the other. For distinct names and lists of
  one length this is both directions, and distinct names are what `isPlain` asks for.
* Sorting is the library's stable sort by the order of the names. As the names are distinct, nothing
  depends on its being stable.
-/

namespace Cobol

/-! ### Fields -/

/-- The document under a name, if no name is repeated. -/
theorem lookup_of_mem {α : Type} {fields : List (Text × α)} (h : (fields.map (·.1)).Nodup)
    {field : Text × α} (hfield : field ∈ fields) : fields.lookup field.1 = some field.2 := by
  induction fields with
  | nil => cases hfield
  | cons first rest ih =>
    obtain ⟨hfirst, hrest⟩ := List.nodup_cons.1 h
    rcases List.mem_cons.1 hfield with rfl | hmem
    · rw [List.lookup_cons, beq_self_eq_true]
    · have hne : field.1 ≠ first.1 := by
        intro heq
        exact hfirst (List.mem_map.2 ⟨field, hmem, heq⟩)
      rw [List.lookup_cons, beq_eq_false_iff_ne.2 hne]
      exact ih hrest hmem

namespace Json.Document

/-! ### Induction -/

/-- Induction over documents, with what is to be shown for all members of a list or an object. -/
@[induction_eliminator]
theorem induction {P : Document → Prop} (null : P .null) (bool : ∀ b, P (.bool b))
    (integer : ∀ n, P (.integer n)) (number : ∀ x, P (.number x)) (text : ∀ t, P (.text t))
    (path : ∀ p, P (.path p)) (array : ∀ items, (∀ d ∈ items, P d) → P (.array items))
    (object : ∀ fields : List (Text × Document), (∀ f ∈ fields, P f.2) → P (.object fields))
    (foreign : P .foreign) (d : Document) : P d := by
  match d with
  | .null => exact null
  | .bool b => exact bool b
  | .integer n => exact integer n
  | .number x => exact number x
  | .text t => exact text t
  | .path p => exact path p
  | .array items =>
    exact array items fun d _ ↦
      induction null bool integer number text path array object foreign d
  | .object fields =>
    exact object fields fun f _ ↦
      induction null bool integer number text path array object foreign f.2
  | .foreign => exact foreign
-- a field is smaller than its object, and the document in it smaller than the field
termination_by sizeOf d
decreasing_by
  · have := List.sizeOf_lt_of_mem ‹_›
    simp only [Document.array.sizeOf_spec]
    omega
  · have hmem := List.sizeOf_lt_of_mem ‹_›
    have hfield : sizeOf f.2 < sizeOf f := by
      obtain ⟨name, d⟩ := f
      simp only [Prod.mk.sizeOf_spec]
      omega
    simp only [Document.object.sizeOf_spec]
    omega

/-! ### Paths as texts -/

mutual

/-- The document with the texts of its paths in their place. -/
def textual : Document → Document
  | .path p => .text p.text
  | .array items => .array (textualItems items)
  | .object fields => .object (textualFields fields)
  | d => d

/-- `textual` on every item of a list. -/
def textualItems : List Document → List Document
  | [] => []
  | d :: rest => textual d :: textualItems rest

/-- `textual` on every field of an object. -/
def textualFields : List (Text × Document) → List (Text × Document)
  | [] => []
  | (name, d) :: rest => (name, textual d) :: textualFields rest

end

theorem textualItems_eq_map (items : List Document) : textualItems items = items.map textual := by
  induction items with
  | nil => rfl
  | cons d rest ih => rw [textualItems, ih, List.map_cons]

theorem textualFields_eq_map (fields : List (Text × Document)) :
    textualFields fields = fields.map fun f ↦ (f.1, f.2.textual) := by
  induction fields with
  | nil => rfl
  | cons f rest ih => rw [textualFields, ih, List.map_cons]

theorem sortItems_eq_map (items : List Document) : sortItems items = items.map sortNames := by
  induction items with
  | nil => rfl
  | cons d rest ih => rw [sortItems, ih, List.map_cons]

theorem sortFields_eq_map (fields : List (Text × Document)) :
    sortFields fields = fields.map fun f ↦ (f.1, f.2.sortNames) := by
  induction fields with
  | nil => rfl
  | cons f rest ih => rw [sortFields, ih, List.map_cons]

/-! ### Plain documents -/

mutual

/-- The document has no binary numbers and nothing foreign, its integers are within the digit limit,
and the names of each of its objects are distinct. -/
def isPlain : Document → Bool
  | .integer n => n.natAbs < Nat.pow 10 digitLimit
  | .number _ | .foreign => false
  | .array items => plainItems items
  | .object fields => decide (fields.map (·.1)).Nodup && plainFields fields
  | _ => true

/-- `isPlain` of every item of a list. -/
def plainItems : List Document → Bool
  | [] => true
  | d :: rest => isPlain d && plainItems rest

/-- `isPlain` of every field of an object. -/
def plainFields : List (Text × Document) → Bool
  | [] => true
  | (_, d) :: rest => isPlain d && plainFields rest

end

/-- Items are plain if each of them is. -/
theorem plainItems_iff {items : List Document} :
    plainItems items = true ↔ ∀ d ∈ items, d.isPlain = true := by
  induction items with
  | nil => simp [plainItems]
  | cons d rest ih => rw [plainItems, Bool.and_eq_true, ih, List.forall_mem_cons]

/-- Fields are plain if what stands under each name is. -/
theorem plainFields_iff {fields : List (Text × Document)} :
    plainFields fields = true ↔ ∀ f ∈ fields, f.2.isPlain = true := by
  induction fields with
  | nil => simp [plainFields]
  | cons f rest ih => rw [plainFields, Bool.and_eq_true, ih, List.forall_mem_cons]

/-- An object is plain if its names are distinct and its fields are plain. -/
theorem isPlain_object_iff {fields : List (Text × Document)} :
    (object fields).isPlain = true ↔
      (fields.map (·.1)).Nodup ∧ ∀ f ∈ fields, f.2.isPlain = true := by
  rw [isPlain, Bool.and_eq_true, decide_eq_true_eq, plainFields_iff]

/-- The fields of an object with its names sorted are those of the object, with the names inside
them sorted. -/
theorem sorted_perm (fields : List (Text × Document)) :
    ((sortFields fields).mergeSort fieldLE).Perm (fields.map fun f ↦ (f.1, f.2.sortNames)) := by
  rw [← sortFields_eq_map]
  exact List.mergeSort_perm _ _

/-- Sorted names stay distinct. -/
theorem nodup_sorted {fields : List (Text × Document)} (h : (fields.map (·.1)).Nodup) :
    (((sortFields fields).mergeSort fieldLE).map (·.1)).Nodup := by
  rw [((sorted_perm fields).map _).nodup_iff, List.map_map]
  exact h

/-- Sorting names keeps a document plain. -/
theorem isPlain_sortNames {d : Document} (h : d.isPlain = true) : d.sortNames.isPlain = true := by
  induction d with
  | null | bool _ | integer _ | number _ | text _ | path _ | foreign => exact h
  | array items ih =>
    rw [isPlain, plainItems_iff] at h
    rw [sortNames, isPlain, plainItems_iff, sortItems_eq_map]
    intro d hd
    obtain ⟨d, hmem, rfl⟩ := List.mem_map.1 hd
    exact ih d hmem (h d hmem)
  | object fields ih =>
    obtain ⟨hnames, hfields⟩ := isPlain_object_iff.1 h
    rw [sortNames, isPlain_object_iff]
    refine ⟨nodup_sorted hnames, fun f hf ↦ ?_⟩
    obtain ⟨f, hmem, rfl⟩ := List.mem_map.1 ((sorted_perm fields).mem_iff.1 hf)
    exact ih f hmem (hfields f hmem)

/-! ### The same document -/

mutual

/-- The same document, if objects are told apart only by what stands under which name. -/
def Alike : Document → Document → Prop
  | .array items, .array others => AlikeItems items others
  | .object fields, .object others => fields.length = others.length ∧ AlikeFields fields others
  | .array _, _ | .object _, _ => False
  | d, e => d = e

/-- Lists of the same documents in the same order. -/
def AlikeItems : List Document → List Document → Prop
  | [], [] => True
  | d :: rest, e :: others => Alike d e ∧ AlikeItems rest others
  | _, _ => False

/-- What stands under a name stands there in the other object as well. -/
def AlikeFields : List (Text × Document) → List (Text × Document) → Prop
  | [], _ => True
  | (name, d) :: rest, others =>
    (∃ e, others.lookup name = some e ∧ Alike d e) ∧ AlikeFields rest others

end

/-- Arrays of documents that are alike are alike. -/
theorem alikeItems_map {f g : Document → Document} {items : List Document}
    (h : ∀ d ∈ items, Alike (f d) (g d)) : AlikeItems (items.map f) (items.map g) := by
  induction items with
  | nil => trivial
  | cons d rest ih =>
    obtain ⟨hd, hrest⟩ := List.forall_mem_cons.1 h
    exact ⟨hd, ih hrest⟩

/-- Fields are alike if each of them stands under its name among the others, with something alike.
-/
theorem alikeFields_iff {fields others : List (Text × Document)} :
    AlikeFields fields others ↔
      ∀ f ∈ fields, ∃ e, others.lookup f.1 = some e ∧ Alike f.2 e := by
  induction fields with
  | nil => simp [AlikeFields]
  | cons f rest ih => rw [AlikeFields, ih, List.forall_mem_cons]

/-- Sorting the names of a document leaves it the same. -/
theorem alike_sortNames {d : Document} (h : d.isPlain = true) :
    Alike d.textual d.sortNames.textual := by
  induction d with
  | null | bool _ | integer _ | number _ | text _ | path _ | foreign => rfl
  | array items ih =>
    rw [isPlain, plainItems_iff] at h
    rw [sortNames, textual, textual, textualItems_eq_map, textualItems_eq_map, sortItems_eq_map,
      List.map_map]
    exact alikeItems_map fun d hd ↦ ih d hd (h d hd)
  | object fields ih =>
    obtain ⟨hnames, hfields⟩ := isPlain_object_iff.1 h
    rw [sortNames, textual, textual, textualFields_eq_map, textualFields_eq_map]
    refine ⟨?_, alikeFields_iff.2 fun f hf ↦ ?_⟩
    · rw [List.length_map, List.length_map, (sorted_perm fields).length_eq, List.length_map]
    · obtain ⟨f, hmem, rfl⟩ := List.mem_map.1 hf
      -- The field is found among the sorted ones because no other has its name.
      have hsorted : (f.1, f.2.sortNames) ∈ (sortFields fields).mergeSort fieldLE :=
        (sorted_perm fields).mem_iff.2 (List.mem_map.2 ⟨f, hmem, rfl⟩)
      have hdistinct : (((sortFields fields).mergeSort fieldLE).map
          fun f ↦ (f.1, f.2.textual)).map (·.1) |>.Nodup := by
        rw [List.map_map]
        exact nodup_sorted hnames
      exact ⟨f.2.sortNames.textual, lookup_of_mem hdistinct (List.mem_map_of_mem hsorted),
        ih f hmem (hfields f hmem)⟩

/-! ### Names in order -/

mutual

/-- The names of every object are distinct and in the order of their code points. -/
def InOrder : Document → Prop
  | .array items => ItemsInOrder items
  | .object fields => fields.Pairwise (·.1 < ·.1) ∧ FieldsInOrder fields
  | _ => True

/-- `InOrder` of every item of a list. -/
def ItemsInOrder : List Document → Prop
  | [] => True
  | d :: rest => InOrder d ∧ ItemsInOrder rest

/-- `InOrder` of every field of an object. -/
def FieldsInOrder : List (Text × Document) → Prop
  | [] => True
  | (_, d) :: rest => InOrder d ∧ FieldsInOrder rest

end

/-- Items are in order if each of them is. -/
theorem itemsInOrder_iff {items : List Document} :
    ItemsInOrder items ↔ ∀ d ∈ items, d.InOrder := by
  induction items with
  | nil => simp [ItemsInOrder]
  | cons d rest ih => rw [ItemsInOrder, ih, List.forall_mem_cons]

/-- Fields are in order if what stands under each name is. -/
theorem fieldsInOrder_iff {fields : List (Text × Document)} :
    FieldsInOrder fields ↔ ∀ f ∈ fields, f.2.InOrder := by
  induction fields with
  | nil => simp [FieldsInOrder]
  | cons f rest ih => rw [FieldsInOrder, ih, List.forall_mem_cons]

/-- Distinct names that have been sorted are strictly in order. -/
theorem pairwise_mergeSort_fieldLE {fields : List (Text × Document)}
    (h : (fields.map (·.1)).Nodup) : (fields.mergeSort fieldLE).Pairwise (·.1 < ·.1) := by
  have hsorted : (fields.mergeSort fieldLE).Pairwise (fieldLE · · = true) := by
    refine List.pairwise_mergeSort (fun a b c hab hbc ↦ ?_) (fun a b ↦ ?_) fields
    · rw [fieldLE, Text.isLE_order_iff] at hab hbc ⊢
      exact le_trans hab hbc
    · rw [Bool.or_eq_true, fieldLE, fieldLE, Text.isLE_order_iff, Text.isLE_order_iff]
      exact le_total a.1 b.1
  have hdistinct : (fields.mergeSort fieldLE).Pairwise (·.1 ≠ ·.1) := by
    rw [← List.pairwise_map]
    exact (((List.mergeSort_perm fields fieldLE).map _).nodup_iff).2 h
  exact (hsorted.and hdistinct).imp fun ⟨hle, hne⟩ ↦ lt_of_le_of_ne (Text.isLE_order_iff.1 hle) hne

/-- **Sorted names are in order**, in every object of the document. -/
theorem inOrder_sortNames {d : Document} (h : d.isPlain = true) : d.sortNames.textual.InOrder := by
  induction d with
  | null | bool _ | integer _ | number _ | text _ | path _ | foreign => trivial
  | array items ih =>
    rw [isPlain, plainItems_iff] at h
    rw [sortNames, textual, InOrder, itemsInOrder_iff, textualItems_eq_map, sortItems_eq_map,
      List.map_map]
    intro d hd
    obtain ⟨d, hmem, rfl⟩ := List.mem_map.1 hd
    exact ih d hmem (h d hmem)
  | object fields ih =>
    obtain ⟨hnames, hfields⟩ := isPlain_object_iff.1 h
    have hsorted : ((sortFields fields).map (·.1)).Nodup := by
      rw [sortFields_eq_map, List.map_map]
      exact hnames
    rw [sortNames, textual, InOrder, fieldsInOrder_iff, textualFields_eq_map, List.pairwise_map]
    refine ⟨pairwise_mergeSort_fieldLE hsorted, fun f hf ↦ ?_⟩
    obtain ⟨g, hg, rfl⟩ := List.mem_map.1 hf
    obtain ⟨f, hmem, rfl⟩ := List.mem_map.1 ((sorted_perm fields).mem_iff.1 hg)
    exact ih f hmem (hfields f hmem)

end Json.Document

end Cobol
