import Cobol.Text.Basic

/-!
# Tables

A table maps names to entries and remembers the order in which the names came first: putting a name
again replaces its entry in place. Declarations, paragraphs, slots and the objects of a document are
all tables.
-/

namespace Cobol

/-- Entries under distinct names, in the order of first appearance. -/
structure Table (α : Type) where
  /-- The entries in order. -/
  entries : List (Text × α) := []
  deriving DecidableEq, Repr

namespace Table

variable {α : Type}

/-- The table without entries. -/
def empty : Table α := ⟨[]⟩

/-- The entry under a name. -/
def get? (t : Table α) (name : Text) : Option α :=
  t.entries.lookup name

/-- The table has an entry under the name. -/
def contains (t : Table α) (name : Text) : Bool :=
  (t.get? name).isSome

/-- The names in order. -/
def names (t : Table α) : List Text :=
  t.entries.map (·.1)

/-- The number of entries. -/
def size (t : Table α) : Nat :=
  t.entries.length

/-- Replaces the entry under the name in a list of entries, or adds it at the end. -/
def putEntry (name : Text) (entry : α) : List (Text × α) → List (Text × α)
  | [] => [(name, entry)]
  | (key, old) :: rest =>
    if name == key then (key, entry) :: rest else (key, old) :: putEntry name entry rest

/-- Puts an entry under a name, in the place of an earlier one. -/
def put (t : Table α) (name : Text) (entry : α) : Table α :=
  ⟨putEntry name entry t.entries⟩

/-- The table of a list of entries; the last entry of a repeated name counts. -/
def ofList (entries : List (Text × α)) : Table α :=
  entries.foldl (fun t e ↦ t.put e.1 e.2) empty

/-! ### Views -/

theorem lookup_putEntry (name key : Text) (entry : α) (entries : List (Text × α)) :
    (putEntry name entry entries).lookup key =
      if key = name then some entry else entries.lookup key := by
  induction entries with
  | nil =>
    by_cases h : key = name
    · simp [putEntry, h]
    · simp [putEntry, List.lookup_cons, h, beq_eq_false_iff_ne.mpr h]
  | cons e rest ih =>
    obtain ⟨k, old⟩ := e
    by_cases hk : name = k
    · subst hk
      by_cases h : key = name
      · simp [putEntry, h]
      · simp [putEntry, List.lookup_cons, h, beq_eq_false_iff_ne.mpr h]
    · simp only [putEntry, beq_iff_eq, hk, if_false, List.lookup_cons]
      by_cases h : key = k
      · subst h
        simp [Ne.symm hk]
      · rw [beq_eq_false_iff_ne.mpr h]
        exact ih

@[simp]
theorem get?_put (t : Table α) (name key : Text) (entry : α) :
    (t.put name entry).get? key = if key = name then some entry else t.get? key :=
  lookup_putEntry name key entry t.entries

@[simp]
theorem get?_empty (key : Text) : (empty : Table α).get? key = none := rfl

/-- A new name comes last. -/
theorem putEntry_of_not_mem {name : Text} {entries : List (Text × α)}
    (h : name ∉ entries.map (·.1)) (entry : α) :
    putEntry name entry entries = entries ++ [(name, entry)] := by
  induction entries with
  | nil => rfl
  | cons e rest ih =>
    obtain ⟨hne, hrest⟩ : name ≠ e.1 ∧ name ∉ rest.map (·.1) := by simpa using h
    rw [putEntry, beq_eq_false_iff_ne.mpr hne, ih hrest]
    rfl

/-- Distinct names stay in order. -/
theorem entries_ofList {entries : List (Text × α)} (h : (entries.map (·.1)).Nodup) :
    (ofList entries).entries = entries := by
  suffices ∀ t : Table α, ((t.entries ++ entries).map (·.1)).Nodup →
      (entries.foldl (fun t e ↦ t.put e.1 e.2) t).entries = t.entries ++ entries from
    this empty h
  clear h
  induction entries with
  | nil => exact fun t _ ↦ (List.append_nil _).symm
  | cons e rest ih =>
    intro t ht
    have hput : (t.put e.1 e.2).entries = t.entries ++ [e] := by
      refine putEntry_of_not_mem (fun hmem ↦ ?_) e.2
      rw [List.map_append, List.nodup_append] at ht
      exact ht.2.2 e.1 hmem e.1 (by simp) rfl
    rw [List.foldl_cons, ih, hput, List.append_assoc]
    · rfl
    · rw [hput, List.append_assoc]
      exact ht

end Table

end Cobol
