import Mathlib.Logic.Relation
import Cobol.Proofs.Field
import Cobol.Proofs.Text.Upper
import Cobol.Store

/-!
# The typed store

A picture says what its slot may hold (`Picture.Holds`). A store is typed when every registered
picture has a slot and the slot holds what the picture says. Writes and declarations keep a store
typed: the one place where a value meets a picture is `Picture.coerce`, and what it returns fits.

The picture of a write is looked up under the key of the key. By `Text.upper_upper` that is the key,
so the picture that is met is that of the slot that is written (`coerce_key`).

## Shape decisions

* A slot and its picture are kept in two tables. That they agree is an invariant of the tables
  (`Store.Typed`), and not part of the type, because a declaration can fail between the two.
* Writes are a relation between stores (`Writes`) with the names in it. What a statement does to the
  slots is one of them, so typing and frames are proved for the relation.
-/

namespace Cobol

/-! ### What a picture says -/

/-- What a slot of the picture may hold: an integer, or a text of exactly the width. -/
def Picture.Holds (p : Picture) : Value → Prop
  | .number _ => p.isNumeric = true
  | .text t => p.isNumeric = false ∧ t.length = p.width

/-- A result behind `map` comes from a result in front of it. -/
theorem Except.map_eq_ok_iff {ε α β : Type} {f : α → β} {x : Except ε α} {b : β} :
    x.map f = .ok b ↔ ∃ a, x = .ok a ∧ f a = b := by
  cases x <;> simp [Except.map]

/-- A result of two steps comes from a result of each. -/
theorem Except.bind_eq_ok_iff {ε α β : Type} {f : α → Except ε β} {x : Except ε α} {b : β} :
    x >>= f = .ok b ↔ ∃ a, x = .ok a ∧ f a = .ok b := by
  cases x <;> simp [bind, Except.bind]

theorem Except.ok_bind {ε α β : Type} (a : α) (f : α → Except ε β) :
    (Except.ok a >>= f) = f a := rfl

theorem Except.bind_pure_eq_map {ε α β : Type} (x : Except ε α) (f : α → β) :
    (x >>= fun a ↦ pure (f a)) = x.map f := by
  cases x <;> rfl

namespace Picture

/-- A coerced value fits the picture. -/
theorem holds_of_coerce {p : Picture} {v w : Value} (h : p.coerce v = .ok w) : p.Holds w := by
  unfold coerce at h
  split at h
  · rename_i hnumeric
    obtain ⟨n, -, rfl⟩ := Except.map_eq_ok_iff.1 h
    exact hnumeric
  · rename_i htext
    obtain ⟨t, -, h⟩ := Except.bind_eq_ok_iff.1 h
    obtain ⟨u, hu, h⟩ := Except.bind_eq_ok_iff.1 h
    cases h
    exact ⟨by simpa using htext, Field.length_of_fit hu⟩

/-- A text picture fits the text of a value. -/
theorem coerce_of_shown {p : Picture} (hp : p.isNumeric = false) {v : Value} {t : Text}
    (ht : v.shown = .ok t) : p.coerce v = (Field.fit p.width t).map .text := by
  have htext : ¬p.isNumeric = true := by simp [hp]
  rw [coerce, if_neg htext, ht, Except.ok_bind, Except.bind_pure_eq_map]

/-- The blank value is held as it is. -/
theorem coerce_of_blank {p : Picture} {v : Value} (h : p.blank = .ok v) : p.coerce v = .ok v := by
  unfold blank at h
  split at h
  · rename_i hnumeric
    cases h
    exact if_pos hnumeric
  · rename_i htext
    obtain ⟨t, ht, rfl⟩ := Except.map_eq_ok_iff.1 h
    rw [coerce_of_shown (by simpa using htext) rfl, Field.fit_of_spaces ht]
    rfl

/-- A coerced value is held as it is. -/
theorem coerce_of_coerce {p : Picture} {v w : Value} (h : p.coerce v = .ok w) :
    p.coerce w = .ok w := by
  unfold coerce at h
  split at h
  · rename_i hnumeric
    obtain ⟨n, -, rfl⟩ := Except.map_eq_ok_iff.1 h
    exact if_pos hnumeric
  · rename_i htext
    obtain ⟨t, -, h⟩ := Except.bind_eq_ok_iff.1 h
    obtain ⟨u, hu, h⟩ := Except.bind_eq_ok_iff.1 h
    cases h
    rw [coerce_of_shown (by simpa using htext) rfl, Field.fit_of_fit hu]
    rfl

end Picture

/-! ### Keys -/

namespace Store

/-- A key is its own key. -/
@[simp] theorem key_key (name : Text) : key (key name) = key name :=
  Text.upper_upper name

/-- The picture of a name is that of its key. -/
@[simp]
theorem picture?_key (s : Store) (name : Text) : s.picture? (key name) = s.picture? name := by
  rw [picture?, key_key]
  rfl

/-- A value is converted for a name as it is for its key. -/
@[simp] theorem coerce_key (s : Store) (name : Text) (v : Value) :
    s.coerce (key name) v = s.coerce name v := by
  rw [coerce, picture?_key]
  rfl

/-! ### Reads -/

/-- What stands in a slot is what a read gives. -/
theorem get_of_get? {s : Store} {name : Text} {v : Value} (h : s.values.get? (key name) = some v) :
    s.get name = v := by
  rw [get, h, Option.getD_some]

/-- A slot that holds something is there. -/
theorem contains_of_get? {s : Store} {name : Text} {v : Value}
    (h : s.values.get? (key name) = some v) : s.contains name = true := by
  rw [contains, Table.contains, h]
  rfl

/-! ### Writes -/

/-- What a write does: it puts a coerced value under the key, and nothing else. -/
theorem set_eq_ok_iff {s s' : Store} {name : Text} {v : Value} :
    s.set name v = .ok s' ↔ ∃ w, s.coerce name v = .ok w ∧
      s' = { s with values := s.values.put (key name) w } := by
  rw [set, coerce_key, Except.map_eq_ok_iff]
  exact exists_congr fun w ↦ and_congr_right fun _ ↦ eq_comm

/-- One store comes from another by writes to the given names. -/
def Writes (names : List Text) : Store → Store → Prop :=
  Relation.ReflTransGen fun s s' ↦ ∃ name ∈ names, ∃ v, s.set name v = .ok s'

/-- A write to one of the names is a write. -/
theorem Writes.of_set {names : List Text} {s s' : Store} {name : Text} {v : Value}
    (hname : name ∈ names) (h : s.set name v = .ok s') : Writes names s s' :=
  .single ⟨name, hname, v, h⟩

/-- Writes leave the pictures. -/
theorem Writes.pictures_eq {names : List Text} {s s' : Store} (h : Writes names s s') :
    s'.pictures = s.pictures := by
  induction h with
  | refl => rfl
  | tail _ hset ih =>
    obtain ⟨name, -, v, hset⟩ := hset
    obtain ⟨w, -, rfl⟩ := set_eq_ok_iff.1 hset
    exact ih

/-- A write removes no slot. -/
theorem Writes.contains {names : List Text} {s s' : Store} (h : Writes names s s') {name : Text}
    (hname : s.contains name = true) : s'.contains name = true := by
  induction h with
  | refl => exact hname
  | tail _ hset ih =>
    obtain ⟨target, -, v, hset⟩ := hset
    obtain ⟨w, -, rfl⟩ := set_eq_ok_iff.1 hset
    show ((Table.put _ (key target) w).get? (key name)).isSome = true
    rw [Table.get?_put]
    split
    · rfl
    · exact ih

/-- Writes to other names leave a slot as it is. -/
theorem Writes.get?_of_forall_ne {names : List Text} {s s' : Store} (h : Writes names s s')
    {name : Text} (hne : ∀ target ∈ names, key name ≠ key target) :
    s'.values.get? (key name) = s.values.get? (key name) := by
  induction h with
  | refl => rfl
  | tail _ hset ih =>
    obtain ⟨target, htarget, v, hset⟩ := hset
    obtain ⟨w, -, rfl⟩ := set_eq_ok_iff.1 hset
    rw [Table.get?_put, if_neg (hne target htarget)]
    exact ih

/-! ### Typed stores -/

/-- Every registered picture has a slot, which holds what the picture says. -/
def Typed (s : Store) : Prop :=
  ∀ name p, s.picture? name = some p → ∃ v, s.values.get? (key name) = some v ∧ p.Holds v

/-- A store without slots is typed. -/
theorem typed_empty : Typed {} := by
  intro name p hp
  cases hp

/-- A store stays typed when a value that fits its picture is put into a slot. -/
theorem Typed.put {s : Store} (hs : s.Typed) {name : Text} {w : Value}
    (hw : ∀ p, s.picture? name = some p → p.Holds w) :
    Typed { s with values := s.values.put (key name) w } := by
  intro other p hp
  rw [Table.get?_put]
  by_cases hkey : key other = key name
  · rw [if_pos hkey]
    refine ⟨w, rfl, hw p ?_⟩
    rw [← hp, picture?, ← hkey]
    rfl
  · rw [if_neg hkey]
    exact hs other p hp

/-- **A write keeps a store typed**: what it stores is what the picture of the slot makes of the
value. -/
theorem Typed.set {s s' : Store} (hs : s.Typed) {name : Text} {v : Value}
    (h : s.set name v = .ok s') : s'.Typed := by
  obtain ⟨w, hw, rfl⟩ := set_eq_ok_iff.1 h
  refine hs.put fun p hp ↦ ?_
  rw [coerce, hp] at hw
  exact Picture.holds_of_coerce hw

/-- Any number of writes keeps a store typed. -/
theorem Typed.writes {names : List Text} {s s' : Store} (hs : s.Typed) (h : Writes names s s') :
    s'.Typed := by
  induction h with
  | refl => exact hs
  | tail _ hset ih =>
    obtain ⟨name, -, v, hset⟩ := hset
    exact ih.set hset

/-! ### Declarations -/

/-- A picture that is registered takes the place of an earlier one, and no other. -/
@[simp] theorem picture?_register (s : Store) (name other : Text) (p : Picture) :
    (s.register name p).picture? other =
      if key other = key name then some p else s.picture? other :=
  Table.get?_put _ _ _ _

/-- An initial value is what the picture makes of it, also if none is given. -/
theorem initial_register {s : Store} {name : Text} {p : Picture} {v : Option Value} {w : Value}
    (h : (s.register name p).initial name p v = .ok w) : p.coerce w = .ok w := by
  cases v with
  | none => exact Picture.coerce_of_blank h
  | some v =>
    rw [initial, coerce_key, coerce, picture?_register, if_pos rfl] at h
    exact Picture.coerce_of_coerce h

/-- What a declaration does that succeeds. -/
theorem declare_eq_none {s s' : Store} {name : Text} {p : Picture} {v : Option Value}
    (h : s.declare name p v = (s', none)) : ∃ w, p.coerce w = .ok w ∧
      s' = { s.register name p with values := s.values.put (key name) w } := by
  unfold declare at h
  dsimp only at h
  split at h
  · rename_i w hw
    exact ⟨w, initial_register hw, (Prod.mk.inj h).1.symm⟩
  · cases h

/-- A declaration registers its picture, and no other. -/
theorem picture?_declare {s s' : Store} {name : Text} {p : Picture} {v : Option Value}
    (h : s.declare name p v = (s', none)) (other : Text) :
    s'.picture? other = if key other = key name then some p else s.picture? other := by
  obtain ⟨w, -, rfl⟩ := declare_eq_none h
  exact picture?_register s name other p

/-- **A declaration keeps a store typed**: it writes an initial value that its picture can hold. -/
theorem Typed.declare {s s' : Store} (hs : s.Typed) {name : Text} {p : Picture} {v : Option Value}
    (h : s.declare name p v = (s', none)) : s'.Typed := by
  intro other q hq
  rw [picture?_declare h] at hq
  obtain ⟨w, hw, rfl⟩ := declare_eq_none h
  show ∃ u, (s.values.put (key name) w).get? (key other) = some u ∧ q.Holds u
  rw [Table.get?_put]
  by_cases hkey : key other = key name
  · rw [if_pos hkey] at hq ⊢
    cases hq
    exact ⟨w, rfl, Picture.holds_of_coerce hw⟩
  · rw [if_neg hkey] at hq ⊢
    exact hs other q hq

end Store

end Cobol
