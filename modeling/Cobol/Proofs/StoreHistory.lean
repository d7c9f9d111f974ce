import Cobol.Proofs.Store
import Mathlib.Data.List.Induction

/-!
# Histories of a store

A store comes from an empty one by declarations, writes and clearing. A request that fails leaves
every value as it was. A write that fails leaves the pictures too, but a declaration has registered
its picture by the time its value turns out not to fit. If that picture is a new one, the name is
half-declared: the slot is missing, or holds what an earlier picture said (`Request.halfDeclared?`).

All other declared slots are settled: they hold a value that their picture leaves as it is
(`Store.Settled`). A request that succeeds settles its own name and unsettles none, so a name stays
half-declared only until it is written or declared again (`History.run_settled`).

## Shape decisions

* A request is a value, and so is a history. What a history has come to is a fold, and soundness is
  an invariant of its steps.
* The names that are half-declared are kept beside the store. The store itself cannot tell them: a
  slot that holds what an earlier picture said looks like any other.
* A settled slot is said by what a write of its own value does, which is nothing.
-/

namespace Cobol

/-- Putting the entry that is there changes nothing. -/
theorem Table.put_of_get? {α : Type} {t : Table α} {name : Text} {entry : α}
    (h : t.get? name = some entry) : t.put name entry = t := by
  suffices ∀ entries : List (Text × α), entries.lookup name = some entry →
      putEntry name entry entries = entries from congrArg Table.mk (this t.entries h)
  intro entries hentry
  induction entries with
  | nil => cases hentry
  | cons e rest ih =>
    obtain ⟨key, old⟩ := e
    rw [List.lookup_cons] at hentry
    by_cases hkey : name = key
    · rw [beq_iff_eq.2 hkey] at hentry
      cases hentry
      rw [putEntry, if_pos (beq_iff_eq.2 hkey)]
    · rw [beq_eq_false_iff_ne.2 hkey] at hentry
      rw [putEntry, beq_eq_false_iff_ne.2 hkey, if_neg Bool.false_ne_true, ih hentry]

namespace Store

/-! ### Settled slots -/

/-- If the slot is declared, it holds a value that its picture leaves as it is. -/
def Settled (s : Store) (name : Text) : Prop :=
  ∀ p, s.picture? name = some p → ∃ v, s.values.get? (key name) = some v ∧ p.coerce v = .ok v

section

variable {s s' : Store} {name other : Text} {p : Picture} {v : Value}

/-- Writing back what a settled slot holds leaves the store. -/
theorem Settled.set_get (h : s.Settled name) (hp : s.picture? name = some p) :
    s.set name (s.get name) = .ok s := by
  obtain ⟨v, hv, hcoerce⟩ := h p hp
  refine set_eq_ok_iff.2 ⟨v, ?_, ?_⟩
  · rw [coerce, hp, get_of_get? hv]
    exact hcoerce
  · rw [Table.put_of_get? hv]

/-- A slot is settled by a value that its picture leaves as it is, and no other slot is changed. -/
theorem settled_put {w : Value} (hw : ∀ p, s.picture? name = some p → p.coerce w = .ok w)
    (h : key other = key name ∨ s.Settled other) :
    Settled { s with values := s.values.put (key name) w } other := by
  intro p hp
  rw [Table.get?_put]
  by_cases hkey : key other = key name
  · rw [if_pos hkey]
    refine ⟨w, rfl, hw p ?_⟩
    rw [← hp, picture?, ← hkey]
    rfl
  · rw [if_neg hkey]
    exact h.resolve_left hkey p hp

/-- A write settles its own slot, and unsettles none. -/
theorem settled_of_set (hset : s.set name v = .ok s') (h : key other = key name ∨ s.Settled other) :
    s'.Settled other := by
  obtain ⟨w, hw, rfl⟩ := set_eq_ok_iff.1 hset
  refine settled_put (fun p hp ↦ ?_) h
  rw [coerce, hp] at hw
  exact Picture.coerce_of_coerce hw

/-- A picture that is registered only touches its own slot. -/
theorem settled_register (hkey : key other ≠ key name) (h : s.Settled other) :
    (s.register name p).Settled other := by
  intro q hq
  rw [picture?_register, if_neg hkey] at hq
  exact h q hq

/-- A declaration that succeeds settles its own slot, and unsettles none. -/
theorem settled_of_declare {v : Option Value} (hdeclare : s.declare name p v = (s', none))
    (h : key other = key name ∨ s.Settled other) : s'.Settled other := by
  obtain ⟨w, hw, rfl⟩ := declare_eq_none hdeclare
  refine settled_put (s := s.register name p) (fun q hq ↦ ?_) ?_
  · rw [picture?_register, if_pos rfl] at hq
    cases hq
    exact hw
  · by_cases hkey : key other = key name
    · exact Or.inl hkey
    · exact Or.inr (settled_register hkey (h.resolve_left hkey))

/-- The picture that is registered can be registered again. -/
theorem register_eq_self_iff : s.register name p = s ↔ s.picture? name = some p := by
  constructor
  · intro h
    rw [← h, picture?_register, if_pos rfl]
  · intro h
    rw [register, Table.put_of_get? h]

/-- What a declaration does that fails. -/
theorem declare_eq_some {v : Option Value} {fault : Fault}
    (h : (s.declare name p v).2 = some fault) : (s.declare name p v).1 = s.register name p := by
  unfold declare at h ⊢
  dsimp only at h ⊢
  split at h
  · cases h
  · rfl

end

/-! ### Requests -/

/-- What is asked of a store. -/
inductive Request
  /-- Declare a slot with its picture and initial value. -/
  | declare (name : Text) (p : Picture) (v : Option Value)
  /-- Write a value to a slot. -/
  | set (name : Text) (v : Value)
  /-- Remove all slots and pictures. -/
  | clear

namespace Request

variable {s : Store} {r : Request}

/-- The store behind a request, and the fault that it meets. -/
def apply (r : Request) (s : Store) : Store × Option Fault :=
  match r with
  | .declare name p v => s.declare name p v
  | .set name v =>
    match s.set name v with
    | .ok s' => (s', none)
    | .error fault => (s, some fault)
  | .clear => ({}, none)

/-- The key that is half-declared by the request: it fails, and has registered a new picture. -/
def halfDeclared? (r : Request) (s : Store) : Option Text :=
  match r with
  | .declare name p v =>
    if s.picture? name ≠ some p ∧ (s.declare name p v).2 ≠ none then some (key name) else none
  | .set _ _ => none
  | .clear => none

/-- The request succeeds and is about the slot under the key. -/
def Settles (r : Request) (s : Store) (k : Text) : Prop :=
  (r.apply s).2 = none ∧
    match r with
    | .declare name _ _ => k = key name
    | .set name _ => k = key name
    | .clear => True

instance (r : Request) (s : Store) (k : Text) : Decidable (r.Settles s k) :=
  match r with
  | .declare _ _ _ => instDecidableAnd
  | .set _ _ => instDecidableAnd
  | .clear => instDecidableAnd

/-- **A request that fails leaves all values**, and the store as a whole unless it half-declares a
name. -/
theorem apply_of_fault {fault : Fault} (h : (r.apply s).2 = some fault) :
    (r.apply s).1.values = s.values ∧ ((r.apply s).1 = s ↔ r.halfDeclared? s = none) := by
  cases r with
  | declare name p v =>
    have hstore : (Request.apply (.declare name p v) s).1 = s.register name p := declare_eq_some h
    have hfault : (s.declare name p v).2 ≠ none := fun hnone ↦ by
      rw [apply, hnone] at h
      cases h
    rw [hstore, register_eq_self_iff]
    exact ⟨rfl, by simp [halfDeclared?, hfault]⟩
  | set name v =>
    rw [apply] at h ⊢
    cases hset : s.set name v with
    | ok s' =>
      rw [hset] at h
      cases h
    | error fault => exact ⟨rfl, iff_of_true rfl rfl⟩
  | clear => cases h

/-- What a request does that half-declares a name: it registers a picture. -/
theorem exists_register_of_halfDeclared {k : Text} (h : r.halfDeclared? s = some k) :
    ∃ name p, k = key name ∧ (r.apply s).1 = s.register name p := by
  cases r with
  | declare name p v =>
    rw [halfDeclared?] at h
    split at h
    · rename_i hfails
      obtain ⟨fault, hfault⟩ := Option.ne_none_iff_exists'.1 hfails.2
      exact ⟨name, p, (Option.some.inj h).symm, declare_eq_some hfault⟩
    · cases h
  | set name v => cases h
  | clear => cases h

/-- A request that succeeds settles its own slot, and unsettles none. -/
theorem settled_of_apply_eq_none {name : Text} (hnone : (r.apply s).2 = none)
    (h : r.Settles s (key name) ∨ s.Settled name) : (r.apply s).1.Settled name := by
  cases r with
  | declare target p v => exact settled_of_declare (Prod.ext rfl hnone) (h.imp And.right id)
  | set target v =>
    have hname : key name = key target ∨ s.Settled name := h.imp And.right id
    rw [apply] at hnone ⊢
    cases hset : s.set target v with
    | ok s' => exact settled_of_set hset hname
    | error fault =>
      rw [hset] at hnone
      cases hnone
  | clear => exact fun p hp ↦ by cases hp

/-- A request settles its own slot if it succeeds, and unsettles none but the one it half-declares.
-/
theorem settled_apply {name : Text}
    (h : r.Settles s (key name) ∨ s.Settled name ∧ r.halfDeclared? s ≠ some (key name)) :
    (r.apply s).1.Settled name := by
  cases hfault : (r.apply s).2 with
  | none => exact settled_of_apply_eq_none hfault (h.imp id And.left)
  | some fault =>
    obtain ⟨hsettled, hhalf⟩ := h.resolve_left fun hsettles ↦ by
      rw [hsettles.1] at hfault
      cases hfault
    cases hk : r.halfDeclared? s with
    | none => rwa [(apply_of_fault hfault).2.2 hk]
    | some k =>
      obtain ⟨target, p, rfl, hstore⟩ := exists_register_of_halfDeclared hk
      rw [hstore]
      exact settled_register (fun hkey ↦ hhalf (hkey ▸ hk)) hsettled

end Request

/-! ### Histories -/

/-- A store together with the keys that are half-declared in it. -/
structure History where
  /-- The store. -/
  store : Store := {}
  /-- The keys whose slots were half-declared, and not settled since. -/
  halfDeclared : List Text := []

namespace History

/-- A request is made. -/
def step (h : History) (r : Request) : History where
  store := (r.apply h.store).1
  halfDeclared := (r.halfDeclared? h.store).toList ++
    h.halfDeclared.filter fun k ↦ ¬r.Settles h.store k

/-- The requests are made one after the other, the first one of an empty store. -/
def run (requests : List Request) : History :=
  requests.foldl step {}

/-- All slots are settled but the half-declared ones. -/
def Sound (h : History) : Prop :=
  ∀ name, key name ∉ h.halfDeclared → h.store.Settled name

/-- A store without slots is sound. -/
theorem sound_empty : Sound {} := fun _ _ _ hp ↦ by cases hp

/-- **A request keeps a history sound.** If it succeeds, its slot is settled; if it fails, the
values are as they were, and its name is put on the list if its picture is new. -/
theorem Sound.step {h : History} (hsound : h.Sound) (r : Request) : (h.step r).Sound := by
  intro name hname
  rw [History.step, List.mem_append, Option.mem_toList, List.mem_filter, not_or] at hname
  obtain ⟨hhalf, hold⟩ := hname
  refine Request.settled_apply ?_
  by_cases hsettles : r.Settles h.store (key name)
  · exact Or.inl hsettles
  · exact Or.inr ⟨hsound name fun hmem ↦ hold ⟨hmem, by simpa using hsettles⟩, hhalf⟩

/-- Every history is sound. -/
theorem sound_run (requests : List Request) : (run requests).Sound := by
  suffices ∀ h : History, h.Sound → (requests.foldl History.step h).Sound from this {} sound_empty
  induction requests with
  | nil => exact fun _ hsound ↦ hsound
  | cons r rest ih => exact fun h hsound ↦ ih (h.step r) (hsound.step r)

/-- Where no request half-declares a name, no name is half-declared. -/
theorem halfDeclared_run {requests : List Request}
    (h : ∀ done r rest, requests = done ++ r :: rest → r.halfDeclared? (run done).store = none) :
    (run requests).halfDeclared = [] := by
  induction requests using List.reverseRecOn with
  | nil => rfl
  | append_singleton requests r ih =>
    have hrequests : (run requests).halfDeclared = [] := ih fun done r' rest hsplit ↦
      h done r' (rest ++ [r]) (by rw [hsplit, List.append_assoc, List.cons_append])
    rw [run, List.foldl_append, List.foldl_cons, List.foldl_nil, ← run, step, hrequests,
      h requests r [] rfl]
    rfl

/-- **What a history of a store comes to.** A request that fails leaves all values, and the store as
a whole if it half-declares no name. A declared slot that is not half-declared exists and holds what
its picture says, so writing back what it holds leaves the store. If no request half-declared a
name, that is every declared slot. -/
theorem run_settled (requests : List Request) :
    (∀ (r : Request) (fault : Fault), (r.apply (run requests).store).2 = some fault →
      (r.apply (run requests).store).1.values = (run requests).store.values ∧
        ((r.apply (run requests).store).1 = (run requests).store ↔
          r.halfDeclared? (run requests).store = none)) ∧
    (∀ name p, (run requests).store.picture? name = some p →
      key name ∉ (run requests).halfDeclared →
      ∃ v, (run requests).store.values.get? (key name) = some v ∧ p.Holds v ∧
        (run requests).store.set name ((run requests).store.get name) =
          .ok (run requests).store) ∧
    ((∀ done r rest, requests = done ++ r :: rest → r.halfDeclared? (run done).store = none) →
      (run requests).halfDeclared = []) := by
  refine ⟨fun r fault hfault ↦ Request.apply_of_fault hfault, fun name p hp hname ↦ ?_,
    halfDeclared_run⟩
  have hsettled : (run requests).store.Settled name := sound_run requests name hname
  obtain ⟨v, hv, hcoerce⟩ := hsettled p hp
  exact ⟨v, hv, Picture.holds_of_coerce hcoerce, hsettled.set_get hp⟩

/-- A number that is too long to be written. -/
def longNumber : Value :=
  .number (Nat.pow 10 digitLimit)

/-- A text is declared again with a wider picture, and a value that it cannot take. -/
def redeclared : List Request :=
  [.declare "A".toList ⟨false, 3⟩ (some (.text "ABC".toList)),
    .declare "B".toList ⟨true, 2⟩ none,
    .declare "A".toList ⟨false, 4⟩ (some longNumber)]

/-- A name that is declared again with a number that is too long for its new picture, and a slot
beside it. -/
theorem run_settled_redeclared :
    (run redeclared).halfDeclared = ["A".toList] ∧
    (run redeclared).store.values.get? "A".toList = some (.text "ABC".toList) ∧
    (run redeclared).store.picture? "A".toList = some ⟨false, 4⟩ ∧
    (∃ v, (run redeclared).store.values.get? (key "B".toList) = some v ∧
      Picture.Holds ⟨true, 2⟩ v ∧
      (run redeclared).store.set "B".toList ((run redeclared).store.get "B".toList) =
        .ok (run redeclared).store) ∧
    (Request.apply (.set "A".toList longNumber) (run redeclared).store).1 =
      (run redeclared).store ∧
    (run (redeclared.take 2)).halfDeclared = [] := by
  have hsettled : ∀ done r rest, redeclared.take 2 = done ++ r :: rest →
      r.halfDeclared? (run done).store = none := by
    intro done r rest hsplit
    rcases done with _ | ⟨first, _ | ⟨second, done⟩⟩
    · obtain ⟨rfl, -⟩ := List.cons.inj hsplit
      rfl
    · obtain ⟨rfl, htail⟩ := List.cons.inj hsplit
      obtain ⟨rfl, -⟩ := List.cons.inj htail
      rfl
    · have hlength : 2 = done.length + (rest.length + 1) + 2 := by
        simpa [redeclared] using congrArg List.length hsplit
      omega
  have hfailed := (run_settled redeclared).1 (.set "A".toList longNumber) .longNumber
    (by decide +kernel)
  exact ⟨by decide +kernel, by decide +kernel, by decide +kernel,
    (run_settled redeclared).2.1 "B".toList ⟨true, 2⟩ (by decide +kernel) (by decide +kernel),
    hfailed.2.2 rfl, (run_settled (redeclared.take 2)).2.2 hsettled⟩

end History

end Store

end Cobol
