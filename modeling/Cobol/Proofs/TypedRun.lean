import Cobol.Proofs.Visit
import Cobol.Session

/-!
# Runs keep the store typed

Only four kinds of action write slots, and all of them write through `Store.set`. So whatever a
statement does to the store is a sequence of writes to its targets (`act_writes`), and a typed store
stays typed along every run, at every statement and at every depth.

A program starts in a typed store in which every declared name has its declared picture. The names
of a program are in upper case and distinct, so no declaration hides another (`Program.WellNamed`).

## Shape decisions

* What the store goes through is a list of writes to given names (`Store.Writes`), whether the
  action succeeds or not. A `MOVE` to many targets that fails at one of them has written those
  before it.
* That a slot is typed is a property of the store, with the picture that the store has for the slot.
  That this is the picture of the program is added at the end (`Program.TypedIn`), since no action
  touches a picture.
-/

namespace Cobol

open Text

/-! ### What an action writes -/

/-- The slots that an action may write. -/
def Action.targets : Action → List Text
  | .move _ targets => targets
  | .compute target _ => [target]
  | .arithmetic _ _ target => [target]
  | .accept target => [target]
  | _ => []

/-- A write that fails writes nothing. -/
theorem State.write_writes {names : List Text} {name : Text} (hname : name ∈ names) (s : State)
    (v : Value) : Store.Writes names s.store (s.write name v).state.store := by
  unfold State.write
  split
  · rename_i store hstore
    exact .of_set hname hstore
  · exact .refl

/-- A write to many slots stops at the first one that fails; what it wrote before that is kept. -/
theorem State.writeAll_writes {names targets : List Text} (htargets : targets ⊆ names) (v : Value)
    (s : State) : Store.Writes names s.store (State.writeAll v targets s).state.store := by
  induction targets generalizing s with
  | nil => exact .refl
  | cons name rest ih =>
    obtain ⟨hname, hrest⟩ := List.cons_subset.1 htargets
    have hwrite := State.write_writes hname s v
    rw [State.writeAll, Outcome.andThen]
    split
    · exact hwrite.trans (ih hrest _)
    · exact hwrite

/-- An arithmetic statement writes its target, or nothing if it would divide by zero. -/
theorem State.combine_writes (s : State) (operation : Operation) (amount : Int) (target : Text) :
    Store.Writes [target] s.store (s.combine operation amount target).state.store := by
  unfold State.combine
  dsimp only
  split
  · exact .refl
  · exact State.write_writes (List.mem_singleton_self target) s _

/-- `ACCEPT` writes its target, or nothing if there is no line for it. -/
theorem State.acceptLine_writes (s : State) (target : Text) :
    Store.Writes [target] s.store (s.acceptLine target).state.store := by
  have hwrite (rest : Input) (v : Value) : Store.Writes [target] s.store
      (({ s with input := some rest } : State).write target v).state.store :=
    State.write_writes (List.mem_singleton_self target) { s with input := some rest } v
  unfold State.acceptLine
  split
  · exact .refl
  · split
    · exact .refl
    · exact .refl
    · split
      · split
        · exact .refl
        · exact hwrite _ _
      · exact hwrite _ _

/-- An action that runs no other statements does nothing to the store but write its targets. -/
theorem act_writes (allowance : Nat) (statement : Text) (s : State) (action : Action) :
    Store.Writes action.targets s.store (act allowance statement s action).state.store := by
  cases action with
  | move source targets =>
    rw [act]
    split
    · exact .refl
    · exact State.writeAll_writes (List.Subset.refl targets) _ s
  | compute target expression =>
    rw [act]
    split
    · exact .refl
    · exact .refl
    · exact State.write_writes (List.mem_singleton_self target) s _
  | arithmetic operation operand target =>
    rw [act]
    split
    · split
      · exact .refl
      · exact State.combine_writes s operation _ target
    · exact .refl
  | accept target => exact State.acceptLine_writes s target
  | display operands =>
    rw [act]
    split <;> exact .refl
  | _ => exact .refl

/-- The pictures stay, and a typed store stays typed. -/
def State.KeepsTypes (s t : State) : Prop :=
  t.store.pictures = s.store.pictures ∧ (s.store.Typed → t.store.Typed)

theorem respected_keepsTypes : Respected State.KeepsTypes where
  refl _ := ⟨rfl, id⟩
  trans hst htu := ⟨htu.1.trans hst.1, fun hs ↦ htu.2 (hst.2 hs)⟩
  note _ _ := ⟨rfl, id⟩
  act allowance statement s action :=
    have h := act_writes allowance statement s action
    ⟨h.pictures_eq, fun hs ↦ hs.writes h⟩

/-! ### Tables with distinct names -/

namespace Table

variable {α : Type}

/-- What is in a table after an entry was put is that entry or was there before. -/
theorem mem_putEntry {name : Text} {entry : α} {entries : List (Text × α)} {e : Text × α}
    (h : e ∈ putEntry name entry entries) : e = (name, entry) ∨ e ∈ entries := by
  induction entries with
  | nil => exact Or.inl (List.mem_singleton.1 h)
  | cons first rest ih =>
    obtain ⟨key, old⟩ := first
    rw [putEntry] at h
    split at h
    · rename_i hkey
      obtain rfl : name = key := by simpa using hkey
      rcases List.mem_cons.1 h with rfl | h
      · exact Or.inl rfl
      · exact Or.inr (List.mem_cons_of_mem _ h)
    · rcases List.mem_cons.1 h with rfl | h
      · exact Or.inr (List.mem_cons_self ..)
      · exact (ih h).imp id (List.mem_cons_of_mem _)

/-- An entry that is put under a name takes the place of the one that was there. -/
theorem nodup_putEntry {name : Text} {entry : α} {entries : List (Text × α)}
    (h : (entries.map (·.1)).Nodup) : ((putEntry name entry entries).map (·.1)).Nodup := by
  induction entries with
  | nil => simp [putEntry]
  | cons first rest ih =>
    obtain ⟨key, old⟩ := first
    obtain ⟨hkey, hrest⟩ := List.nodup_cons.1 h
    rw [putEntry]
    split
    · exact h
    · rename_i hne
      refine List.nodup_cons.2 ⟨fun hmem ↦ ?_, ih hrest⟩
      obtain ⟨e, he, hekey⟩ := List.mem_map.1 hmem
      rcases mem_putEntry he with rfl | he
      · exact hne (by simpa using hekey)
      · exact hkey (List.mem_map.2 ⟨e, he, hekey⟩)

end Table

/-! ### Declared names -/

/-- Every declaration stands under its name, and the names are distinct and in upper case. -/
structure Table.WellNamed (t : Table Declaration) : Prop where
  /-- The names are distinct. -/
  nodup : (t.entries.map (·.1)).Nodup
  /-- A declaration stands under its name. -/
  name_eq : ∀ e ∈ t.entries, e.1 = e.2.name
  /-- A name is its own key. -/
  key_eq : ∀ e ∈ t.entries, Store.key e.1 = e.1

/-- A declared name is in upper case. -/
theorem Declaration.key_name {line : Nat} {sentence : Text} {d : Declaration}
    (h : Declaration.ofSentence line sentence = .ok (.declaration d)) :
    Store.key d.name = d.name := by
  unfold Declaration.ofSentence at h
  split at h
  · cases h
  · split at h
    · obtain ⟨p, -, h⟩ := Except.bind_eq_ok_iff.1 h
      obtain ⟨v, -, h⟩ := Except.bind_eq_ok_iff.1 h
      cases h
      exact Store.key_key _
    · cases h

theorem Table.WellNamed.put {t : Table Declaration} (ht : t.WellNamed) {d : Declaration}
    (hd : Store.key d.name = d.name) : (t.put d.name d).WellNamed where
  nodup := nodup_putEntry ht.nodup
  name_eq e he := by
    rcases mem_putEntry he with rfl | he
    · rfl
    · exact ht.name_eq e he
  key_eq e he := by
    rcases mem_putEntry he with rfl | he
    · exact hd
    · exact ht.key_eq e he

/-- Declarations behind each other keep the names apart: one that comes again takes the place of the
earlier one. -/
theorem Program.wellNamed_declare {sentences : List (Nat × Text)} {t t' : Table Declaration}
    (ht : t.WellNamed) (h : Program.declare t sentences = .ok t') : t'.WellNamed := by
  induction sentences generalizing t with
  | nil =>
    cases h
    exact ht
  | cons sentence rest ih =>
    obtain ⟨line, sentence⟩ := sentence
    rw [Program.declare] at h
    split at h
    · cases h
    · rename_i d hd
      exact ih (ht.put (Declaration.key_name hd)) h
    · exact ih ht h

/-- The names of a program are distinct and in upper case. -/
theorem Program.wellNamed_parse {lines : List Text} {p : Program}
    (h : Program.parse lines = .ok p) : p.declarations.WellNamed := by
  have hempty : Table.WellNamed {} := ⟨List.nodup_nil, nofun, nofun⟩
  obtain ⟨t, ht, rfl⟩ := Except.map_eq_ok_iff.1 h
  exact Program.wellNamed_declare hempty ht

/-! ### The start of a program -/

/-- Declarations keep a store typed. -/
theorem State.typed_declareAll {declarations : List Declaration} {store store' : Store}
    (hstore : store.Typed) (h : State.declareAll store declarations = .ok store') :
    store'.Typed := by
  induction declarations generalizing store with
  | nil =>
    cases h
    exact hstore
  | cons d rest ih =>
    rw [State.declareAll] at h
    split at h
    · rename_i hd
      exact ih (hstore.declare hd) h
    · cases h

/-- Declarations do not touch the pictures of other names. -/
theorem State.picture?_declareAll_of_ne {declarations : List Declaration} {store store' : Store}
    (h : State.declareAll store declarations = .ok store') {name : Text}
    (hname : ∀ d ∈ declarations, Store.key name ≠ Store.key d.name) :
    store'.picture? name = store.picture? name := by
  induction declarations generalizing store with
  | nil =>
    cases h
    rfl
  | cons d rest ih =>
    obtain ⟨hd, hrest⟩ := List.forall_mem_cons.1 hname
    rw [State.declareAll] at h
    split at h
    · rename_i hdeclare
      rw [ih h hrest, Store.picture?_declare hdeclare, if_neg hd]
    · cases h

/-- Declarations under distinct names give each name its own picture. -/
theorem State.picture?_declareAll {declarations : List Declaration} {store store' : Store}
    (h : State.declareAll store declarations = .ok store')
    (hkeys : (declarations.map fun d ↦ Store.key d.name).Nodup) :
    ∀ d ∈ declarations, store'.picture? d.name = some d.picture := by
  induction declarations generalizing store with
  | nil => exact nofun
  | cons first rest ih =>
    obtain ⟨hfirst, hrest⟩ := List.nodup_cons.1 hkeys
    rw [State.declareAll] at h
    split at h
    · rename_i hdeclare
      intro d hd
      rcases List.mem_cons.1 hd with rfl | hd
      · rw [State.picture?_declareAll_of_ne h fun other hother hkey ↦
            hfirst (List.mem_map.2 ⟨other, hother, hkey.symm⟩),
          Store.picture?_declare hdeclare, if_pos rfl]
      · exact ih h hrest d hd
    · cases h

/-! ### Every point of a run -/

/-- Every declared name has its declared picture and a slot that holds what the picture says. -/
def Program.TypedIn (p : Program) (store : Store) : Prop :=
  ∀ e ∈ p.declarations.entries, store.picture? e.1 = some e.2.picture ∧
    ∃ v, store.values.get? (Store.key e.1) = some v ∧ e.2.picture.Holds v

/-- A typed store with the pictures of the program holds what the program declares. -/
theorem Program.typedIn_of_typed {p : Program} {store : Store} (hstore : store.Typed)
    (hpictures : ∀ e ∈ p.declarations.entries, store.picture? e.1 = some e.2.picture) :
    p.TypedIn store := fun e he ↦
  ⟨hpictures e he, hstore e.1 e.2.picture (hpictures e he)⟩

/-- A program starts in a typed store with its own pictures. -/
theorem State.typed_start {lines : List Text} {p : Program} (hparse : Program.parse lines = .ok p)
    {input : Option Input} {s : State} (hstart : State.start p input = .ok s) :
    s.store.Typed ∧ ∀ e ∈ p.declarations.entries, s.store.picture? e.1 = some e.2.picture := by
  have hnamed := Program.wellNamed_parse hparse
  obtain ⟨store, hstore, rfl⟩ := Except.map_eq_ok_iff.1 hstart
  refine ⟨State.typed_declareAll Store.typed_empty hstore, fun e he ↦ ?_⟩
  have hkeys : ((p.declarations.entries.map (·.2)).map fun d ↦ Store.key d.name).Nodup := by
    have heq : (p.declarations.entries.map (·.2)).map (fun d ↦ Store.key d.name) =
        p.declarations.entries.map (·.1) := by
      rw [List.map_map]
      exact List.map_congr_left fun e he ↦ by
        rw [Function.comp_apply, ← hnamed.name_eq e he, hnamed.key_eq e he]
    rw [heq]
    exact hnamed.nodup
  rw [hnamed.name_eq e he]
  exact State.picture?_declareAll hstore hkeys e.2 (List.mem_map_of_mem he)

/-- **Every point of a run is typed**: behind every statement of every block that is executed from
the start of a program, at any depth, also behind one that fails, every declared name has its
declared picture, and its slot holds what the picture says. -/
theorem typedIn_visits {lines : List Text} {p : Program} (hparse : Program.parse lines = .ok p)
    {input : Option Input} {s : State} (hstart : State.start p input = .ok s) (m : Machine)
    (allowance : Nat) (block : List Text) :
    p.TypedIn (executeBlock m allowance block s).state.store ∧
      ∀ v ∈ visits m allowance block s,
        p.TypedIn v.before.store ∧ p.TypedIn (v.after m).state.store := by
  obtain ⟨htyped, hpictures⟩ := State.typed_start hparse hstart
  have hkeeps : ∀ t : State, s.KeepsTypes t → p.TypedIn t.store := by
    rintro t ⟨hsame, hkeep⟩
    refine Program.typedIn_of_typed (hkeep htyped) fun e he ↦ ?_
    rw [Store.picture?, hsame]
    exact hpictures e he
  refine ⟨hkeeps _ (respected_keepsTypes.executeBlock m allowance block s), fun v hv ↦ ?_⟩
  exact ⟨hkeeps _ (respected_keepsTypes.before_visits m allowance block s v hv),
    hkeeps _ (respected_keepsTypes.after_visits m allowance block s v hv)⟩

/-- A program with a text field of two characters that takes three. -/
def narrowLines : List Text :=
  ["DATA DIVISION.", "01 A PIC X(2).", "PROCEDURE DIVISION.", "MOVE 'ABC' TO A."].map String.toList

/-- What `narrowLines` says. -/
def narrow : Program where
  declarations := ⟨[("A".toList, ⟨"A".toList, ⟨false, 2⟩, none, 2⟩)]⟩
  procedure := ["MOVE 'ABC' TO A.".toList]

/-- The state in which `narrow` starts. -/
def narrowStart : State where
  store :=
    { values := ⟨[("A".toList, .text [' ', ' '])]⟩, pictures := ⟨[("A".toList, ⟨false, 2⟩)]⟩ }

/-- A text of three characters goes into a field of two, at every point of the run. -/
theorem typedIn_visits_narrow :
    Program.parse narrowLines = .ok narrow ∧ State.start narrow none = .ok narrowStart ∧
      narrow.TypedIn (executeBlock ⟨{}, 1⟩ 2 narrow.procedure narrowStart).state.store ∧
      ∀ v ∈ visits ⟨{}, 1⟩ 2 narrow.procedure narrowStart,
        narrow.TypedIn v.before.store ∧ narrow.TypedIn (v.after ⟨{}, 1⟩).state.store :=
  have hparse : Program.parse narrowLines = .ok narrow := by decide +kernel
  have hstart : State.start narrow none = .ok narrowStart := by rfl
  ⟨hparse, hstart, typedIn_visits hparse hstart ⟨{}, 1⟩ 2 narrow.procedure⟩

end Cobol
