import Mathlib.Data.List.Basic
import Cobol.Text.Line

/-!
# Lines come back from a text

Lines that hold no line boundary come back from the text that joins them, whichever of the three
line ends stands between them. Reading a text first makes its line ends uniform, and then cuts it.

* `unifyNewlines_join`: joined by one of the line ends, the lines are read as joined by line feeds.
  A carriage return is not mistaken for half a line end, because no line starts with a line feed.
* `lines_join`: all lines come back but an empty one at the end, which opens no line.

## Shape decisions

* One line in front of any rest is the only law that opens the cutter. From it all lines follow,
  from left to right.
* Line boundaries are more than line ends: a vertical tab or a separator cuts a line, but is no line
  end. So the lines are asked to hold none of them, and not only no line end.
-/

namespace Cobol.Text

/-- The line ends. -/
def lineEnds : List Text :=
  [['\n'], ['\r'], ['\r', '\n']]

/-- A line without line boundaries. -/
def IsOneLine (line : Text) : Prop :=
  ∀ c ∈ line, isLineBoundary c = false

instance : DecidablePred IsOneLine := fun line ↦
  List.decidableBAll (isLineBoundary · = false) line

/-- A character that is no line boundary is none of them. -/
theorem ne_of_isLineBoundary {c mark : Char} (h : isLineBoundary c = false)
    (hmark : isLineBoundary mark = true) : c ≠ mark := by
  rintro rfl
  rw [h] at hmark
  cases hmark

/-- Joined lines are the first, the separator and the others, joined. -/
theorem join_cons_cons (separator first second : Text) (rest : List Text) :
    join separator (first :: second :: rest) =
      first ++ (separator ++ join separator (second :: rest)) := by
  rw [join, List.append_assoc]
  nofun

/-! ### Line ends -/

/-- Only a carriage return is looked at twice. -/
theorem unifyNewlines_cons_of_ne {c : Char} (h : c ≠ '\r') (t : Text) :
    unifyNewlines (c :: t) = c :: unifyNewlines t := by
  rw [unifyNewlines]
  · rw [if_neg (by simpa using h)]
  · exact fun _ hreturn ↦ absurd hreturn h

/-- A carriage return alone becomes a line feed. -/
theorem unifyNewlines_return {t : Text} (h : t.head? ≠ some '\n') :
    unifyNewlines ('\r' :: t) = '\n' :: unifyNewlines t := by
  rw [unifyNewlines]
  · rfl
  · rintro rest - rfl
    exact h rfl

/-- A line without line boundaries stays as it is. -/
theorem unifyNewlines_append {line : Text} (h : IsOneLine line) (t : Text) :
    unifyNewlines (line ++ t) = line ++ unifyNewlines t := by
  induction line with
  | nil => rfl
  | cons c line ih =>
    obtain ⟨hc, hline⟩ := List.forall_mem_cons.1 h
    rw [List.cons_append, unifyNewlines_cons_of_ne (ne_of_isLineBoundary hc (by decide)), ih hline]
    rfl

/-- A line end is read as a line feed; behind a lone carriage return there must be no line feed. -/
theorem unifyNewlines_lineEnd {lineEnd : Text} (h : lineEnd ∈ lineEnds) {t : Text}
    (ht : lineEnd = ['\r'] → t.head? ≠ some '\n') :
    unifyNewlines (lineEnd ++ t) = '\n' :: unifyNewlines t := by
  simp only [lineEnds, List.mem_cons, List.not_mem_nil, or_false] at h
  rcases h with rfl | rfl | rfl
  · exact unifyNewlines_cons_of_ne (by decide) t
  · exact unifyNewlines_return (ht rfl)
  · exact unifyNewlines.eq_2 t

/-- Lines joined by carriage returns do not start with a line feed. -/
theorem head?_join_return {lines : List Text} (h : ∀ line ∈ lines, IsOneLine line) :
    (join ['\r'] lines).head? ≠ some '\n' := by
  have hhead {c : Char} (hc : isLineBoundary c = false) : some c ≠ some '\n' := fun heq ↦
    ne_of_isLineBoundary hc (by decide) (Option.some.inj heq)
  match lines with
  | [] => nofun
  | [[]] => nofun
  | [c :: line] => exact hhead (h (c :: line) List.mem_cons_self c List.mem_cons_self)
  | [] :: second :: rest =>
    rw [join_cons_cons]
    nofun
  | (c :: line) :: second :: rest =>
    rw [join_cons_cons]
    exact hhead (h (c :: line) List.mem_cons_self c List.mem_cons_self)

/-- **The three line ends are read alike**: lines joined by any of them are read as joined by line
feeds. -/
theorem unifyNewlines_join {lineEnd : Text} (hend : lineEnd ∈ lineEnds) {lines : List Text}
    (h : ∀ line ∈ lines, IsOneLine line) :
    unifyNewlines (join lineEnd lines) = join ['\n'] lines := by
  induction lines with
  | nil => rfl
  | cons line rest ih =>
    obtain ⟨hline, hrest⟩ := List.forall_mem_cons.1 h
    cases rest with
    | nil =>
      show unifyNewlines line = line
      rw [← List.append_nil line, unifyNewlines_append hline]
      rfl
    | cons second rest =>
      have hnext : lineEnd = ['\r'] → (join lineEnd (second :: rest)).head? ≠ some '\n' := by
        rintro rfl
        exact head?_join_return hrest
      rw [join_cons_cons, join_cons_cons, unifyNewlines_append hline,
        unifyNewlines_lineEnd hend hnext, ih hrest]
      rfl

/-! ### Cutting -/

/-- A line without line boundaries is cut at the line feed behind it. -/
theorem lines_append {line : Text} (h : IsOneLine line) (t : Text) :
    lines (line ++ '\n' :: t) = line :: lines t := by
  induction line with
  | nil =>
    show lines ('\n' :: t) = [] :: lines t
    rw [lines]
    · exact if_pos (by decide)
    · nofun
  | cons c line ih =>
    obtain ⟨hc, hline⟩ := List.forall_mem_cons.1 h
    rw [List.cons_append, lines]
    · rw [hc, ih hline]
      rfl
    · exact fun _ hreturn ↦ absurd hreturn (ne_of_isLineBoundary hc (by decide))

/-- A text without line boundaries is one line. -/
theorem lines_of_isOneLine {line : Text} (h : IsOneLine line) (hne : line ≠ []) :
    lines line = [line] := by
  induction line with
  | nil => exact absurd rfl hne
  | cons c line ih =>
    obtain ⟨hc, hline⟩ := List.forall_mem_cons.1 h
    rw [lines]
    · rw [hc]
      cases line with
      | nil => rfl
      | cons d line =>
        rw [ih hline (List.cons_ne_nil d line)]
        rfl
    · exact fun _ hreturn ↦ absurd hreturn (ne_of_isLineBoundary hc (by decide))

/-- **Joined lines are cut where they were joined**; an empty line at the end opens no line. -/
theorem lines_join {ls : List Text} (h : ∀ line ∈ ls, IsOneLine line) :
    lines (join ['\n'] ls) = if ls.getLast? = some [] then ls.dropLast else ls := by
  induction ls with
  | nil => rfl
  | cons line rest ih =>
    obtain ⟨hline, hrest⟩ := List.forall_mem_cons.1 h
    cases rest with
    | nil =>
      show lines line = _
      by_cases hne : line = []
      · rw [hne]
        rfl
      · rw [lines_of_isOneLine hline hne, if_neg (by simpa using hne)]
    | cons second rest =>
      rw [join_cons_cons]
      show lines (line ++ '\n' :: join ['\n'] (second :: rest)) = _
      rw [lines_append hline, ih hrest, List.getLast?_cons_cons, List.dropLast_cons_cons]
      split <;> rfl

end Cobol.Text
