import Cobol.Proofs.Text.Line
import Cobol.Report

/-!
# Reports in files and on streams

A report that is shown is followed by a line feed, and one that is written to a file ends with one,
so both hold the same text. Lines that join to nothing are the exception of both: a single empty
line is not told from no line at all (`PlainText.fileContent_eq`). A stream takes the lines one by
one and does tell them apart, and that is all in which it differs from a file
(`PlainText.fileContent_eq_streamed_iff`). A document is never empty.

## Shape decisions

* The line ending is a parameter throughout. It only has to be more than nothing where two joined
  texts are to be told apart.
* The file is compared with the stream by an equation for all lines, with the exception in it, and
  then by an equivalence that says exactly when the exception applies.
-/

namespace Cobol

open Text

namespace PlainText

variable {ending : Text}

/-- Lines that are joined, with the ending behind them, are what a stream gets. -/
theorem joined_append {lines : List Text} (h : lines ≠ []) :
    joined ending lines ++ ending = streamed ending lines := by
  induction lines with
  | nil => exact absurd rfl h
  | cons first rest ih =>
    match rest with
    | [] => exact (List.append_nil (first ++ ending)).symm
    | second :: rest =>
      calc joined ending (first :: second :: rest) ++ ending
          = first ++ ending ++ (joined ending (second :: rest) ++ ending) := by
            simp only [joined, join_cons_cons, List.append_assoc]
        _ = first ++ ending ++ streamed ending (second :: rest) := by
            rw [ih (List.cons_ne_nil second rest)]
        _ = streamed ending (first :: second :: rest) := rfl

/-- Lines join to nothing if there are none, or a single empty one. -/
theorem joined_eq_nil_iff (hne : ending ≠ []) {lines : List Text} :
    joined ending lines = [] ↔ lines = [] ∨ lines = [[]] := by
  match lines with
  | [] => exact ⟨fun _ ↦ Or.inl rfl, fun _ ↦ rfl⟩
  | [line] =>
    show line = [] ↔ _
    simp
  | first :: second :: rest =>
    rw [joined, join_cons_cons]
    simp [hne]

/-- A file of output lines holds every line with an ending, and nothing for one empty line. -/
theorem fileContent_eq (hne : ending ≠ []) (lines : List Text) :
    fileContent ending lines = if lines = [[]] then [] else streamed ending lines := by
  rw [fileContent]
  by_cases hjoined : joined ending lines = []
  · rw [hjoined]
    rcases (joined_eq_nil_iff hne).1 hjoined with rfl | rfl <;> rfl
  · have hlines := mt (joined_eq_nil_iff hne).2 hjoined
    rw [not_or] at hlines
    rw [if_neg (by simpa using hjoined), if_neg hlines.2, joined_append hlines.1]

/-- Without an ending the joined lines are all there is to write. -/
theorem fileContent_nil (lines : List Text) : fileContent [] lines = streamed [] lines := by
  have hjoined : joined [] lines = streamed [] lines := by
    by_cases hlines : lines = []
    · rw [hlines]
      rfl
    · rw [← joined_append hlines, List.append_nil]
  rw [fileContent, List.append_nil, hjoined]
  split
  · exact (List.isEmpty_iff.1 ‹_›).symm
  · rfl

/-- **A file of output lines holds what a stream of them does**, whatever the lines and the ending
are, but for one empty line: its ending is not written to the file. -/
theorem fileContent_eq_streamed_iff (ending : Text) (lines : List Text) :
    fileContent ending lines = streamed ending lines ↔ (lines = [[]] → ending = []) := by
  by_cases hending : ending = []
  · rw [hending]
    exact iff_of_true (fileContent_nil lines) fun _ ↦ rfl
  · rw [fileContent_eq hending]
    by_cases hlines : lines = [[]]
    · have hstream : streamed ending [[]] = ending := List.append_nil ending
      rw [if_pos hlines, hlines, hstream]
      exact iff_of_false (fun h ↦ hending h.symm) fun h ↦ hending (h rfl)
    · rw [if_neg hlines]
      exact iff_of_true rfl fun h ↦ absurd h hlines

example : fileContent ['\n'] [[]] = [] ∧ streamed ['\n'] [[]] = ['\n'] := by decide

end PlainText

end Cobol
