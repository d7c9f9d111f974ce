import Cobol.Proofs.Sentence
import Cobol.Source
import Mathlib.Logic.Relation

/-!
# Comments and margins

A program is read from the contents of its lines, so whatever leaves the contents alone leaves the
program alone, and every run of it. Four changes to the source do: a blank line more, a comment line
more, blanks around a line, and a comment behind a line (`Edit`). Each of them may be made and taken
back anywhere and any number of times (`runLines_of_edits`).

* `content_margins` and `content_remarked` are what the law of the comment finder
  (`beforeComment?_append`) says of the content of a line.

A comment may stand behind a line only if no literal is open there. The condition is on the line
without the comment it may have already: quotes in a comment open nothing.

## Shape decisions

* An edit is a relation between two sources, and its equivalence closure is what a reader of
  programs would call the same program up to layout. No edit looks at the lines around it.
* Line numbers belong to the normalised lines, so no edit changes the number of a declaration.
-/

namespace Cobol.Sentence

open Text

/-- Without blanks around it a line without its comment is what stands in front of the comment. -/
theorem trim_dropComment (line : Text) :
    trim (dropComment line) = trim ((beforeComment? none line).getD line) := by
  unfold dropComment
  cases beforeComment? none line with
  | none => rfl
  | some t => exact trim_trimRight t

/-! ### Contents -/

/-- A line that is not blank is a comment line by its beginning alone. -/
theorem isComment_append {line : Text} (h : ¬AllBlank line) (t : Text) :
    isComment (line ++ t) = isComment line := by
  obtain ⟨c, rest, hc⟩ := List.exists_cons_of_ne_nil fun hnil ↦ h (trimLeft_eq_nil_iff.1 hnil)
  rw [isComment, isComment, trimLeft_append_of_not_allBlank h, hc]
  rfl

/-- A blank line is no comment line. -/
theorem isComment_of_allBlank {line : Text} (h : AllBlank line) : isComment line = false := by
  rw [isComment, trimLeft_eq_nil_iff.2 h]
  rfl

/-- A blank line has no content. -/
theorem content_of_allBlank {line : Text} (h : AllBlank line) : content line = [] := by
  rw [content, isComment_of_allBlank h, trim_dropComment, beforeComment?_of_allBlank h]
  exact trim_eq_nil_iff.2 h

/-- A comment line has no content. -/
theorem content_comment {lead : Text} (h : AllBlank lead) (text : Text) :
    content (lead ++ '*' :: text) = [] := by
  have hcomment : isComment (lead ++ '*' :: text) = true := by
    rw [isComment, trimLeft_append_of_allBlank h, trimLeft_cons_of_not (by decide)]
    rfl
  rw [content, if_pos hcomment]

/-- Blanks in front of a line do not change its content. -/
theorem content_indented {lead : Text} (h : AllBlank lead) (line : Text) :
    content (lead ++ line) = content line := by
  have hcomment : isComment (lead ++ line) = isComment line := by
    rw [isComment, trimLeft_append_of_allBlank h]
    rfl
  have hlast : lead.getLast? = some '*' → line.head? ≠ some '>' := fun hstar ↦
    absurd (h '*' (List.mem_of_getLast? hstar)) (by decide)
  have hopen : lead.foldl literalAfter none = none := openLiteral_of_allBlank h
  have htrim (t : Text) : trim (lead ++ t) = trim t := by
    rw [← trim_trimLeft, trimLeft_append_of_allBlank h, trim_trimLeft]
  rw [content, content, hcomment, trim_dropComment, trim_dropComment, beforeComment?_append hlast,
    beforeComment?_of_allBlank h, hopen, Option.none_or]
  cases beforeComment? none line with
  | none => rw [Option.map_none, Option.getD_none, Option.getD_none, htrim]
  | some t => rw [Option.map_some, Option.getD_some, Option.getD_some, htrim]

/-- Blanks behind a line do not change its content. -/
theorem content_trailing (line : Text) {trail : Text} (h : AllBlank trail) :
    content (line ++ trail) = content line := by
  by_cases hline : AllBlank line
  · rw [content_of_allBlank hline, content_of_allBlank (allBlank_append.2 ⟨hline, h⟩)]
  · have hhead : line.getLast? = some '*' → trail.head? ≠ some '>' := fun _ hmark ↦
      absurd (h '>' (List.mem_of_head? hmark)) (by decide)
    have htrim : trim (line ++ trail) = trim line := by
      rw [← trim_trimRight, trimRight_append_of_allBlank _ h, trim_trimRight]
    rw [content, content, isComment_append hline, trim_dropComment, trim_dropComment,
      beforeComment?_append hhead, beforeComment?_of_allBlank h, Option.map_none, Option.or_none]
    cases beforeComment? none line with
    | none => rw [Option.getD_none, Option.getD_none, htrim]
    | some t => rfl

/-- Blanks around a line are not part of its content. -/
theorem content_margins {lead trail : Text} (hlead : AllBlank lead) (htrail : AllBlank trail)
    (line : Text) : content (lead ++ line ++ trail) = content line := by
  rw [content_trailing _ htrail, content_indented hlead]

/-- A line with a comment behind it. -/
def remarked (line gap text : Text) : Text :=
  line ++ gap ++ '*' :: '>' :: text

/-- A comment behind a line is not part of its content, if it is not inside a literal. -/
theorem content_remarked {line gap : Text} (h : openLiteral (dropComment line) = none)
    (hgap : AllBlank gap) (text : Text) : content (remarked line gap text) = content line := by
  by_cases hline : AllBlank line
  · -- the line becomes a comment
    rw [remarked, content_comment (allBlank_append.2 ⟨hline, hgap⟩), content_of_allBlank hline]
  · have hcut : (line ++ gap).getLast? = some '*' → ('*' :: '>' :: text).head? ≠ some '>' :=
      fun _ hmark ↦ nomatch hmark
    have hgapCut : line.getLast? = some '*' → gap.head? ≠ some '>' := fun _ hmark ↦
      absurd (hgap '>' (List.mem_of_head? hmark)) (by decide)
    rw [content, content, remarked, List.append_assoc line, isComment_append hline,
      trim_dropComment, trim_dropComment, ← List.append_assoc, beforeComment?_append hcut,
      beforeComment?_append hgapCut, beforeComment?_of_allBlank hgap, Option.map_none,
      Option.or_none]
    cases hbefore : beforeComment? none line with
    | some t => rfl
    | none =>
      have hopen : (line ++ gap).foldl literalAfter none = none := by
        rw [dropComment, hbefore] at h
        exact (openLiteral_append_of_none h gap).trans (openLiteral_of_allBlank hgap)
      have hfound : beforeComment? none ('*' :: '>' :: text) = some [] := rfl
      rw [hopen, hfound, Option.none_or, Option.map_some, List.append_nil, Option.getD_some,
        Option.getD_none, ← trim_trimRight, trimRight_append_of_allBlank _ hgap, trim_trimRight]

/-! ### Edits -/

/-- A change to the source that leaves the contents alone. -/
inductive Edit : List Text → List Text → Prop
  /-- A blank line is put in. -/
  | blank (before after : List Text) {line : Text} (h : AllBlank line) :
      Edit (before ++ after) (before ++ line :: after)
  /-- A comment line is put in: its first character that is not blank is an asterisk. -/
  | comment (before after : List Text) {lead : Text} (h : AllBlank lead) (text : Text) :
      Edit (before ++ after) (before ++ (lead ++ '*' :: text) :: after)
  /-- Blanks are put around a line. -/
  | margins (before after : List Text) (line : Text) {lead trail : Text} (hlead : AllBlank lead)
      (htrail : AllBlank trail) :
      Edit (before ++ line :: after) (before ++ (lead ++ line ++ trail) :: after)
  /-- A comment is put behind a line whose literals are closed. -/
  | remark (before after : List Text) {line gap : Text} (h : openLiteral (dropComment line) = none)
      (hgap : AllBlank gap) (text : Text) :
      Edit (before ++ line :: after) (before ++ remarked line gap text :: after)

/-- Lines are normalised one by one. -/
theorem normalize_append (before after : List Text) :
    normalize (before ++ after) = normalize before ++ normalize after := by
  rw [normalize, List.map_append, List.filter_append]
  rfl

/-- Only the content of a line counts. -/
theorem normalize_cons_congr {line line' : Text} (h : content line = content line')
    (after : List Text) : normalize (line :: after) = normalize (line' :: after) := by
  rw [normalize, List.map_cons, h]
  rfl

/-- A line without content is dropped. -/
theorem normalize_cons_of_nil {line : Text} (h : content line = []) (after : List Text) :
    normalize (line :: after) = normalize after := by
  rw [normalize, List.map_cons, h]
  rfl

/-- **An edit leaves the contents alone.** -/
theorem Edit.normalize_eq {lines lines' : List Text} (h : Edit lines lines') :
    normalize lines' = normalize lines := by
  cases h with
  | blank before after hline =>
    rw [normalize_append, normalize_append, normalize_cons_of_nil (content_of_allBlank hline)]
  | comment before after hlead text =>
    rw [normalize_append, normalize_append, normalize_cons_of_nil (content_comment hlead text)]
  | margins before after line hlead htrail =>
    rw [normalize_append, normalize_append,
      normalize_cons_congr (content_margins hlead htrail line)]
  | remark before after hline hgap text =>
    rw [normalize_append, normalize_append,
      normalize_cons_congr (content_remarked hline hgap text)]

/-- Any number of edits leaves the normalised lines as they are. -/
theorem normalize_eq_of_edits {lines lines' : List Text} (h : Relation.EqvGen Edit lines lines') :
    normalize lines' = normalize lines := by
  induction h with
  | rel _ _ hedit => exact hedit.normalize_eq
  | refl => rfl
  | symm _ _ _ ih => exact ih.symm
  | trans _ _ _ _ _ ihfirst ihsecond => exact ihsecond.trans ihfirst

/-- Contents are normalized already: cutting a comment exposes no other. -/
@[simp] theorem normalize_normalize (lines : List Text) :
    normalize (normalize lines) = normalize lines :=
  normalize_eq_self fun _ hline ↦ isContent_of_mem_normalize hline

end Cobol.Sentence

namespace Cobol

open Text Sentence

/-- A program and its runs are read from the contents of the lines. -/
theorem runLines_congr {lines lines' : List Text} (h : normalize lines' = normalize lines) :
    Program.parse lines' = Program.parse lines ∧
      ∀ options, runLines options lines' = runLines options lines := by
  have hparse : Program.parse lines' = Program.parse lines := by
    rw [Program.parse, h]
    rfl
  have hnameless : Program.namelessSentences lines' = Program.namelessSentences lines := by
    rw [Program.namelessSentences, h]
    rfl
  refine ⟨hparse, fun options ↦ ?_⟩
  simp only [runLines, Session.run, hparse, hnameless]

/-- **Comments and margins do not matter.** Edits of the source, made and taken back in any number
and order, leave the program and the result of every run as they were; and so does normalizing the
source first, which is done but once. -/
theorem runLines_of_edits {lines lines' : List Text} (h : Relation.EqvGen Edit lines lines') :
    Program.parse lines' = Program.parse lines ∧
      (∀ options, runLines options lines' = runLines options lines) ∧
      normalize (normalize lines) = normalize lines ∧
      Program.parse (normalize lines) = Program.parse lines := by
  obtain ⟨hparse, hrun⟩ := runLines_congr (normalize_eq_of_edits h)
  exact ⟨hparse, hrun, normalize_normalize lines, (runLines_congr (normalize_normalize lines)).1⟩

/-- A program whose literal holds the marker of a comment. -/
def bareLines : List Text :=
  ["PROGRAM-ID. A.", "PROCEDURE DIVISION.", "DISPLAY 'IT *> IS'."].map String.toList

/-- The same program with a blank line, a comment line, a margin and two comments more. -/
def dressedLines : List Text :=
  ["PROGRAM-ID. A. *> don't", "  ", " * IT'S", "PROCEDURE DIVISION.",
   "\tDISPLAY 'IT *> IS'. *> '. *> '"].map String.toList

/-- A program with blank lines, comment lines, margins and comments put in, and the program without
them. -/
theorem runLines_of_edits_dressed :
    Relation.EqvGen Edit bareLines dressedLines ∧
      Program.parse dressedLines = Program.parse bareLines ∧
      (∀ options, runLines options dressedLines = runLines options bareLines) ∧
      normalize (normalize bareLines) = normalize bareLines ∧
      Program.parse (normalize bareLines) = Program.parse bareLines := by
  let name := "PROGRAM-ID. A.".toList
  let header := "PROCEDURE DIVISION.".toList
  let line := "DISPLAY 'IT *> IS'.".toList
  let dressed := "\tDISPLAY 'IT *> IS'. *> '. *> '".toList
  have htab : AllBlank ['\t'] := by decide
  have hspace : AllBlank [' '] := by decide
  have hspaces : AllBlank [' ', ' '] := by decide
  have hline : openLiteral (dropComment ('\t' :: line)) = none := by decide
  have hname : openLiteral (dropComment name) = none := by decide
  have hedits : Relation.EqvGen Edit bareLines dressedLines := by
    refine .trans _ _ _ (.rel _ _ (.margins [name, header] [] line htab .nil)) ?_
    refine .trans _ _ _ (.rel _ _ (.remark [name, header] [] hline hspace " '. *> '".toList)) ?_
    refine .trans _ _ _ (.rel _ _ (.comment [name] [header, dressed] hspace " IT'S".toList)) ?_
    refine .trans _ _ _ (.rel _ _ (.blank [name] [" * IT'S".toList, header, dressed] hspaces)) ?_
    exact .rel _ _ (.remark [] ["  ".toList, " * IT'S".toList, header, dressed] hname hspace
      " don't".toList)
  exact ⟨hedits, runLines_of_edits hedits⟩

end Cobol
