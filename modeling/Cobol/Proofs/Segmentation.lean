import Cobol.Proofs.Label

/-!
# Paragraphs of a procedure

Reading a program cuts its procedure at the labels. The cut loses nothing and adds nothing:

* the names of the paragraphs are the labels, each once, in the order in which they come first;
* the body of a paragraph is the run of sentences without a label behind the *last* sentence that
  declares its label (`Program.IsLastSection`), so a label that is declared again starts afresh and
  keeps its place;
* with distinct labels the procedure is what stands before the first label and then, for each
  paragraph, its label and its body;
* a paragraph is found under its label in any case.

`sections` is opened once for each of the first three: for its labels, its bodies and its lines.

## Shape decisions

* The specification is a recursion on the sentences from the right (`sections`): a label takes what
  was in front of the next label as its body. The program reads from the left and keeps a table.
* Repeated labels make the table smaller than the list of sections. What the table holds of them is
  said by the last section with the label, and its place by the first.
-/

namespace Cobol

open Text

/-! ### Tables of lists with repeated names -/

namespace Table

variable {α : Type}

/-- A name that is there keeps its place, a new one comes last. -/
theorem names_put (t : Table α) (name : Text) (entry : α) :
    (t.put name entry).names = if name ∈ t.names then t.names else t.names ++ [name] := by
  obtain ⟨entries⟩ := t
  show (putEntry name entry entries).map (·.1) =
    if name ∈ entries.map (·.1) then entries.map (·.1) else entries.map (·.1) ++ [name]
  induction entries with
  | nil => rfl
  | cons e rest ih =>
    obtain ⟨key, old⟩ := e
    by_cases hkey : name = key
    · simp [putEntry, hkey]
    · rw [putEntry, beq_eq_false_iff_ne.2 hkey, if_neg Bool.false_ne_true, List.map_cons,
        List.map_cons, ih]
      by_cases hmem : name ∈ rest.map (·.1)
      · rw [if_pos hmem, if_pos (List.mem_cons_of_mem _ hmem)]
      · rw [if_neg hmem, if_neg (by simpa [hkey] using hmem)]
        rfl

/-- The last entry of a list is put into the table of those before it. -/
theorem ofList_concat (entries : List (Text × α)) (e : Text × α) :
    ofList (entries ++ [e]) = (ofList entries).put e.1 e.2 := by
  rw [ofList, List.foldl_append]
  rfl

/-- The names stand in the order of their first occurrence. -/
theorem names_ofList (entries : List (Text × α)) :
    (ofList entries).names = (entries.map (·.1)).eraseDups := by
  induction entries using List.reverseRecOn with
  | nil => rfl
  | append_singleton entries e ih =>
    rw [ofList_concat, names_put, ih, List.map_append, List.eraseDups_append]
    by_cases hmem : e.1 ∈ entries.map (·.1)
    · rw [if_pos (List.mem_eraseDups.2 hmem), List.map_singleton,
        show [e.1].removeAll (entries.map (·.1)) = [] by simpa [List.removeAll] using hmem]
      exact (List.append_nil _).symm
    · rw [if_neg (mt List.mem_eraseDups.1 hmem), List.map_singleton,
        show [e.1].removeAll (entries.map (·.1)) = [e.1] by simpa [List.removeAll] using hmem]
      rfl

/-- A name has the last of its entries. -/
theorem get?_ofList (entries : List (Text × α)) (key : Text) :
    (ofList entries).get? key = entries.reverse.lookup key := by
  induction entries using List.reverseRecOn with
  | nil => rfl
  | append_singleton entries e ih =>
    rw [ofList_concat, get?_put, ih, List.reverse_append, List.reverse_singleton,
      List.singleton_append, List.lookup_cons]
    by_cases hkey : key = e.1
    · rw [if_pos hkey, beq_iff_eq.2 hkey]
    · rw [if_neg hkey, beq_eq_false_iff_ne.2 hkey]

/-- An entry counts only if no later one has its name. -/
theorem get?_ofList_cons (e : Text × α) (entries : List (Text × α)) (key : Text) :
    (ofList (e :: entries)).get? key =
      ((ofList entries).get? key).or (if key = e.1 then some e.2 else none) := by
  rw [get?_ofList, get?_ofList, List.reverse_cons, List.lookup_append, List.lookup_cons]
  by_cases hkey : key = e.1
  · rw [if_pos hkey, beq_iff_eq.2 hkey]
  · rw [if_neg hkey, beq_eq_false_iff_ne.2 hkey]
    rfl

/-- Nothing is found exactly under the names that are not in the table. -/
theorem get?_eq_none_iff (t : Table α) (key : Text) : t.get? key = none ↔ key ∉ t.names := by
  rw [get?, List.lookup_eq_none_iff, names, List.mem_map]
  constructor
  · rintro h ⟨e, he, rfl⟩
    simpa using h e he
  · exact fun h e he ↦ bne_iff_ne.2 fun hkey ↦ h ⟨e, he, hkey.symm⟩

end Table

/-! ### The sections of a procedure -/

/-- Sentences have no blanks around them. -/
theorem Sentence.trim_of_mem_sentences {line sentence : Text} (h : sentence ∈ sentences line) :
    trim sentence = sentence := by
  obtain ⟨piece, -, rfl⟩ := List.mem_map.1 (List.mem_of_mem_filter h)
  exact trim_trim piece

namespace Program

/-- The sentences of a procedure have no blanks around them. -/
theorem trim_of_mem_procedureSentences {lines : List Text} {sentence : Text}
    (h : sentence ∈ procedureSentences lines) : trim sentence = sentence := by
  obtain ⟨line, -, hline⟩ := List.mem_flatMap.1 h
  exact Sentence.trim_of_mem_sentences hline

/-- A trimmed sentence that declares a label is the label and a period. -/
theorem eq_of_labelOf? {sentence label : Text} (h : labelOf? sentence = some label)
    (htrim : trim sentence = sentence) : sentence = label ++ ['.'] :=
  htrim.symm.trans (labelOf?_eq_some h).2.2

/-- The sentences before the first label. -/
def unlabelled (procedure : List Text) : List Text :=
  procedure.takeWhile fun t ↦ (labelOf? t).isNone

/-- A sentence without a label belongs to what stands before the first label. -/
theorem sections_cons_of_none {sentence : Text} (h : labelOf? sentence = none)
    (rest : List Text) :
    sections (sentence :: rest) = (sentence :: (sections rest).1, (sections rest).2) := by
  rw [sections, h]

/-- A label begins a section, whose body is what stood before the first label behind it. -/
theorem sections_cons_of_some {sentence label : Text} (h : labelOf? sentence = some label)
    (rest : List Text) :
    sections (sentence :: rest) = ([], (label, (sections rest).1) :: (sections rest).2) := by
  rw [sections, h]

/-- What stands before the first label is the sentences up to it. -/
theorem fst_sections (procedure : List Text) : (sections procedure).1 = unlabelled procedure := by
  induction procedure with
  | nil => rfl
  | cons sentence rest ih =>
    cases h : labelOf? sentence with
    | none =>
      rw [sections_cons_of_none h, unlabelled, List.takeWhile_cons_of_pos (by rw [h]; rfl), ih]
      rfl
    | some label =>
      rw [sections_cons_of_some h, unlabelled, List.takeWhile_cons_of_neg (by rw [h]; nofun)]

/-- The labels of the sections are the labels of the procedure, in their order. -/
theorem names_sections (procedure : List Text) :
    (sections procedure).2.map (·.1) = procedure.filterMap labelOf? := by
  induction procedure with
  | nil => rfl
  | cons sentence rest ih =>
    cases h : labelOf? sentence with
    | none => rw [sections_cons_of_none h, List.filterMap_cons_none h, ih]
    | some label =>
      rw [sections_cons_of_some h, List.filterMap_cons_some h, List.map_cons, ih]

/-- **The sections make up the procedure**, each behind its label. -/
theorem flatten_sections {procedure : List Text} (h : ∀ t ∈ procedure, trim t = t) :
    procedure = unlabelled procedure ++
      (sections procedure).2.flatMap fun e ↦ (e.1 ++ ['.']) :: e.2 := by
  rw [← fst_sections]
  induction procedure with
  | nil => rfl
  | cons sentence rest ih =>
    obtain ⟨hsentence, hrest⟩ := List.forall_mem_cons.1 h
    cases hlabel : labelOf? sentence with
    | none =>
      rw [sections_cons_of_none hlabel, List.cons_append, ← ih hrest]
    | some label =>
      rw [sections_cons_of_some hlabel, List.flatMap_cons, List.nil_append, List.cons_append,
        ← ih hrest, ← eq_of_labelOf? hlabel hsentence]

/-- The body is the greatest run of sentences without a label behind the last sentence that declares
the label. -/
def IsLastSection (procedure : List Text) (label : Text) (body : List Text) : Prop :=
  ∃ before opener rest, procedure = before ++ opener :: (body ++ rest) ∧
    labelOf? opener = some label ∧ (∀ t ∈ body ++ rest, labelOf? t ≠ some label) ∧
    (∀ t ∈ body, labelOf? t = none) ∧ ∀ t ∈ rest.head?, labelOf? t ≠ none

/-- A run without a label that ends at a label or at the end stands before the first label. -/
theorem eq_unlabelled_iff {procedure body : List Text} :
    body = unlabelled procedure ↔ ∃ rest, procedure = body ++ rest ∧
      (∀ t ∈ body, labelOf? t = none) ∧ ∀ t ∈ rest.head?, labelOf? t ≠ none := by
  constructor
  · rintro rfl
    refine ⟨procedure.dropWhile fun t ↦ (labelOf? t).isNone, List.takeWhile_append_dropWhile.symm,
      fun t ht ↦ ?_, fun t ht ↦ ?_⟩
    · exact Option.isNone_iff_eq_none.1
        (List.mem_takeWhile_imp (p := fun t ↦ (labelOf? t).isNone) ht)
    have hstop := List.head?_dropWhile_not (fun t ↦ (labelOf? t).isNone) procedure
    rw [Option.mem_def.1 ht] at hstop
    exact Option.isSome_iff_ne_none.1 (by simpa using hstop)
  · rintro ⟨rest, rfl, hbody, hrest⟩
    have hall : ∀ t ∈ body, (labelOf? t).isNone = true := fun t ht ↦ by rw [hbody t ht]; rfl
    rw [unlabelled, List.takeWhile_append_of_pos hall]
    cases rest with
    | nil => simp
    | cons t rest =>
      have hhead : labelOf? t ≠ none := hrest t rfl
      rw [List.takeWhile_cons_of_neg (by simpa [Option.isNone_iff_eq_none] using hhead),
        List.append_nil]

/-- The last section of a label is one of the rest, or the first, if the rest has none. -/
theorem isLastSection_cons_iff {sentence label : Text} {rest body : List Text} :
    IsLastSection (sentence :: rest) label body ↔ IsLastSection rest label body ∨
      labelOf? sentence = some label ∧ (∀ t ∈ rest, labelOf? t ≠ some label) ∧
        body = unlabelled rest := by
  constructor
  · rintro ⟨before, opener, behind, hsplit, hopener, hlast, hrun⟩
    cases before with
    | nil =>
      obtain ⟨rfl, rfl⟩ := List.cons.inj hsplit
      exact Or.inr ⟨hopener, hlast, eq_unlabelled_iff.2 ⟨behind, rfl, hrun⟩⟩
    | cons first before =>
      obtain ⟨-, rfl⟩ := List.cons.inj hsplit
      exact Or.inl ⟨before, opener, behind, rfl, hopener, hlast, hrun⟩
  · rintro (⟨before, opener, behind, rfl, hsection⟩ | ⟨hopener, hlast, hbody⟩)
    · exact ⟨sentence :: before, opener, behind, rfl, hsection⟩
    · obtain ⟨behind, rfl, hrun⟩ := eq_unlabelled_iff.1 hbody
      exact ⟨[], sentence, behind, rfl, hopener, hlast, hrun⟩

/-- The paragraph of a label is its last section. -/
theorem get?_sections_iff {procedure : List Text} {label : Text} {body : List Text} :
    (Table.ofList (sections procedure).2).get? label = some body ↔
      IsLastSection procedure label body := by
  induction procedure with
  | nil => exact ⟨nofun, fun ⟨before, _, _, hsplit, _⟩ ↦ by cases before <;> cases hsplit⟩
  | cons sentence rest ih =>
    rw [isLastSection_cons_iff, ← ih]
    cases h : labelOf? sentence with
    | none => rw [sections_cons_of_none h]; simp
    | some first =>
      -- the rest has no section of a label exactly if it does not declare the label
      have hnone : (Table.ofList (sections rest).2).get? label = none ↔
          ∀ t ∈ rest, labelOf? t ≠ some label := by
        rw [Table.get?_eq_none_iff, Table.names_ofList, names_sections, List.mem_eraseDups]
        simp
      rw [sections_cons_of_some h, Table.get?_ofList_cons, fst_sections, Option.or_eq_some_iff,
        hnone, Option.some.injEq]
      by_cases hlabel : label = first
      · simp [hlabel, eq_comm]
      · simp [hlabel, Ne.symm hlabel]

end Program

/-! ### Labels in any case -/

/-- A character whose capital is a label character has it as its upper case. -/
theorem upperChar_of_isLabelChar_toUpper {c : Char} (h : Program.isLabelChar c.toUpper = true) :
    upperChar c = [c.toUpper] := by
  by_cases hsmall : 'a' ≤ c ∧ c ≤ 'z'
  · have hall : ∀ n < 128, 'a' ≤ Char.ofNat n ∧ Char.ofNat n ≤ 'z' →
        upperChar (Char.ofNat n) = [(Char.ofNat n).toUpper] := by decide +kernel
    have hascii : c.toNat < 128 := Nat.lt_of_le_of_lt hsmall.2 (by decide)
    have := hall c.toNat hascii
    rw [Char.ofNat_toNat] at this
    exact this hsmall
  · have hsame : c.toUpper = c := dif_neg hsmall
    rw [hsame] at h ⊢
    exact (plain_of_isLabelChar h).1

/-- A label in any case has the label as its upper case. -/
theorem IsLabel.upper_of_map_toUpper {label variant : Text} (h : IsLabel label)
    (hvariant : variant.map Char.toUpper = label) : upper variant = label := by
  have hchars : ∀ c ∈ variant, upperChar c = [c.toUpper] := fun c hc ↦
    upperChar_of_isLabelChar_toUpper (h.2 _ (hvariant ▸ List.mem_map_of_mem hc))
  rw [upper, List.flatMap_congr hchars, ← hvariant, List.map_eq_flatMap]

namespace Program

/-- **The paragraphs are the procedure, cut at its labels.** Their names are the labels in order of
first occurrence; the body of a label is the run of sentences without a label behind its last
declaration; with distinct labels nothing is lost, and the procedure is put together again from the
paragraphs. Each is found under its label in any case of its ASCII letters. -/
theorem parse_paragraphs {lines : List Text} {p : Program} (h : parse lines = .ok p) :
    p.paragraphs.names = (p.procedure.filterMap labelOf?).eraseDups ∧
    (∀ label body, p.paragraphs.get? label = some body ↔ IsLastSection p.procedure label body) ∧
    (∀ sentence ∈ p.procedure, ∀ label ∈ labelOf? sentence, sentence = label ++ ['.']) ∧
    ((p.procedure.filterMap labelOf?).Nodup →
      p.procedure = unlabelled p.procedure ++
        p.paragraphs.entries.flatMap fun e ↦ (e.1 ++ ['.']) :: e.2) ∧
    ∀ label body, p.paragraphs.get? label = some body →
      ∀ variant : Text, variant.map Char.toUpper = label → p.paragraph? variant = some body := by
  obtain ⟨declarations, -, rfl⟩ := Except.map_eq_ok_iff.1 h
  have htrim : ∀ t ∈ procedureSentences (Sentence.normalize lines), trim t = t := fun t ht ↦
    trim_of_mem_procedureSentences ht
  refine ⟨?_, fun label body ↦ get?_sections_iff, fun t ht label hlabel ↦
    eq_of_labelOf? hlabel (htrim t ht), fun hdistinct ↦ ?_,
    fun label body hbody variant hvariant ↦ ?_⟩
  · rw [Table.names_ofList, names_sections]
  · dsimp only
    rw [Table.entries_ofList (by rwa [names_sections])]
    exact flatten_sections htrim
  · obtain ⟨before, opener, rest, -, hopener, -⟩ := get?_sections_iff.1 hbody
    rw [paragraph?, (labelOf?_eq_some hopener).1.upper_of_map_toUpper hvariant]
    exact hbody

/-- A procedure with sentences before its labels, a label declared again, a paragraph without
sentences and a reserved word that looks like a label. -/
def segmentedLines : List Text :=
  ["PROCEDURE DIVISION.", "DISPLAY 'A'.", "P-1. DISPLAY 'B'.", "P-2.", "P-1.", "EXIT.",
    "DISPLAY 'C'."].map String.toList

/-- What `segmentedLines` says. -/
def segmented : Program where
  paragraphs := ⟨[("P-1".toList, ["EXIT.", "DISPLAY 'C'."].map String.toList),
    ("P-2".toList, [])]⟩
  procedure := ["DISPLAY 'A'.", "P-1.", "DISPLAY 'B'.", "P-2.", "P-1.", "EXIT.",
    "DISPLAY 'C'."].map String.toList

/-- The same up to the label that is declared again. -/
def segmentedOnce : Program where
  paragraphs := ⟨[("P-1".toList, ["DISPLAY 'B'.".toList]), ("P-2".toList, [])]⟩
  procedure := ["DISPLAY 'A'.", "P-1.", "DISPLAY 'B'.", "P-2."].map String.toList

/-- A procedure with a label that is declared twice, looked up in small letters, and its first lines
with every label once. -/
theorem parse_paragraphs_segmented :
    parse segmentedLines = .ok segmented ∧
    segmented.paragraphs.names = (segmented.procedure.filterMap labelOf?).eraseDups ∧
    IsLastSection segmented.procedure "P-1".toList (["EXIT.", "DISPLAY 'C'."].map String.toList) ∧
    segmented.paragraph? "p-1".toList = some (["EXIT.", "DISPLAY 'C'."].map String.toList) ∧
    parse (segmentedLines.take 4) = .ok segmentedOnce ∧
    segmentedOnce.procedure = unlabelled segmentedOnce.procedure ++
      segmentedOnce.paragraphs.entries.flatMap fun e ↦ (e.1 ++ ['.']) :: e.2 := by
  have hparse : parse segmentedLines = .ok segmented := by decide +kernel
  have honce : parse (segmentedLines.take 4) = .ok segmentedOnce := by decide +kernel
  obtain ⟨hnames, hbodies, -, -, hfound⟩ := parse_paragraphs hparse
  have hbody : segmented.paragraphs.get? "P-1".toList =
      some (["EXIT.", "DISPLAY 'C'."].map String.toList) := by decide
  exact ⟨hparse, hnames, (hbodies _ _).1 hbody, hfound _ _ hbody _ (by decide), honce,
    (parse_paragraphs honce).2.2.2.1 (by decide +kernel)⟩

end Program

end Cobol
