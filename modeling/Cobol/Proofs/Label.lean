import Cobol.Proofs.Block.Composition
import Cobol.Proofs.Block.Skipping
import Cobol.Session

/-!
# Labels are passed over

The procedure of a program keeps the lines that declare its paragraphs, and control that falls
through a paragraph meets the label of the next one as a statement. What a label is and what a
statement does are decided in two places: a label by its characters and a list of reserved words, a
statement by the keyword it starts with.

* `eq_spelling_of_isLabel`: a label has a verb only if it is spelled like the keyword.
* `isIdle_iff_of_labelOf?`: the two agree except on `IF`, `EVALUATE`, `WHEN` and `STOP-RUN`, which
  are verbs that act alone and are not reserved.
* `Program.execute_withoutLabels`: a program that declares none of the four runs as if its labels
  were not there. `Program.output_besideLabel_ne` has a program for each of the four that does not.

## Shape decisions

* Labels are compared with the table of keywords once, and the table is inverted: a label with a
  verb is one of its spellings. The rest is a check of these spellings.
* The four labels that act are a list (`actingLabels`), so that the theorem says which programs it
  is about and the counterexamples say that the list is right.
-/

namespace Cobol

open Text

/-! ### Verbs without operands -/

namespace Verb

/-- The verb acts without operands, or is a keyword of a block. -/
def actsAlone : Verb → Bool
  | ifThen | otherwise | endIf | evaluate | when | endEvaluate | stopRun | goBack => true
  | _ => false

/-- The keyword as it is written in a program. -/
def spelling (v : Verb) : Text :=
  v.keyword.map fun c ↦ if c == '_' then '-' else c

/-- Of the verbs that act with operands none opens a block, closes it or begins a part of it. -/
theorem ne_of_actsAlone {v : Verb} (h : v.actsAlone = false) (k : BlockKind) :
    v ≠ k.opener ∧ v ≠ k.closer ∧ v ≠ k.part := by
  refine ⟨?_, ?_, ?_⟩ <;> rintro rfl <;> cases k <;> cases h

end Verb

/-- A statement of one word does nothing if its verb needs operands. -/
theorem Action.ofText_of_alone {t w : Text} (hparts : words (Sentence.dropPeriod t) = [w])
    (harguments : arguments t = []) (hverb : (Verb.ofStatement t).actsAlone = false) :
    ofText t = .nothing ∨ ofText t = .unrecognized := by
  unfold ofText
  split
  · exact Or.inl rfl
  · rw [hparts, harguments]
    have hgoTo : ofGoTo [w] = .nothing := by
      rw [ofGoTo, List.tail_nil, ite_self]
    cases hv : Verb.ofStatement t with
    | ifThen | otherwise | endIf | evaluate | when | endEvaluate | stopRun | goBack =>
      rw [hv] at hverb
      cases hverb
    | goTo => exact Or.inl hgoTo
    | unknown => exact Or.inr rfl
    | _ => exact Or.inl rfl

/-! ### Labels as statements -/

/-- A character of a label is no mark. -/
theorem ne_of_isLabelChar {c mark : Char} (h : Program.isLabelChar c = true)
    (hmark : Program.isLabelChar mark = false) : c ≠ mark := by
  rintro rfl
  rw [h] at hmark
  cases hmark

/-- A label holds no underscore, so its hyphens come back where they were. -/
theorem IsLabel.map_hyphens {label : Text} (h : IsLabel label) :
    (label.map fun c ↦ if c == '-' then '_' else c).map (fun c ↦ if c == '_' then '-' else c) =
      label := by
  rw [List.map_map]
  refine (List.map_congr_left fun c hc ↦ ?_).trans (List.map_id label)
  have hne : c ≠ '_' := ne_of_isLabelChar (h.2 c hc) (by decide)
  by_cases hhyphen : c = '-'
  · rw [hhyphen]
    rfl
  · simp [hhyphen, hne]

/-- A label has a verb only if it is spelled like its keyword. -/
theorem eq_spelling_of_isLabel {label : Text} (h : IsLabel label) :
    Verb.ofWords [label] = .unknown ∨ label = (Verb.ofWords [label]).spelling := by
  rw [Verb.ofWords]
  split_ifs with hstop hrun hgo hunderscore
  · cases hrun
  · exact Or.inl rfl
  · cases hgo.2
  · exact Or.inl rfl
  · cases hlookup : Verb.keywords.lookup (label.map fun c ↦ if c == '-' then '_' else c) with
    | none => exact Or.inl rfl
    | some v =>
      have hkeywords : ∀ e ∈ Verb.keywords, e.1 = e.2.keyword := by decide
      obtain ⟨before, after, hsplit, -⟩ := List.lookup_eq_some_iff.1 hlookup
      have hmem : (label.map fun c ↦ if c == '-' then '_' else c, v) ∈ Verb.keywords := by
        rw [hsplit]
        exact List.mem_append_right _ List.mem_cons_self
      refine Or.inr ?_
      show label = v.keyword.map _
      rw [← hkeywords _ hmem, h.map_hyphens]

/-- A label stands alone in its line, before a period. -/
theorem labelOf?_eq_some {t label : Text} (h : Program.labelOf? t = some label) :
    IsLabel label ∧ label ∉ Program.reservedLabels ∧ trim t = label ++ ['.'] := by
  unfold Program.labelOf? at h
  dsimp only at h
  split_ifs at h with hshape
  simp only [Bool.and_eq_true, beq_iff_eq, Bool.not_eq_true', List.isEmpty_eq_false_iff,
    List.all_eq_true] at hshape
  obtain ⟨⟨⟨hlast, hne⟩, hchars⟩, hreserved⟩ := hshape
  obtain rfl : (Numeral.dropFinalNewline t).dropLast = label := Option.some.inj h
  refine ⟨⟨hne, hchars⟩, by simpa using hreserved, ?_⟩
  obtain ⟨body, hbody⟩ := List.getLast?_eq_some_iff.1 hlast
  rw [hbody, List.dropLast_concat] at hchars ⊢
  rw [← trim_dropFinalNewline, hbody]
  refine trim_of_forall_not fun c hc ↦ ?_
  rcases List.mem_append.1 hc with hc | hc
  · exact (plain_of_isLabelChar (hchars c hc)).2.1
  · rw [List.mem_singleton.1 hc]
    decide

/-- The period behind a label is dropped. -/
theorem IsLabel.dropPeriod_period {label : Text} (h : IsLabel label) :
    Sentence.dropPeriod (label ++ ['.']) = label := by
  have htrim : trimRight label = label :=
    List.rdropWhile_eq_self_iff.2 fun hne ↦ by
      rw [h.isPlain.not_blank _ (List.getLast_mem hne)]
      exact Bool.false_ne_true
  have hquotes : ∀ c ∈ label, isQuote c = false := fun c hc ↦ by
    have hsingle : c ≠ '\'' := ne_of_isLabelChar (h.2 c hc) (by decide)
    have hdouble : c ≠ '"' := ne_of_isLabelChar (h.2 c hc) (by decide)
    simp [isQuote, hsingle, hdouble]
  have hends : Sentence.EndsIn (label ++ ['.']) label :=
    ⟨trimRight_of_getLast? List.getLast?_concat (by decide),
      Sentence.openLiteral_of_forall_not_isQuote hquotes⟩
  rw [Sentence.dropPeriod_of_endsIn hends, htrim]

/-- The labels that are verbs which act alone, and are not reserved. -/
def actingLabels : List Text :=
  ["IF", "EVALUATE", "WHEN", "STOP-RUN"].map String.toList

/-- What is reserved or listed is what acts alone. -/
theorem spelling_mem_of_actsAlone {v : Verb} (h : v.actsAlone = true) :
    v.spelling ∈ Program.reservedLabels ∨ v.spelling ∈ actingLabels := by
  cases v with
  | ifThen | otherwise | endIf | evaluate | when | endEvaluate | stopRun | goBack => decide
  | _ => cases h

/-- The verb of a label is that of its only word. -/
theorem ofStatement_of_labelOf? {t label : Text} (h : Program.labelOf? t = some label) :
    Verb.ofStatement t = Verb.ofWords [label] := by
  obtain ⟨hlabel, -, htrim⟩ := labelOf?_eq_some h
  have hblank : isBlank ' ' = true := by decide
  have hwords : Verb.wordsOf (label ++ ['.']) = [label] := by
    rw [← Verb.wordsOf_dropPeriod, hlabel.dropPeriod_period,
      ← Verb.wordsOf_append_allBlank label (allBlank_cons.2 ⟨hblank, AllBlank.nil⟩),
      Verb.wordsOf_plain_append hlabel.isPlain hblank]
    rfl
  rw [← Verb.ofStatement_trim, htrim, Verb.ofStatement, hwords]

/-- **A label does nothing as a statement**, unless it is one of the four that act. -/
theorem isIdle_of_labelOf? {t label : Text} (h : Program.labelOf? t = some label)
    (hacting : label ∉ actingLabels) : IsIdle t := by
  obtain ⟨hlabel, hreserved, htrim⟩ := labelOf?_eq_some h
  have hverb : (Verb.ofStatement t).actsAlone = false := by
    rw [ofStatement_of_labelOf? h, ← Bool.not_eq_true]
    intro halone
    rcases eq_spelling_of_isLabel hlabel with hunknown | hspelling
    · rw [hunknown] at halone
      cases halone
    · have hmem := spelling_mem_of_actsAlone halone
      rw [← hspelling] at hmem
      exact hmem.elim hreserved hacting
  have hparts : words (Sentence.dropPeriod (trim t)) = [label] := by
    rw [htrim, hlabel.dropPeriod_period]
    exact words_of_forall_not hlabel.1 hlabel.isPlain.not_blank
  have harguments : arguments (trim t) = [] := by
    rw [arguments, htrim, hlabel.dropPeriod_period]
    exact afterWord_word hlabel.isPlain.not_blank
  exact ⟨Action.ofText_of_alone hparts harguments (by rwa [Verb.ofStatement_trim]),
    Verb.ne_of_actsAlone hverb⟩

/-- **A label is passed over unless it is a verb that acts alone.** -/
theorem isIdle_iff_of_labelOf? {t label : Text} (h : Program.labelOf? t = some label) :
    IsIdle t ↔ label ∉ actingLabels := by
  refine ⟨fun hidle hacting ↦ ?_, isIdle_of_labelOf? h⟩
  have hacts : ∀ label ∈ actingLabels, Verb.ofWords [label] = .when ∨
      Action.ofText (label ++ ['.']) ≠ .nothing ∧
        Action.ofText (label ++ ['.']) ≠ .unrecognized := by decide +kernel
  rcases hacts label hacting with hwhen | ⟨hnothing, hunrecognized⟩
  · rw [← ofStatement_of_labelOf? h] at hwhen
    exact (hidle.flat .choice).2.2 hwhen
  · obtain ⟨-, -, htrim⟩ := labelOf?_eq_some h
    rw [← htrim] at hnothing hunrecognized
    exact hidle.asks.elim hnothing hunrecognized

/-! ### Programs without their labels -/

namespace Program

/-- The program without the lines of its procedure that declare a label. -/
def withoutLabels (p : Program) : Program :=
  { p with procedure := p.procedure.filter fun t ↦ (labelOf? t).isNone }

/-- **Labels are transparent**: a program without a label that acts alone leaves the store, the
output, the input, the run flag and the fault that it leaves without its labels, from every state
and within every limit. -/
theorem execute_withoutLabels (p : Program)
    (h : ∀ t ∈ p.procedure, ∀ label ∈ labelOf? t, label ∉ actingLabels) (limits : Limits)
    (s : State) : (p.withoutLabels.execute limits s).visible = (p.execute limits s).visible := by
  have hpadded : Padded p.withoutLabels.procedure p.procedure := by
    refine .of_filter fun t ht hlabel ↦ ?_
    obtain ⟨label, hlabel⟩ : ∃ label, labelOf? t = some label := by
      rwa [Option.isNone_eq_false_iff, Option.isSome_iff_exists] at hlabel
    exact isIdle_of_labelOf? hlabel (h t ht label hlabel)
  exact similar_executeBlock_padded (.refl (p.machine limits)) limits.allowance hpadded s s rfl

/-- Sentences with labels that are verbs, one of them called as a paragraph, and with labels inside
the parts of blocks and before the first `WHEN`. -/
def labelledSentences : List Text :=
  ["MOVE.", "IF 1 = 1", "DISPLAY.", "DISPLAY 'A'.", "ELSE", "IF-A.", "END-IF.", "EVALUATE 1",
    "B-1.", "WHEN 1", "GOTO.", "PERFORM DISPLAY", "END-EVALUATE.", "STOP.", "DISPLAY 'C'."].map
    String.toList

/-- The program of the sentences. -/
def labelled : Program where
  paragraphs := Table.ofList (sections labelledSentences).2
  procedure := labelledSentences

/-- Labels at the top level and inside both kinds of block. -/
theorem execute_withoutLabels_labelled :
    (∀ t ∈ labelled.procedure, ∀ label ∈ labelOf? t, label ∉ actingLabels) ∧
      labelled.withoutLabels.procedure.length = 9 ∧
      (labelled.execute ⟨9, 9⟩ {}).state.output = #["A".toList, "A".toList, "C".toList] ∧
      (labelled.withoutLabels.execute ⟨9, 9⟩ {}).visible =
        (labelled.execute ⟨9, 9⟩ {}).visible := by
  have hlabels : ∀ t ∈ labelled.procedure, ∀ label ∈ labelOf? t, label ∉ actingLabels := by
    decide +kernel
  exact ⟨hlabels, by decide +kernel, by decide +kernel,
    execute_withoutLabels labelled hlabels ⟨9, 9⟩ {}⟩

/-! ### The labels that act -/

/-- A program with a label in a branch that is taken, before a line of output. -/
def besideLabel (label : Text) : Program where
  procedure := ["EVALUATE 1".toList, "WHEN 1".toList, label ++ ['.'], "DISPLAY 'A'.".toList,
    "END-EVALUATE.".toList]

/-- Each label that acts alone takes away the output. -/
theorem output_besideLabel_ne : ∀ label ∈ actingLabels,
    labelOf? (label ++ ['.']) = some label ∧
      ((besideLabel label).withoutLabels.execute ⟨9, 9⟩ {}).state.output = #["A".toList] ∧
      ((besideLabel label).execute ⟨9, 9⟩ {}).state.output = #[] := by
  decide +kernel

end Program

end Cobol
