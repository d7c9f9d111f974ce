import Cobol.Proofs.Text.Blank
import Cobol.Statement

/-!
# What a statement asks for does not depend on its edges

A statement is taken with the blanks around it and with its final period, and what it asks for is
read off its verb, its words and its arguments. None of these sees the blanks, and the verb does not
see the period either.

* `dropPeriod_append` is the law of the final period: whatever stands before a text, as long as it
  leaves no literal open, the period that is dropped is that of the text.
* `Action.ofText_congr`: two statements with the same verb that agree without their final periods
  ask for the same.
* `Action.isAskedBy_ofText`: what a statement asks for fits its verb, so the verb can be told from
  it.
* `arguments_joined`: what stands behind a keyword on its line is the statement that was written
  there, without its period. This is how a statement shares a line with `ELSE` or `WHEN`.

## Shape decisions

* The final period is characterised by `EndsIn`: a period with blanks at most behind it, and no
  literal open in front of it. The function that drops it is not opened elsewhere.
* What an action can be asked by is an inversion that is proved once for all verbs. A statement
  whose action is known has one of the verbs that ask for it, and no other proof looks at all of
  them.
-/

namespace Cobol

open Text

/-! ### Literals -/

namespace Sentence

/-- The literal that is open behind a text depends on the one that is open in front of it. -/
theorem openLiteral_append (s t : Text) :
    openLiteral (s ++ t) = t.foldl literalAfter (openLiteral s) :=
  List.foldl_append

/-- A text that leaves no literal open does not change what is open behind it. -/
theorem openLiteral_append_of_none {s : Text} (hs : openLiteral s = none) (t : Text) :
    openLiteral (s ++ t) = openLiteral t := by
  rw [openLiteral_append, hs]
  rfl

/-- Characters that are no quotes open no literal. -/
theorem openLiteral_of_forall_not_isQuote {s : Text} (h : ∀ c ∈ s, isQuote c = false) :
    openLiteral s = none := by
  induction s with
  | nil => rfl
  | cons c s ih =>
    have hc : openLiteral [c] = none := by
      simp [openLiteral, literalAfter, h c (List.mem_cons_self ..)]
    rw [show c :: s = [c] ++ s from rfl, openLiteral_append_of_none hc]
    exact ih fun a ha ↦ h a (List.mem_cons_of_mem _ ha)

/-- Blanks open no literal. -/
theorem openLiteral_of_allBlank {s : Text} (h : AllBlank s) : openLiteral s = none :=
  openLiteral_of_forall_not_isQuote fun c hc ↦ isQuote_of_isBlank (h c hc)

/-! ### The final period -/

/-- The text ends in a period that is no part of a literal, and `body` stands before it. -/
def EndsIn (t body : Text) : Prop :=
  trimRight t = body ++ ['.'] ∧ openLiteral body = none

/-- A text that ends in a period loses it, and the blanks in front of it. -/
theorem dropPeriod_of_endsIn {t body : Text} (h : EndsIn t body) :
    dropPeriod t = trimRight body := by
  simp [dropPeriod, h.1, h.2]

/-- A text that ends in no period only loses the blanks at its end. -/
theorem dropPeriod_of_not_endsIn {t : Text} (h : ∀ body, ¬EndsIn t body) :
    dropPeriod t = trimRight t := by
  unfold dropPeriod
  simp only [Bool.and_eq_true, beq_iff_eq, ite_eq_right_iff, and_imp]
  intro hlast hnone
  obtain ⟨body, hbody⟩ := List.getLast?_eq_some_iff.1 hlast
  rw [hbody, List.dropLast_concat] at hnone
  exact absurd ⟨hbody, Option.isNone_iff_eq_none.1 hnone⟩ (h body)

/-- Nothing is left of blanks. -/
theorem dropPeriod_of_allBlank {t : Text} (h : AllBlank t) : dropPeriod t = [] := by
  have htrim := trimRight_eq_nil_iff.2 h
  rw [dropPeriod_of_not_endsIn, htrim]
  rintro body ⟨hbody, -⟩
  rw [htrim] at hbody
  exact absurd hbody.symm (by simp)

@[simp] theorem trimRight_dropPeriod (t : Text) : trimRight (dropPeriod t) = dropPeriod t := by
  by_cases h : ∃ body, EndsIn t body
  · obtain ⟨body, hbody⟩ := h
    rw [dropPeriod_of_endsIn hbody, trimRight_trimRight]
  · rw [dropPeriod_of_not_endsIn (not_exists.1 h), trimRight_trimRight]

@[simp] theorem dropPeriod_trimRight (t : Text) : dropPeriod (trimRight t) = dropPeriod t := by
  rw [dropPeriod, trimRight_trimRight]
  rfl

/-- Without its final period a text is a beginning of itself. -/
theorem dropPeriod_prefix (t : Text) : dropPeriod t <+: t := by
  have htrim : trimRight t <+: t := List.rdropWhile_prefix _ _
  by_cases h : ∃ body, EndsIn t body
  · obtain ⟨body, hbody⟩ := h
    rw [dropPeriod_of_endsIn hbody]
    have hle : body <+: trimRight t := ⟨['.'], hbody.1.symm⟩
    exact ((List.rdropWhile_prefix _ _).trans hle).trans htrim
  · rw [dropPeriod_of_not_endsIn (not_exists.1 h)]
    exact htrim

/-- The period is dropped from the text at the end, whatever closed text stands before it. -/
theorem dropPeriod_append {s : Text} (hs : openLiteral s = none) {t : Text}
    (ht : ¬AllBlank t) : dropPeriod (s ++ t) = trimRight (s ++ dropPeriod t) := by
  have htrim := trimRight_append_of_not_allBlank s ht
  by_cases h : ∃ body, EndsIn t body
  · obtain ⟨body, hbody⟩ := h
    have hends : EndsIn (s ++ t) (s ++ body) :=
      ⟨by rw [htrim, hbody.1, List.append_assoc], by
        rw [openLiteral_append_of_none hs, hbody.2]⟩
    rw [dropPeriod_of_endsIn hends, dropPeriod_of_endsIn hbody]
    by_cases hblank : AllBlank body
    · rw [trimRight_eq_nil_iff.2 hblank, trimRight_append_of_allBlank _ hblank, List.append_nil]
    · rw [trimRight_append_of_not_allBlank _ hblank]
      conv_rhs => rw [trimRight_append_of_not_allBlank _ (by
        rwa [← trimRight_eq_nil_iff, trimRight_trimRight, trimRight_eq_nil_iff]),
        trimRight_trimRight]
  · have hnot := not_exists.1 h
    have hnot' : ∀ body, ¬EndsIn (s ++ t) body := by
      rintro body ⟨hbody, hnone⟩
      -- the last character of the whole is that of `t`, so `t` would end in the same period
      have hne : trimRight t ≠ [] := fun he ↦ ht (trimRight_eq_nil_iff.1 he)
      rw [htrim] at hbody
      rcases List.append_eq_append_iff.1 hbody with ⟨a, rfl, ha⟩ | ⟨a, rfl, ha⟩
      · exact hnot a ⟨ha, by rwa [openLiteral_append_of_none hs] at hnone⟩
      · cases a with
        | nil => exact hnot [] ⟨by simpa using ha.symm, rfl⟩
        | cons c a => simp_all
    rw [dropPeriod_of_not_endsIn hnot', dropPeriod_of_not_endsIn hnot, htrim]
    conv_rhs => rw [trimRight_append_of_not_allBlank _ (by
      rwa [← trimRight_eq_nil_iff, trimRight_trimRight, trimRight_eq_nil_iff]),
      trimRight_trimRight]

/-- Blanks in front of a text do not change which period is its final one. -/
theorem dropPeriod_trimLeft (t : Text) : dropPeriod (trimLeft t) = trimLeft (dropPeriod t) := by
  by_cases ht : AllBlank t
  · rw [trimLeft_eq_nil_iff.2 ht, dropPeriod_of_allBlank ht]
    rfl
  · have hlead : AllBlank (t.takeWhile isBlank) := fun c hc ↦ List.mem_takeWhile_imp hc
    have hsplit : t = t.takeWhile isBlank ++ trimLeft t :=
      (List.takeWhile_append_dropWhile).symm
    obtain ⟨c, rest, hc⟩ := List.exists_cons_of_ne_nil fun he ↦ ht (trimLeft_eq_nil_iff.1 he)
    have hnot : ¬AllBlank (trimLeft t) := by
      rw [← trimLeft_eq_nil_iff, trimLeft_trimLeft, hc]
      simp
    -- a prefix of the trimmed text starts where it does
    have hstart : trimLeft (dropPeriod (trimLeft t)) = dropPeriod (trimLeft t) := by
      obtain ⟨more, hmore⟩ := dropPeriod_prefix (trimLeft t)
      cases hd : dropPeriod (trimLeft t) with
      | nil => rfl
      | cons d ds =>
        rw [hd, hc, List.cons_append, List.cons.injEq] at hmore
        exact trimLeft_cons_of_not (hmore.1 ▸ isBlank_of_trimLeft hc) ds
    conv_rhs => rw [hsplit, dropPeriod_append (openLiteral_of_allBlank hlead) hnot,
      trimLeft_trimRight, trimLeft_append_of_allBlank hlead, hstart, trimRight_dropPeriod]

/-- Blanks around a text do not change which period is its final one. -/
theorem dropPeriod_trim (t : Text) : dropPeriod (trim t) = trimLeft (dropPeriod t) := by
  rw [trim, dropPeriod_trimLeft, dropPeriod_trimRight]

/-- The words of a statement do not depend on the blanks around it. -/
theorem words_dropPeriod_trim (t : Text) : words (dropPeriod (trim t)) = words (dropPeriod t) := by
  rw [dropPeriod_trim, ← words_trim, trim_trimLeft, words_trim]

end Sentence

open Sentence

/-- Blanks around a statement do not change its arguments. -/
theorem arguments_trim (t : Text) : arguments (trim t) = arguments t := by
  rw [arguments, dropPeriod_trim, afterWord_trimLeft]
  rfl

/-! ### Verbs -/

namespace Verb

/-- The words of a statement are not changed by blanks around it. -/
theorem wordsOf_append_allBlank (s : Text) {t : Text} (h : AllBlank t) :
    wordsOf (s ++ t) = wordsOf s := by
  have hmap : AllBlank (t.map fun c ↦ if c == '.' then ' ' else c) := by
    intro c hc
    obtain ⟨a, ha, rfl⟩ := List.mem_map.1 hc
    have hne : a ≠ '.' := ne_of_isBlank (h a ha) (by decide)
    simpa [hne] using h a ha
  rw [wordsOf, upper_append, upper_of_allBlank h, List.map_append, words_append_allBlank _ hmap]
  rfl

/-- Blanks in front of a statement do not change the words that give its verb. -/
theorem wordsOf_allBlank_append {s : Text} (h : AllBlank s) (t : Text) :
    wordsOf (s ++ t) = wordsOf t := by
  have hmap : AllBlank (s.map fun c ↦ if c == '.' then ' ' else c) := by
    intro c hc
    obtain ⟨a, ha, rfl⟩ := List.mem_map.1 hc
    have hne : a ≠ '.' := ne_of_isBlank (h a ha) (by decide)
    simpa [hne] using h a ha
  rw [wordsOf, upper_append, upper_of_allBlank h, List.map_append, words_append_of_allBlank hmap]
  rfl

/-- Blanks around a statement do not change the words that give its verb. -/
theorem wordsOf_trim (t : Text) : wordsOf (trim t) = wordsOf t := by
  obtain ⟨lead, trail, hlead, htrail, h⟩ := exists_blanks_trim t
  conv_rhs => rw [h]
  rw [wordsOf_allBlank_append hlead, wordsOf_append_allBlank _ htrail]

theorem wordsOf_trimRight (t : Text) : wordsOf (trimRight t) = wordsOf t := by
  rw [← wordsOf_trim, trim_trimRight, wordsOf_trim]

/-- A period counts as a blank, so the final one takes no word with it. -/
theorem wordsOf_dropPeriod (t : Text) : wordsOf (dropPeriod t) = wordsOf t := by
  by_cases h : ∃ body, EndsIn t body
  · obtain ⟨body, hbody⟩ := h
    have hdot : wordsOf (body ++ ['.']) = wordsOf body := by
      rw [wordsOf, upper_append, List.map_append]
      exact words_append_allBlank _ (by simp [AllBlank, upper, upperChar, isBlank])
    rw [dropPeriod_of_endsIn hbody, wordsOf_trimRight, ← hdot, ← hbody.1, wordsOf_trimRight]
  · rw [dropPeriod_of_not_endsIn (not_exists.1 h), wordsOf_trimRight]

/-- Blanks around a statement do not change its verb. -/
@[simp] theorem ofStatement_trim (t : Text) : ofStatement (trim t) = ofStatement t := by
  rw [ofStatement, wordsOf_trim]
  rfl

/-- The final period does not change the verb. -/
@[simp] theorem ofStatement_dropPeriod (t : Text) :
    ofStatement (dropPeriod t) = ofStatement t := by
  rw [ofStatement, wordsOf_dropPeriod]
  rfl

/-- Blanks have no verb that is known. -/
theorem ofStatement_of_allBlank {t : Text} (h : AllBlank t) : ofStatement t = .unknown := by
  rw [ofStatement, show wordsOf t = [] from wordsOf_append_allBlank [] h]
  rfl

/-- A statement with a verb is not empty. -/
theorem trim_ne_nil {t : Text} (h : ofStatement t ≠ .unknown) : trim t ≠ [] := fun hnil ↦
  h (ofStatement_of_allBlank (trim_eq_nil_iff.1 hnil))

/-- A word in upper case without a period, as keywords are. -/
structure IsPlain (w : Text) : Prop where
  ne_nil : w ≠ []
  upper_eq : upper w = w
  not_blank : ∀ c ∈ w, isBlank c = false
  not_dot : ∀ c ∈ w, c ≠ '.'

/-- Keywords are plain. -/
theorem isPlain_keyword (v : Verb) : IsPlain v.keyword := by
  cases v <;> exact ⟨by decide, by decide, by decide, by decide⟩

/-- The words of a statement that starts with a plain word. -/
theorem wordsOf_plain_append {w : Text} (hw : IsPlain w) {c : Char} (hc : isBlank c = true)
    (t : Text) : wordsOf (w ++ c :: t) = w :: wordsOf t := by
  have hdots : (w.map fun a ↦ if a == '.' then ' ' else a) = w := by
    conv_rhs => rw [← List.map_id w]
    exact List.map_congr_left fun a ha ↦ by simp [hw.not_dot a ha]
  have hupper : upper (c :: t) = c :: upper t := by
    rw [show c :: t = [c] ++ t from rfl, upper_append,
      upper_of_allBlank (allBlank_cons.2 ⟨hc, AllBlank.nil⟩)]
    rfl
  have hne : c ≠ '.' := ne_of_isBlank hc (by decide)
  rw [wordsOf, upper_append, hw.upper_eq, hupper, List.map_append, List.map_cons, hdots,
    if_neg (by simpa using hne), words_word_append hw.ne_nil hw.not_blank hc]
  rfl

end Verb

/-! ### Actions -/

/-- An operation has no result only for a division by zero. -/
theorem Operation.apply_eq_none_iff {operation : Operation} {current amount : Int} :
    operation.apply current amount = none ↔ operation = .divide ∧ amount = 0 := by
  cases operation <;> simp [Operation.apply, Numeral.divide?]

namespace Action

/-- Statements of the same verb that agree without their final periods ask for the same. -/
theorem ofText_congr {s t : Text} (hempty : s = [] ↔ t = [])
    (hperiod : dropPeriod s = dropPeriod t) (hverb : Verb.ofStatement s = Verb.ofStatement t) :
    ofText s = ofText t := by
  have harguments : arguments s = arguments t := by rw [arguments, hperiod]; rfl
  have hisEmpty : s.isEmpty = t.isEmpty := by
    rw [Bool.eq_iff_iff, List.isEmpty_iff, List.isEmpty_iff]
    exact hempty
  simp only [ofText, hisEmpty, hperiod, hverb, harguments]

/-- `IF` asks for a branch on its arguments. -/
theorem ofText_of_ifThen {t : Text} (h : Verb.ofStatement t = .ifThen) :
    ofText (trim t) = .branch (arguments t) := by
  have hne : trim t ≠ [] := Verb.trim_ne_nil (by rw [h]; decide)
  simp [ofText, hne, h, arguments_trim]

/-- `EVALUATE` asks for a choice on its arguments. -/
theorem ofText_of_evaluate {t : Text} (h : Verb.ofStatement t = .evaluate) :
    ofText (trim t) = .choose (arguments t) := by
  have hne : trim t ≠ [] := Verb.trim_ne_nil (by rw [h]; decide)
  simp [ofText, hne, h, arguments_trim]

/-- `PERFORM` is read by its words, without the final period. -/
theorem ofText_of_perform {t : Text} (h : Verb.ofStatement t = .perform) :
    ofText (trim t) = ofPerform (words (dropPeriod t)) := by
  have hne : trim t ≠ [] := Verb.trim_ne_nil (by rw [h]; decide)
  simp [ofText, hne, h, words_dropPeriod_trim]

/-- `DISPLAY` asks for its operands to be shown, or for nothing if it has none. -/
theorem ofText_of_display {t : Text} (h : Verb.ofStatement t = .display) :
    ofText (trim t) =
      if (arguments t).isEmpty then .nothing else .display (operands (arguments t)) := by
  have hne : trim t ≠ [] := Verb.trim_ne_nil (by rw [h]; decide)
  simp [ofText, hne, h, arguments_trim]

/-- An arithmetic statement is read by its words, without the final period. -/
theorem ofText_of_operation (operation : Operation) {t : Text}
    (h : Verb.ofStatement t = operation.verb) :
    ofText (trim t) = ofArithmetic operation (words (dropPeriod t)) := by
  have hne : trim t ≠ [] := Verb.trim_ne_nil (by rw [h]; cases operation <;> decide)
  cases operation <;> simp [ofText, hne, h, Operation.verb, words_dropPeriod_trim]

/-- The verbs of the statements that ask for an action. -/
def verbs : Action → List Verb
  | .move _ _ => [.move]
  | .compute _ _ => [.compute]
  | .arithmetic operation _ _ => [operation.verb]
  | .display _ => [.display]
  | .accept _ => [.accept]
  | .branch _ => [.ifThen]
  | .choose _ => [.evaluate]
  | .perform _ _ => [.perform, .goTo]
  | .stop => [.stopRun, .goBack]
  | .nothing => []
  | .unrecognized => [.unknown]

/-- A statement with the verb may ask for the action. -/
def IsAskedBy (action : Action) (v : Verb) : Prop :=
  action = .nothing ∨ v ∈ action.verbs

theorem IsAskedBy.nothing (v : Verb) : IsAskedBy .nothing v :=
  Or.inl rfl

/-- What the operands of a `MOVE` ask for fits the verb. -/
theorem isAskedBy_ofMove (t : Text) : (ofMove t).IsAskedBy .move := by
  rw [ofMove]
  split
  · exact .nothing _
  · dsimp only
    split
    · exact .nothing _
    · exact Or.inr (List.mem_singleton_self _)

/-- What the assignment of a `COMPUTE` asks for fits the verb. -/
theorem isAskedBy_ofCompute (t : Text) : (ofCompute t).IsAskedBy .compute := by
  rw [ofCompute]
  split
  · exact .nothing _
  · split
    · exact .nothing _
    · exact Or.inr (List.mem_singleton_self _)

/-- What the words of an arithmetic statement ask for fits its verb. -/
theorem isAskedBy_ofArithmetic (operation : Operation) (parts : List Text) :
    (ofArithmetic operation parts).IsAskedBy operation.verb := by
  unfold ofArithmetic
  split
  · exact Or.inr (List.mem_singleton_self _)
  · exact .nothing _

/-- What the words of a `PERFORM` ask for fits the verb. -/
theorem isAskedBy_ofPerform (parts : List Text) : (ofPerform parts).IsAskedBy .perform := by
  unfold ofPerform
  split
  · exact Or.inr List.mem_cons_self
  · exact .nothing _

/-- What the words of a `GO TO` ask for fits the verb. -/
theorem isAskedBy_ofGoTo (parts : List Text) : (ofGoTo parts).IsAskedBy .goTo := by
  unfold ofGoTo
  split
  · split
    · exact Or.inr (List.mem_cons_of_mem _ List.mem_cons_self)
    · exact .nothing _
  · exact .nothing _

/-- **What a statement asks for fits its verb.** -/
theorem isAskedBy_ofText (t : Text) : (ofText t).IsAskedBy (Verb.ofStatement t) := by
  unfold ofText
  split
  · exact .nothing _
  · cases Verb.ofStatement t with
    | move => exact isAskedBy_ofMove _
    | compute => exact isAskedBy_ofCompute _
    | add => exact isAskedBy_ofArithmetic .add _
    | subtract => exact isAskedBy_ofArithmetic .subtract _
    | multiply => exact isAskedBy_ofArithmetic .multiply _
    | divide => exact isAskedBy_ofArithmetic .divide _
    | display =>
      dsimp only
      split
      · exact .nothing _
      · exact Or.inr (List.mem_singleton_self _)
    | accept =>
      dsimp only
      split
      · exact Or.inr (List.mem_singleton_self _)
      · exact .nothing _
    | perform => exact isAskedBy_ofPerform _
    | goTo => exact isAskedBy_ofGoTo _
    | otherwise | endIf | when | endEvaluate | noop | exit => exact .nothing _
    | ifThen | evaluate | stopRun | unknown => exact Or.inr List.mem_cons_self
    | goBack => exact Or.inr (List.mem_cons_of_mem _ List.mem_cons_self)

/-- A statement that asks for something has a verb that does. -/
theorem ofStatement_mem_verbs {t : Text} {action : Action} (h : ofText (trim t) = action)
    (hne : action ≠ .nothing) : Verb.ofStatement t ∈ action.verbs := by
  rw [← Verb.ofStatement_trim, ← h]
  exact (isAskedBy_ofText (trim t)).resolve_left (by rwa [h])

/-- A statement asks for a line of input if it is an `ACCEPT` with an operand. -/
theorem ofText_eq_accept_iff {t target : Text} :
    ofText (trim t) = .accept target ↔ Verb.ofStatement t = .accept ∧
      ∃ verb rest, words (dropPeriod t) = verb :: target :: rest := by
  constructor
  · intro h
    have hverb : Verb.ofStatement t = .accept :=
      List.mem_singleton.1 (ofStatement_mem_verbs h nofun)
    have hne : trim t ≠ [] := Verb.trim_ne_nil (by rw [hverb]; decide)
    rw [ofText, if_neg (by simpa using hne), Verb.ofStatement_trim, hverb,
      words_dropPeriod_trim] at h
    dsimp only at h
    split at h
    · rename_i verb found rest hwords
      cases h
      exact ⟨hverb, verb, rest, hwords⟩
    · cases h
  · rintro ⟨hverb, verb, rest, hwords⟩
    have hne : trim t ≠ [] := Verb.trim_ne_nil (by rw [hverb]; decide)
    simp [ofText, hne, hverb, words_dropPeriod_trim, hwords]

/-- An action runs parts of the lines that follow its statement. -/
def takesLines : Action → Bool
  | .branch _ | .choose _ => true
  | _ => false

/-- Only `IF` and `EVALUATE` take the lines that follow them. -/
theorem takesLines_ofText {t : Text} (hif : Verb.ofStatement t ≠ .ifThen)
    (hevaluate : Verb.ofStatement t ≠ .evaluate) : (ofText t).takesLines = false := by
  rcases isAskedBy_ofText t with h | h
  · rw [h]
    rfl
  · generalize ofText t = action at h ⊢
    cases action with
    | branch condition => exact absurd (List.mem_singleton.1 h) hif
    | choose subject => exact absurd (List.mem_singleton.1 h) hevaluate
    | _ => rfl

end Action

/-! ### Operands -/

/-- A text is cut at the first place of a mark. -/
theorem Text.cutAt?_eq_some_iff {mark : Char} {t before after : Text} :
    cutAt? mark t = some (before, after) ↔ t = before ++ mark :: after ∧ mark ∉ before := by
  constructor
  · intro h
    unfold cutAt? at h
    split at h
    · cases h
    · rename_i c rest hdrop
      obtain ⟨rfl, rfl⟩ := Prod.mk.inj (Option.some.inj h)
      have hc : c = mark := by
        have hne : t.dropWhile (· != mark) ≠ [] := by rw [hdrop]; simp
        simpa [hdrop] using List.head_dropWhile_not (· != mark) hne
      refine ⟨?_, fun hmem ↦ by simpa using List.mem_takeWhile_imp hmem⟩
      rw [hc] at hdrop
      rw [← hdrop, List.takeWhile_append_dropWhile]
  · rintro ⟨rfl, hmem⟩
    have hall : ∀ a ∈ before, (a != mark) = true := fun a ha ↦ by
      simpa using fun he : a = mark ↦ hmem (he ▸ ha)
    rw [cutAt?, List.dropWhile_append_of_pos hall, List.takeWhile_append_of_pos hall]
    simp

/-- A text without the mark is not cut. -/
theorem Text.cutAt?_eq_none_iff {mark : Char} {t : Text} : cutAt? mark t = none ↔ mark ∉ t := by
  unfold cutAt?
  split
  · rename_i hdrop
    refine ⟨fun _ hmem ↦ ?_, fun _ ↦ rfl⟩
    simpa using List.dropWhile_eq_nil_iff.1 hdrop mark hmem
  · rename_i c rest hdrop
    refine ⟨nofun, fun hmem ↦ absurd ?_ hmem⟩
    have hne : t.dropWhile (· != mark) ≠ [] := by rw [hdrop]; simp
    have hc : c = mark := by
      simpa [hdrop] using List.head_dropWhile_not (· != mark) hne
    rw [← hc]
    exact (List.dropWhile_suffix _).subset (by rw [hdrop]; exact List.mem_cons_self ..)

/-- The operand and the rest make up the text. -/
theorem firstOperand_append (t : Text) : (firstOperand t).1 ++ (firstOperand t).2 = t := by
  unfold firstOperand
  cases t with
  | nil => rfl
  | cons q rest =>
    dsimp only
    split
    · split
      · rename_i body after hcut
        rw [(cutAt?_eq_some_iff.1 hcut).1]
        simp
      · exact List.takeWhile_append_dropWhile
    · exact List.takeWhile_append_dropWhile

/-- There are no operands in blanks. -/
theorem operands_of_allBlank {t : Text} (h : AllBlank t) : operands t = [] := by
  rw [operands]
  split
  · rfl
  · rename_i hcons
    rw [trimLeft_eq_nil_iff.2 h] at hcons
    cases hcons

/-- The first operand of a text, and those of what stands behind it. -/
theorem operands_of_trimLeft {t s : Text} (h : trimLeft t = s) (hne : s ≠ []) :
    operands t = (firstOperand s).1 :: operands (firstOperand s).2 := by
  rw [operands]
  split
  · rename_i hnil
    exact absurd (h.symm.trans hnil) hne
  · rename_i hcons
    obtain rfl := h.symm.trans hcons
    rfl

/-- A literal stays open up to its quote. -/
theorem Sentence.foldl_literalAfter_some {q : Char} {t : Text} (h : q ∉ t) :
    t.foldl literalAfter (some q) = some q := by
  induction t with
  | nil => rfl
  | cons c t ih =>
    have hc : c ≠ q := fun he ↦ h (he ▸ List.mem_cons_self ..)
    rw [List.foldl_cons, literalAfter, if_neg (by simpa using hc)]
    exact ih fun hmem ↦ h (List.mem_cons_of_mem _ hmem)

/-- Only a quote opens a literal. -/
theorem Sentence.isQuote_of_mem_foldl {open? : Option Char} (hopen : ∀ q ∈ open?, isQuote q = true)
    (t : Text) : ∀ q ∈ t.foldl literalAfter open?, isQuote q = true := by
  induction t generalizing open? with
  | nil => exact hopen
  | cons c t ih =>
    refine ih fun q hq ↦ ?_
    cases open? with
    | none =>
      by_cases hc : isQuote c = true
      · rw [literalAfter, if_pos hc] at hq
        cases hq
        exact hc
      · rw [literalAfter, if_neg hc] at hq
        cases hq
    | some p =>
      rw [literalAfter] at hq
      split at hq
      · cases hq
      · exact hopen q hq

/-- Characters that are no quotes neither open nor close a literal. -/
theorem Sentence.openLiteral_append_of_not_quote (s : Text) {t : Text}
    (ht : ∀ c ∈ t, isQuote c = false) :
    openLiteral (s ++ t) = openLiteral s := by
  rw [openLiteral_append]
  cases hs : openLiteral s with
  | none => exact openLiteral_of_forall_not_isQuote ht
  | some q =>
    refine foldl_literalAfter_some fun hq ↦ ?_
    have hquote : isQuote q = true := isQuote_of_mem_foldl (fun _ h ↦ by cases h) s q hs
    rw [ht q hq] at hquote
    cases hquote

/-- An operand whose literals are closed ends where it ends, whatever stands behind it. -/
theorem firstOperand_of_closed {v : Text} (hne : v ≠ []) (hrest : (firstOperand v).2 = [])
    (hclosed : openLiteral v = none) (t : Text) :
    firstOperand (v ++ ' ' :: t) = (v, ' ' :: t) := by
  obtain ⟨q, rest, rfl⟩ := List.exists_cons_of_ne_nil hne
  have hplain : ((q :: rest).dropWhile fun c ↦ !isBlank c) = [] →
      (((q :: rest) ++ ' ' :: t).takeWhile fun c ↦ !isBlank c,
        ((q :: rest) ++ ' ' :: t).dropWhile fun c ↦ !isBlank c) = (q :: rest, ' ' :: t) := by
    intro hdrop
    have hall := List.dropWhile_eq_nil_iff.1 hdrop
    rw [List.takeWhile_append_of_pos hall, List.dropWhile_append_of_pos hall]
    simp [isBlank]
  unfold firstOperand at hrest ⊢
  dsimp only [List.cons_append] at hrest ⊢
  by_cases hq : isQuote q = true
  · rw [if_pos hq] at hrest ⊢
    cases hcut : cutAt? q rest with
    | none =>
      -- a quote that is not closed would leave a literal open
      have hmem : q ∉ rest := cutAt?_eq_none_iff.1 hcut
      have hopen : openLiteral (q :: rest) = some q := by
        rw [openLiteral, List.foldl_cons, literalAfter, if_pos hq]
        exact foldl_literalAfter_some hmem
      rw [hopen] at hclosed
      cases hclosed
    | some cut =>
      obtain ⟨body, after⟩ := cut
      obtain ⟨rfl, hmem⟩ := cutAt?_eq_some_iff.1 hcut
      rw [hcut] at hrest
      obtain rfl : after = [] := hrest
      have hcut' : cutAt? q (body ++ [q] ++ ' ' :: t) = some (body, ' ' :: t) :=
        cutAt?_eq_some_iff.2 ⟨by simp, hmem⟩
      rw [hcut']
  · rw [if_neg hq] at hrest ⊢
    exact hplain hrest

/-! ### A statement behind a keyword -/

/-- A statement that ends in one period at most. -/
def IsSingle (s : Text) : Prop :=
  dropPeriod (dropPeriod s) = dropPeriod s

instance : DecidablePred IsSingle := fun s ↦
  inferInstanceAs (Decidable (dropPeriod (dropPeriod s) = dropPeriod s))

/-- What is left of a statement on the line of a keyword: its text without its period. -/
def remainder (s : Text) : Text :=
  trim (dropPeriod s)

/-- **Behind a keyword stands the statement that was written there**, without its period. -/
theorem arguments_joined {w : Text} (hw : w ≠ []) (hblank : ∀ c ∈ w, isBlank c = false)
    (hquote : ∀ c ∈ w, isQuote c = false) {s : Text} (hs : ¬AllBlank s) :
    arguments (w ++ ' ' :: s) = remainder s := by
  have hopen : openLiteral (w ++ [' ']) = none := by
    refine openLiteral_of_forall_not_isQuote fun c hc ↦ ?_
    rcases List.mem_append.1 hc with hc | hc
    · exact hquote c hc
    · rw [List.mem_singleton.1 hc]; rfl
  have hsp : isBlank ' ' = true := rfl
  rw [arguments, show w ++ ' ' :: s = (w ++ [' ']) ++ s by simp, dropPeriod_append hopen hs]
  by_cases hd : AllBlank (dropPeriod s)
  · have hall : AllBlank (' ' :: dropPeriod s) := allBlank_cons.2 ⟨hsp, hd⟩
    have hword : trimRight w = w := by
      obtain ⟨c, hc⟩ := List.getLast?_isSome.2 hw |> Option.isSome_iff_exists.1
      exact trimRight_of_getLast? hc (hblank c (List.mem_of_getLast? hc))
    rw [List.append_assoc, List.singleton_append, trimRight_append_of_allBlank _ hall, hword,
      afterWord_word hblank, remainder, trim_eq_nil_iff.2 hd]
  · rw [trimRight_append_of_not_allBlank _ hd, List.append_assoc, List.singleton_append,
      afterWord_word_append hw hblank hsp, trimRight_dropPeriod]
    rfl

/-- A statement that shares a line with a keyword keeps its verb. -/
@[simp] theorem ofStatement_remainder (s : Text) :
    Verb.ofStatement (remainder s) = Verb.ofStatement s := by
  rw [remainder, Verb.ofStatement_trim, Verb.ofStatement_dropPeriod]

/-- Without a doubled period, what is left of a statement asks for what the statement asked for. -/
theorem ofText_remainder {s : Text} (hs : IsSingle s) (hne : remainder s ≠ []) :
    Action.ofText (trim (remainder s)) = Action.ofText (trim s) := by
  have htrim : trim s ≠ [] := fun he ↦ hne <| by
    rw [remainder, dropPeriod_of_allBlank (trim_eq_nil_iff.1 he)]
    rfl
  have hperiod : dropPeriod (trim (remainder s)) = dropPeriod (trim s) := by
    rw [remainder, trim_trim, dropPeriod_trim, hs, dropPeriod_trim]
  refine Action.ofText_congr ?_ hperiod (by simp)
  rw [remainder, trim_trim]
  exact ⟨fun h ↦ absurd h hne, fun h ↦ absurd h htrim⟩

end Cobol
