import Mathlib.Data.List.Flatten
import Mathlib.Logic.Relation
import Cobol.Proofs.Allowance
import Cobol.Proofs.Escape
import Cobol.Proofs.Origin
import Cobol.Proofs.Stop

/-!
# Programs that end by themselves

Nothing but `UNTIL` and paragraphs that run each other can keep a program from ending. Without
either, an execution needs no more than an allowance that can be read off the texts alone: it ends
by itself, with a result or a failure of its own, and meets neither of the two limits.

The allowance that is needed is the size of the lines to be executed and of the bodies that can
still be called (`Bounded`). It goes down on every way into a nested block:

* A part of a block is cut from the lines behind a header (`Bounded.cut`). It is no larger than they
  are, also where the statement behind an `ELSE` or `WHEN` becomes a line of its own.
* The body of a paragraph was counted among those that can be called, and is not counted again: a
  paragraph that can be reached from its own body would mention itself around a cycle
  (`Bounded.call`).

How often a loop with a count is passed does not matter: it ends because the count is a number, and
every pass starts with the same allowance.

## Shape decisions

* What a statement may call is read off its words: any word that has the form of a label counts.
  This is more than what it does call, and it does not depend on the state.
* A cycle is a chain of mentions from a label back to itself. So being free of cycles is a property
  of the paragraphs and not of a run.
* Ending by itself is said with the limits as parameters: the outcome has a fault that is neither of
  them, or none. The allowance that is enough is a number computed from the program.
-/

namespace Cobol

open Text Sentence

/-! ### Labels in a text -/

/-- The form in which labels are compared: without regard to case and to trailing periods. -/
def labelForm (w : Text) : Text :=
  (upper w).rdropWhile (· == '.')

/-- A word of a line of the body of the paragraph is the label, up to case and trailing periods. -/
def Mentions (paragraphs : Table (List Text)) (paragraph label : Text) : Prop :=
  ∃ body, paragraphs.get? paragraph = some body ∧
    ∃ line ∈ body, ∃ w ∈ words line, labelForm w = labelForm label

/-- A word behind the first one is the label, up to case and trailing periods: the line may call the
paragraph, or a statement that is cut from it may. -/
def MayCall (line label : Text) : Prop :=
  ∃ w ∈ (words line).tail, labelForm w = labelForm label

/-- Upper case does not change the form of a label. -/
@[simp] theorem labelForm_upper (w : Text) : labelForm (upper w) = labelForm w := by
  rw [labelForm, upper_upper]
  rfl

/-- A period at the end does not change the form of a label. -/
@[simp] theorem labelForm_period (w : Text) : labelForm (w ++ ['.']) = labelForm w := by
  have hperiod : upper ['.'] = ['.'] := by decide
  rw [labelForm, upper_append, hperiod, List.rdropWhile_concat_pos _ _ _ rfl]
  rfl

/-- The final period is the end of the last word, or a word of its own. -/
theorem words_dropPeriod_cases (t : Text) :
    words t = words (dropPeriod t) ∨ words t = words (dropPeriod t) ++ [['.']] ∨
      ∃ before w, words (dropPeriod t) = before ++ [w] ∧ words t = before ++ [w ++ ['.']] := by
  have htrim (u : Text) : words (trimRight u) = words u := by
    rw [← words_trim, trim_trimRight, words_trim]
  by_cases h : ∃ body, EndsIn t body
  · obtain ⟨body, hbody⟩ := h
    rw [dropPeriod_of_endsIn hbody, htrim, ← htrim t, hbody.1]
    exact Or.inr (words_concat (by decide) body)
  · rw [dropPeriod_of_not_endsIn (not_exists.1 h), htrim]
    exact Or.inl rfl

/-- A statement with a label among the words behind its first may call it. -/
theorem mayCall_of_mem_tail {t w label : Text} (hw : w ∈ (words (dropPeriod t)).tail)
    (hform : labelForm w = labelForm label) : MayCall t label := by
  rcases words_dropPeriod_cases t with hwords | hwords | ⟨before, last, hshort, hlong⟩
  · exact ⟨w, by rwa [hwords], hform⟩
  · have hne : words (dropPeriod t) ≠ [] := fun hnil ↦ by
      rw [hnil] at hw
      exact absurd hw List.not_mem_nil
    refine ⟨w, ?_, hform⟩
    rw [hwords, List.tail_append_of_ne_nil hne]
    exact List.mem_append_left _ hw
  · rw [hshort] at hw
    rcases before with _ | ⟨first, before⟩
    · exact absurd hw List.not_mem_nil
    · rw [MayCall, hlong]
      rcases List.mem_append.1 hw with hw | hw
      · exact ⟨w, List.mem_append_left _ hw, hform⟩
      · refine ⟨last ++ ['.'], List.mem_append_right before (List.mem_singleton_self _), ?_⟩
        rw [labelForm_period, ← List.mem_singleton.1 hw, hform]

/-- What a part of a line may call, the line may call. -/
theorem PartOf.mayCall {line t label : Text} (h : PartOf line t) (ht : MayCall t label) :
    MayCall line label := by
  have harguments (u : Text) : words (arguments u) = (words (dropPeriod u)).tail :=
    words_afterWord (dropPeriod u)
  induction h with
  | whole => exact ht
  | @otherwise t _ ih =>
    obtain ⟨w, hw, hform⟩ := ht
    rw [harguments] at hw
    exact ih (mayCall_of_mem_tail (List.mem_of_mem_tail hw) hform)
  | @when t _ ih =>
    obtain ⟨w, hw, hform⟩ := ht
    -- the first word may have been joined to the value, and is not looked at
    rw [words_trim] at hw
    have hmem := mem_words_append_of_mem_tail hw (firstOperand (arguments t)).1
    rw [firstOperand_append, harguments] at hmem
    exact ih (mayCall_of_mem_tail hmem hform)

namespace Action

/-- The label of a `PERFORM` stands behind the verb, and a condition only with the word `UNTIL`. -/
theorem mem_of_ofPerform {parts : List Text} {label : Text} {repetition : Repetition}
    (h : ofPerform parts = .perform label repetition) :
    label ∈ parts.tail ∧
      ∀ condition, repetition = .untilTrue condition → ∃ w ∈ parts, upper w = "UNTIL".toList := by
  unfold ofPerform at h
  split at h
  · rename_i verb found rest
    cases h
    refine ⟨List.mem_cons_self, fun condition hcondition ↦ ?_⟩
    unfold repetitionOf at hcondition
    split at hcondition
    · rename_i w condition' hdrop
      have hmem : w ∈ rest := (List.dropWhile_suffix _).subset (by
        rw [hdrop]
        exact List.mem_cons_self)
      have hne : (rest.dropWhile fun w ↦ upper w != "UNTIL".toList) ≠ [] := by
        rw [hdrop]
        exact List.cons_ne_nil w condition'
      refine ⟨w, List.mem_cons_of_mem _ (List.mem_cons_of_mem _ hmem), ?_⟩
      have hhead := List.head_dropWhile_not (fun w ↦ upper w != "UNTIL".toList) hne
      simp only [hdrop, List.head_cons] at hhead
      simpa using hhead
    · split at hcondition
      · split at hcondition <;> cases hcondition
      · cases hcondition
  · cases h

/-- The label of a `GO TO` stands behind the verb, and it is called once. -/
theorem mem_of_ofGoTo {parts : List Text} {label : Text} {repetition : Repetition}
    (h : ofGoTo parts = .perform label repetition) :
    label ∈ parts.tail ∧ repetition = .once := by
  unfold ofGoTo at h
  split at h
  · rename_i first rest
    split at h
    · rename_i found more hmore
      cases h
      refine ⟨?_, rfl⟩
      have hmem : label ∈ if upper first = "GO".toList then rest.tail else rest := by
        rw [hmore]
        exact List.mem_cons_self
      split at hmem
      · exact List.mem_of_mem_tail hmem
      · exact hmem
    · cases h
  · cases h

/-- The label that a statement calls is one of its words, and so is the `UNTIL` of a loop. -/
theorem mem_of_ofText_eq_perform {t label : Text} {repetition : Repetition}
    (h : ofText (trim t) = .perform label repetition) :
    label ∈ (words (dropPeriod t)).tail ∧ ∀ condition, repetition = .untilTrue condition →
      ∃ w ∈ words (dropPeriod t), upper w = "UNTIL".toList := by
  have hverb := ofStatement_mem_verbs h nofun
  have hne : trim t ≠ [] := Verb.trim_ne_nil fun hunknown ↦ by
    rw [hunknown] at hverb
    exact absurd hverb (by simp [verbs])
  rw [ofText, if_neg (by simpa using hne), Verb.ofStatement_trim, words_dropPeriod_trim] at h
  rcases List.mem_cons.1 hverb with hverb | hverb
  · rw [hverb] at h
    exact mem_of_ofPerform h
  · rw [List.mem_singleton.1 hverb] at h
    obtain ⟨hmem, rfl⟩ := mem_of_ofGoTo h
    exact ⟨hmem, fun _ hcondition ↦ by cases hcondition⟩

end Action

/-! ### Sizes -/

/-- The size of lines: their characters, and one for each line. -/
def textSize (lines : List Text) : Nat :=
  lines.flatten.length + lines.length

/-- The size of the bodies of paragraphs. -/
def bodySize (bodies : List (Text × List Text)) : Nat :=
  textSize (bodies.flatMap (·.2))

/-- The sizes of lines behind each other are added up. -/
theorem textSize_append (lines more : List Text) :
    textSize (lines ++ more) = textSize lines + textSize more := by
  rw [textSize, textSize, textSize, List.flatten_append, List.length_append, List.length_append]
  omega

/-- A line counts with its characters, and one more. -/
@[simp] theorem textSize_cons (line : Text) (lines : List Text) :
    textSize (line :: lines) = line.length + 1 + textSize lines := by
  rw [textSize, textSize, List.flatten_cons, List.length_append, List.length_cons]
  omega

@[simp] theorem bodySize_cons (e : Text × List Text) (bodies : List (Text × List Text)) :
    bodySize (e :: bodies) = textSize e.2 + bodySize bodies :=
  textSize_append e.2 _

/-- Lines without some of them are no larger. -/
theorem textSize_le_of_sublist {xs lines : List Text} (h : xs.Sublist lines) :
    textSize xs ≤ textSize lines :=
  Nat.add_le_add h.flatten.length_le h.length_le

/-- What is cut from lines is no larger than they are. -/
theorem CutFrom.textSize_le {xs lines : List Text} (h : CutFrom xs lines) :
    textSize xs ≤ textSize lines := by
  induction h with
  | nil => exact Nat.zero_le _
  | cons ht _ ih =>
    have hlength := ht.isInfix.length_le
    rw [textSize_cons, textSize_cons]
    omega
  | cons_right _ ih =>
    rw [textSize_cons]
    omega

/-- Bodies without some of them are no larger. -/
theorem bodySize_filter_le (p : Text × List Text → Bool) (bodies : List (Text × List Text)) :
    bodySize (bodies.filter p) ≤ bodySize bodies :=
  textSize_le_of_sublist (List.filter_sublist.flatMap _)

/-- A body that is taken out makes room for itself. -/
theorem textSize_add_bodySize_le {label : Text} {body : List Text}
    {bodies : List (Text × List Text)} (h : (label, body) ∈ bodies) :
    textSize body + bodySize (bodies.filter (·.1 != label)) ≤ bodySize bodies := by
  induction bodies with
  | nil => exact absurd h List.not_mem_nil
  | cons e rest ih =>
    rcases List.mem_cons.1 h with rfl | h
    · rw [List.filter_cons_of_neg (by simp), bodySize_cons]
      exact Nat.add_le_add_left (bodySize_filter_le _ rest) _
    · have hrest := ih h
      rw [List.filter_cons]
      split
      · rw [bodySize_cons, bodySize_cons]
        omega
      · rw [bodySize_cons]
        omega

/-! ### Executions that end by themselves -/

/-- The fault says that a limit was met. -/
def Fault.IsLimit (f : Fault) : Prop :=
  f = .nesting ∨ f = .endless

/-- The execution was finished, or failed by itself; no limit cut it off. -/
abbrev Outcome.EndsByItself (o : Outcome) : Prop :=
  o.FailsOnly fun f ↦ ¬f.IsLimit

/-- A number that is too long meets no limit. -/
theorem Fault.IsLong.not_isLimit {f : Fault} (h : f.IsLong) : ¬f.IsLimit := by
  rintro (rfl | rfl) <;> cases h

/-- What can end a write is neither of the two limits. -/
theorem Fault.IsWriting.not_isLimit {wide : Prop} {f : Fault} (h : f.IsWriting wide) :
    ¬f.IsLimit := by
  rcases h with h | ⟨h⟩
  · exact h.not_isLimit
  · rintro (rfl | rfl) <;> cases h

/-- An expression is evaluated within an allowance that is longer than it. -/
theorem Expression.failsOnly_evaluate_of_length_lt (store : Store) {allowance : Nat} {e : Text}
    (h : e.length < allowance) : FailsOnly (¬·.IsLimit) (evaluate store allowance e) := by
  have hcount : e.count '(' < allowance := Nat.lt_of_le_of_lt List.count_le_length h
  intro f hf
  rcases failsOnly_evaluate store allowance e f hf with hlong | ⟨hloose, hwithin⟩ | _
  · exact hlong.not_isLimit
  · rintro (h | h) <;> cases h
  · exact absurd hf (evaluate_ne_nesting store hcount)

/-- A read meets no limit. -/
theorem Input.failsOnly_read (i : Input) : FailsOnly (¬·.IsLimit) i.read := by
  unfold read
  split
  · exact .ok _
  · exact .ok _
  · split
    · exact .ok _
    · exact .error (by rintro (h | h) <;> cases h)
    · split <;> exact .ok _
  · exact .error (by rintro (h | h) <;> cases h)

namespace Outcome.FailsOnly

variable {P : Fault → Prop}

/-- Two executions behind each other fail with what the two fail with. -/
theorem andThen {o : Outcome} {next : State → Outcome} (ho : o.FailsOnly P)
    (hnext : ∀ s, (next s).FailsOnly P) : (o.andThen next).FailsOnly P := by
  unfold Outcome.andThen
  split
  · exact hnext _
  · exact ho

/-- A counted loop fails with what its body fails with. -/
theorem repeatTimes {body : State → Outcome} (hbody : ∀ s, (body s).FailsOnly P) (n : Nat)
    (s : State) : (repeatTimes body n s).FailsOnly P := by
  induction n generalizing s with
  | zero => exact .done
  | succ n ih =>
    rw [Cobol.repeatTimes]
    split
    · exact (hbody s).andThen ih
    · exact .done

/-- The lines of a block are executed one after the other, each with lines behind it that are the
end of the block. -/
theorem executeLines {m : Machine} {allowance : Nat} {nested : List Text → State → Outcome} :
    ∀ {lines : List Text}, (∀ line following, line :: following <:+ lines → ∀ s,
        (execute m allowance nested line following s).FailsOnly P) →
      ∀ s, (executeLines m allowance nested lines s).FailsOnly P
  | [], _, s => by
    rw [Cobol.executeLines]
    exact .done
  | line :: following, h, s => by
    have hrest : unread line following <:+ line :: following :=
      (unread_suffix line following).trans (List.suffix_cons line following)
    rw [Cobol.executeLines]
    split
    · refine (h line following (List.suffix_refl _) s).andThen fun t ↦ ?_
      exact executeLines (fun l ls hsuffix ↦ h l ls (hsuffix.trans hrest)) t
    · exact .done
termination_by lines => lines.length
decreasing_by exact Nat.lt_succ_of_le (length_unread_le line following)

end Outcome.FailsOnly

/-- `ACCEPT` ends by itself. -/
theorem State.endsByItself_acceptLine (s : State) (target : Text) :
    (s.acceptLine target).EndsByItself := by
  have hwrite (t : State) (v : Value) : (t.write target v).EndsByItself :=
    (t.failsOnly_write target v).mono fun _ ↦ Fault.IsWriting.not_isLimit
  unfold acceptLine
  split
  · exact .done
  · rename_i input _
    split
    · exact .fail (input.failsOnly_read _ ‹_›)
    · exact .done
    · dsimp only
      split
      · split
        · exact .fail (Numeral.failsOnly_read_of_isLiteral ‹_› _ ‹_›).not_isLimit
        · exact hwrite _ _
      · exact hwrite _ _

/-- The expression of a `COMPUTE` is a part of its statement. -/
theorem Action.isInfix_of_compute {t target e : Text} (h : ofText (trim t) = .compute target e) :
    e <:+: t := by
  have hverb : Verb.ofStatement t = .compute :=
    List.mem_singleton.1 (ofStatement_mem_verbs h nofun)
  have hne : trim t ≠ [] := Verb.trim_ne_nil (by rw [hverb]; decide)
  rw [ofText, if_neg (by simpa using hne), Verb.ofStatement_trim, hverb, arguments_trim] at h
  dsimp only at h
  rw [ofCompute] at h
  split at h
  · cases h
  · rename_i before after hcut
    split at h
    · cases h
    · cases h
      obtain ⟨harguments, -⟩ := cutAt?_eq_some_iff.1 hcut
      have hafter : after <:+ arguments t := by
        rw [harguments]
        exact (List.suffix_cons '=' after).trans (List.suffix_append before _)
      exact ((trim_isInfix after).trans hafter.isInfix).trans (arguments_isInfix t)

/-- A statement that runs no lines ends by itself, if its text is shorter than the allowance: it has
fewer parentheses than characters. -/
theorem endsByItself_act {t : Text} {allowance : Nat} (ht : t.length < allowance)
    {action : Action} (haction : Action.ofText (trim t) = action) (statement : Text) (s : State) :
    (act allowance statement s action).EndsByItself := by
  by_cases haccept : ∃ target, action = .accept target
  · obtain ⟨target, rfl⟩ := haccept
    exact s.endsByItself_acceptLine target
  · refine (failsOnly_act_of_ne_accept (not_exists.1 haccept) allowance statement s).mono
      fun f hf ↦ ?_
    rcases hf with hf | ⟨target, e, rfl, he⟩
    · exact hf.not_isLimit
    · have hlength := (Action.isInfix_of_compute haction).length_le
      exact Expression.failsOnly_evaluate_of_length_lt s.store (by omega) f he

/-- A call ends by itself, if the body does and the call is no loop with a condition. -/
theorem endsByItself_runParagraph {m : Machine} {nested : List Text → State → Outcome}
    {label : Text} (hbody : ∀ body, m.paragraphs.get? (upper label) = some body →
      ∀ s, (nested body s).EndsByItself) {repetition : Repetition}
    (hrepetition : ∀ condition, repetition ≠ .untilTrue condition) (s : State) :
    (runParagraph m nested label repetition s).EndsByItself := by
  unfold runParagraph
  split
  · exact .done
  · rename_i body hget
    split
    · exact hbody body hget s
    · split
      · rename_i count _ _ hcount
        have hlong := FailsOnly.bind (failsOnly_operandValue s.store count) Value.failsOnly_integer
        exact .fail (hlong _ hcount).not_isLimit
      · exact .repeatTimes (hbody body hget) _ s
    · exact absurd rfl (hrepetition _)

/-- A statement that is shorter than the allowance ends by itself if the parts of its block and the
paragraphs that it may call do. -/
theorem endsByItself_execute {m : Machine} {allowance : Nat}
    {nested : List Text → State → Outcome} {line : Text} (hline : line.length < allowance)
    (huntil : ¬"UNTIL".toList <:+: upper line) {following : List Text}
    (hparts : ∀ xs, CutFrom xs following → ∀ s, (nested xs s).EndsByItself)
    (hbodies : ∀ label body, MayCall line label → m.paragraphs.get? label = some body →
      ∀ s, (nested body s).EndsByItself) (s : State) :
    (execute m allowance nested line following s).EndsByItself := by
  rw [execute]
  cases haction : Action.ofText (trim line) with
  | branch condition =>
    have hblock := IfBlock.cutFrom_splitFrom 0 false following
    rw [perform]
    split
    · exact .fail (Condition.failsOnly_holds s.store condition _ ‹_›).not_isLimit
    · exact hparts _ hblock.whenTrue s
    · exact hparts _ hblock.whenFalse s
  | choose subject =>
    have hblock := EvaluateBlock.cutFrom_splitFrom 0 following
    have hverb : Verb.ofStatement line = .evaluate :=
      List.mem_singleton.1 (Action.ofStatement_mem_verbs haction fun hnone ↦ by cases hnone)
    obtain rfl : arguments line = subject :=
      Action.choose.inj ((Action.ofText_of_evaluate hverb).symm.trans haction)
    -- the subject is an expression, and shorter than the line that fits the allowance
    have hlength := (arguments_isInfix line).length_le
    rw [perform]
    split
    · have hexpression : FailsOnly (¬·.IsLimit)
          (Expression.evaluate s.store allowance (arguments line)) :=
        Expression.failsOnly_evaluate_of_length_lt s.store (by omega)
      have hsubject := Subject.failsOnly_ofText_of hexpression fun _ ↦ Fault.IsLong.not_isLimit
      exact .fail (hsubject _ ‹_›)
    · dsimp only
      split
      · exact .fail (Subject.failsOnly_select _ _ _ ‹_›).not_isLimit
      · exact .done
      · rename_i lines hselect
        obtain ⟨b, hb, rfl⟩ := Subject.exists_branch_of_select hselect
        exact hparts _ (hblock.branches b hb) _
  | perform label repetition =>
    obtain ⟨hlabel, hloop⟩ := Action.mem_of_ofText_eq_perform haction
    refine endsByItself_runParagraph (fun body hbody ↦ ?_) (fun condition hcondition ↦ ?_) s
    · exact hbodies _ body (mayCall_of_mem_tail hlabel (labelForm_upper label).symm) hbody
    · obtain ⟨w, hw, hupper⟩ := hloop condition hcondition
      have hperiod : dropPeriod line <+: line := dropPeriod_prefix line
      refine huntil ?_
      rw [← hupper]
      exact upper_isInfix ((isInfix_of_mem_words hw).trans hperiod.isInfix)
  | _ => exact endsByItself_act hline haction (trim line) s

/-! ### Blocks -/

/-- The label is called, if it is called at all, by lines or by paragraphs that these lines call. -/
def Reaches (paragraphs : Table (List Text)) (lines : List Text) (label : Text) : Prop :=
  ∃ line ∈ lines, ∃ first, MayCall line first ∧
    Relation.ReflTransGen (Mentions paragraphs) first label

/-- Parts of lines reach no more paragraphs than the lines do. -/
theorem Reaches.mono {paragraphs : Table (List Text)} {xs lines : List Text}
    (h : ∀ t ∈ xs, ∃ line ∈ lines, PartOf line t) {label : Text}
    (hlabel : Reaches paragraphs xs label) : Reaches paragraphs lines label := by
  obtain ⟨t, ht, first, hfirst, hpath⟩ := hlabel
  obtain ⟨line, hline, hpart⟩ := h t ht
  exact ⟨line, hline, first, hpart.mayCall hfirst, hpath⟩

/-- What a body reaches, its paragraph mentions around some corners. -/
theorem Reaches.transGen {paragraphs : Table (List Text)} {paragraph : Text} {body : List Text}
    (hbody : paragraphs.get? paragraph = some body) {label : Text}
    (h : Reaches paragraphs body label) :
    Relation.TransGen (Mentions paragraphs) paragraph label := by
  obtain ⟨line, hline, first, ⟨w, hw, hform⟩, hpath⟩ := h
  have hmentions : Mentions paragraphs paragraph first :=
    ⟨body, hbody, line, hline, w, List.mem_of_mem_tail hw, hform⟩
  exact .head' hmentions hpath

/-- The lines hold no `UNTIL`, and their size and that of the bodies that they can still call is
less than the allowance. -/
structure Bounded (m : Machine) (lines : List Text) (bodies : List (Text × List Text))
    (allowance : Nat) : Prop where
  /-- No line holds the word. -/
  plain : ∀ line ∈ lines, ¬"UNTIL".toList <:+: upper line
  /-- All that can be called is listed. -/
  listed : ∀ label body, Reaches m.paragraphs lines label →
    m.paragraphs.get? label = some body → (label, body) ∈ bodies
  /-- There is room for everything. -/
  room : textSize lines + bodySize bodies < allowance

namespace Bounded

variable {m : Machine} {lines : List Text} {bodies : List (Text × List Text)} {allowance : Nat}

/-- Lines at the end of bounded lines are bounded. -/
theorem suffix (h : Bounded m lines bodies allowance) {rest : List Text} (hrest : rest <:+ lines) :
    Bounded m rest bodies allowance where
  plain line hline := h.plain line (hrest.subset hline)
  listed label body hlabel := h.listed label body <|
    hlabel.mono fun t ht ↦ ⟨t, hrest.subset ht, .whole⟩
  room := Nat.lt_of_le_of_lt (Nat.add_le_add_right (textSize_le_of_sublist hrest.sublist) _) h.room

variable {line : Text} {following : List Text}

/-- On the way into a part of the block behind a line. -/
theorem cut (h : Bounded m (line :: following) bodies (allowance + 1)) {xs : List Text}
    (hxs : CutFrom xs following) : Bounded m xs bodies allowance where
  plain t ht hstands := by
    obtain ⟨origin, horigin, hpart⟩ := hxs.exists_mem t ht
    exact h.plain origin (List.mem_cons_of_mem line horigin)
      (hstands.trans (upper_isInfix hpart.isInfix))
  listed label body hlabel := h.listed label body <| hlabel.mono fun t ht ↦ by
    obtain ⟨origin, horigin, hpart⟩ := hxs.exists_mem t ht
    exact ⟨origin, List.mem_cons_of_mem line horigin, hpart⟩
  room := by
    have hroom := h.room
    have hsize := hxs.textSize_le
    rw [textSize_cons] at hroom
    omega

/-- On the way into a paragraph that the line calls. -/
theorem call (h : Bounded m (line :: following) bodies (allowance + 1))
    (hacyclic : ∀ label, ¬Relation.TransGen (Mentions m.paragraphs) label label) {label : Text}
    (hlabel : MayCall line label) {body : List Text}
    (hbody : m.paragraphs.get? label = some body)
    (hplain : ∀ line ∈ body, ¬"UNTIL".toList <:+: upper line) :
    Bounded m body (bodies.filter (·.1 != label)) allowance where
  plain := hplain
  listed other otherBody hother hget := by
    have hpath : Relation.TransGen (Mentions m.paragraphs) label other := hother.transGen hbody
    have hreaches : Reaches m.paragraphs (line :: following) other :=
      ⟨line, List.mem_cons_self, label, hlabel, hpath.to_reflTransGen⟩
    have hne : other ≠ label := by
      rintro rfl
      exact hacyclic other hpath
    exact List.mem_filter.2 ⟨h.listed other otherBody hreaches hget, by simpa using hne⟩
  room := by
    have hreaches : Reaches m.paragraphs (line :: following) label :=
      ⟨line, List.mem_cons_self, label, hlabel, .refl⟩
    have hsize := textSize_add_bodySize_le (h.listed label body hreaches hbody)
    have hroom := h.room
    rw [textSize_cons] at hroom
    omega

end Bounded

/-- **Bounded lines end by themselves.** -/
theorem Bounded.endsByItself {m : Machine}
    (hacyclic : ∀ label, ¬Relation.TransGen (Mentions m.paragraphs) label label)
    (hplain : ∀ label body, m.paragraphs.get? label = some body →
      ∀ line ∈ body, ¬"UNTIL".toList <:+: upper line)
    {allowance : Nat} {lines : List Text} {bodies : List (Text × List Text)}
    (h : Bounded m lines bodies allowance) (s : State) :
    (executeBlock m allowance lines s).EndsByItself := by
  induction allowance generalizing lines bodies s with
  | zero => exact absurd h.room (Nat.not_lt_zero _)
  | succ allowance ih =>
    rw [executeBlock]
    refine Outcome.FailsOnly.executeLines (fun line following hsuffix t ↦ ?_) s
    have hline := h.suffix hsuffix
    have hroom := hline.room
    rw [textSize_cons] at hroom
    refine endsByItself_execute (by omega) (hline.plain line List.mem_cons_self)
      (fun xs hxs ↦ ih (hline.cut hxs)) (fun label body hlabel hbody ↦ ?_) t
    exact ih (hline.call hacyclic hlabel hbody (hplain label body hbody))

/-- An allowance that is enough for the lines if they hold no `UNTIL` and call no paragraph around a
cycle. It depends on the texts alone. -/
def MachineOf.room (m : Machine) (lines : List Text) : Nat :=
  textSize lines + bodySize m.paragraphs.entries + 1

/-- **Programs that end by themselves.** If no paragraph mentions itself around a cycle and no line
of the block or of a paragraph holds `UNTIL`, then the execution of the block ends, from every
state: finitely many moments lead to an outcome that is no limit, and this is the outcome under
every allowance from a certain one on, which depends on the texts alone. -/
theorem endsByItself_executeBlock (m : Machine) (lines : List Text)
    (hacyclic : ∀ label, ¬Relation.TransGen (Mentions m.paragraphs) label label)
    (hplain : ∀ line, m.HasLine lines line → ¬"UNTIL".toList <:+: upper line) (s : State) :
    ∃ ms o, Chained m s ms o ∧ o.EndsByItself ∧
      ∀ allowance, m.room lines ≤ allowance → executeBlock m allowance lines s = o := by
  have hbounded : Bounded m lines m.paragraphs.entries (m.room lines) :=
    ⟨fun line hline ↦ hplain line (Or.inl hline), fun _ _ _ hbody ↦ Table.mem_entries_of_get? hbody,
      Nat.lt_succ_self _⟩
  have hends := hbounded.endsByItself hacyclic
    (fun label body hbody line hline ↦ hplain line (Or.inr ⟨label, body, hbody, hline⟩)) s
  refine ⟨moments m (m.room lines) lines s, executeBlock m (m.room lines) lines s, ?_, hends,
    fun allowance hroom ↦ ?_⟩
  · cases hs : s.running with
    | true => exact chained_moments m (m.room lines) lines hs
    | false =>
      rw [moments_of_stopped m _ lines hs, MachineOf.room, executeBlock_of_stopped m _ lines hs]
      exact .done s
  · obtain ⟨more, rfl⟩ := Nat.exists_eq_add_of_le hroom
    exact widens_executeBlock m (m.room lines) more lines s fun hnesting ↦
      hends _ hnesting (Or.inl rfl)

/-- Paragraphs that mention only labels of a lower rank do not mention each other around a cycle. -/
theorem not_transGen_mentions_of_rank {paragraphs : Table (List Text)} (rank : Text → Nat)
    (h : ∀ e ∈ paragraphs.entries, ∀ line ∈ e.2, ∀ w ∈ words line,
      rank (labelForm w) < rank (labelForm e.1)) (label : Text) :
    ¬Relation.TransGen (Mentions paragraphs) label label := by
  have hstep {p q : Text} (hpq : Mentions paragraphs p q) :
      rank (labelForm q) < rank (labelForm p) := by
    obtain ⟨body, hbody, line, hline, w, hw, hform⟩ := hpq
    rw [← hform]
    exact h (p, body) (Table.mem_entries_of_get? hbody) line hline w hw
  have hpath {p q : Text} (hpq : Relation.TransGen (Mentions paragraphs) p q) :
      rank (labelForm q) < rank (labelForm p) := by
    induction hpq with
    | single hpq => exact hstep hpq
    | tail _ hpq ih => exact Nat.lt_trans (hstep hpq) ih
  exact fun hcycle ↦ Nat.lt_irrefl _ (hpath hcycle)

/-- A machine whose first paragraph runs its second one from the line of an `ELSE`. -/
def descending : Machine where
  paragraphs :=
    ⟨[("FIRST".toList,
        ["ADD 1 TO X.", "IF X < 3", "DISPLAY 'LOW'.", "ELSE PERFORM second X TIMES..",
          "END-IF"].map String.toList),
      ("SECOND".toList, ["COMPUTE Y = ((X + Y)) * 2.", "DISPLAY Y."].map String.toList)]⟩
  passes := 0

/-- Lines that run both paragraphs of `descending`, and then fail. -/
def descendingLines : List Text :=
  ["PERFORM First 3 TIMES.", "EVALUATE X", "WHEN 3 GO TO SECOND.", "END-EVALUATE",
    "ACCEPT X."].map String.toList

/-- A state whose input has no reader. -/
def descendingStart : State where
  input := some .unsupported

/-- The second paragraph ranks below the first, and every other word below both. -/
def descendingRank (form : Text) : Nat :=
  if form = "FIRST".toList then 2 else if form = "SECOND".toList then 1 else 0

/-- Paragraphs that call each other downwards, in counted loops, with an input that cannot be read:
the run ends in the fault of the input. -/
theorem endsByItself_executeBlock_descending :
    (∀ label, ¬Relation.TransGen (Mentions descending.paragraphs) label label) ∧
      (∀ line, descending.HasLine descendingLines line → ¬"UNTIL".toList <:+: upper line) ∧
      (executeBlock descending 300 descendingLines descendingStart).fault = some .noReader ∧
      (executeBlock descending 300 descendingLines descendingStart).state.output.toList =
        ["LOW", "LOW", "6", "18", "42", "90"].map String.toList ∧
      ∃ ms o, Chained descending descendingStart ms o ∧ o.EndsByItself ∧
        ∀ allowance, descending.room descendingLines ≤ allowance →
          executeBlock descending allowance descendingLines descendingStart = o :=
  have hacyclic : ∀ label, ¬Relation.TransGen (Mentions descending.paragraphs) label label :=
    not_transGen_mentions_of_rank descendingRank (by decide +kernel)
  have hplain (line : Text) (h : descending.HasLine descendingLines line) :
      ¬"UNTIL".toList <:+: upper line :=
    h.forall (P := fun line ↦ ¬"UNTIL".toList <:+: upper line) (by decide +kernel)
      (by decide +kernel)
  ⟨hacyclic, hplain, by decide +kernel, by decide +kernel,
    endsByItself_executeBlock descending descendingLines hacyclic hplain descendingStart⟩

end Cobol
