import Cobol.Proofs.Block.Composition

/-!
# Blocks line by line

Blocks with every keyword on a line of its own: `ifLines` and `evaluateLines`. Their parts may be
any lines through which the depth of the block stays level (`BlockKind.Closed`), such as the lines
of trees (`Tree.isLevel_linesOf`). A header reads the text behind its keyword as it is written, if
that text does not end in a period or a blank (`IsArgument`), and a `WHEN` line reads a value if no
blank ends it too early (`IsBranchValue`).

The laws say what a block in front of other lines does: the part that is chosen, and then the other
lines (`executeBlock_ifLines`, `executeBlock_evaluateLines`).

## Shape decisions

* The lines behind the block are kept general in every law. So a block can be put in front of other
  lines, and into the part of another block.
* What may stand in a header is a structure of conditions on its text (`IsArgument`,
  `IsBranchValue`). They are conditions on characters, so a number, a name and a quoted text meet
  them by looking at their ends.
-/

namespace Cobol

open Text

/-! ### The lines of a block -/

/-- The text behind a keyword is read as it is written. -/
structure IsArgument (t : Text) : Prop where
  /-- There is a character. -/
  ne_nil : t ≠ []
  /-- There are no blanks around it, and no period is dropped. -/
  remainder_eq : remainder t = t

instance : DecidablePred IsArgument := fun t ↦
  decidable_of_iff (t ≠ [] ∧ remainder t = t) ⟨fun h ↦ ⟨h.1, h.2⟩, fun h ↦ ⟨h.1, h.2⟩⟩

/-- A text without blanks at its ends and without a final period can stand behind a keyword. -/
theorem isArgument_of_ends {t : Text} {a b : Char} (hhead : t.head? = some a)
    (ha : isBlank a = false) (hlast : t.getLast? = some b) (hb : isBlank b = false)
    (hdot : b ≠ '.') : IsArgument t where
  ne_nil := by
    rintro rfl
    cases hhead
  remainder_eq := by
    have htrim : trimRight t = t := trimRight_of_getLast? hlast hb
    have hperiod : (trimRight t).getLast? ≠ some '.' := by
      rw [htrim, hlast]
      exact fun h ↦ hdot (Option.some.inj h)
    rw [remainder, Sentence.dropPeriod_of_getLast? hperiod, htrim,
      trim_eq_self hhead ha hlast hb]

namespace IsArgument

variable {t keyword : Text}

/-- What can stand behind a keyword is not blank. -/
theorem not_allBlank (h : IsArgument t) : ¬AllBlank t := fun hblank ↦ h.ne_nil <| by
  rw [← h.remainder_eq, remainder, Sentence.dropPeriod_of_allBlank hblank]
  rfl

/-- What stands behind a keyword and a blank is what the line has for arguments. -/
theorem arguments_eq (h : IsArgument t) (hkeyword : IsLabel keyword)
    (hquote : ∀ c ∈ keyword, isQuote c = false) : arguments (keyword ++ ' ' :: t) = t :=
  (arguments_joined hkeyword.1 hkeyword.isPlain.not_blank hquote h.not_allBlank).trans
    h.remainder_eq

end IsArgument

/-- The text behind `WHEN` is one operand. -/
structure IsBranchValue (value : Text) : Prop extends IsArgument value where
  /-- The operand does not end before the text does. -/
  firstOperand_eq : firstOperand value = (value, [])

instance : DecidablePred IsBranchValue := fun value ↦
  decidable_of_iff (IsArgument value ∧ firstOperand value = (value, []))
    ⟨fun h ↦ ⟨h.1, h.2⟩, fun h ↦ ⟨h.1, h.2⟩⟩

/-- The header of an `IF` block. -/
def ifLine (condition : Text) : Text :=
  "IF".toList ++ ' ' :: condition

/-- The header of an `EVALUATE` block. -/
def evaluateLine (subject : Text) : Text :=
  "EVALUATE".toList ++ ' ' :: subject

/-- The line that opens a branch. -/
def whenLine (value : Text) : Text :=
  "WHEN".toList ++ ' ' :: value

/-- An `IF` block with both parts. -/
def ifLines (condition : Text) (whenTrue whenFalse : List Text) : List Text :=
  ifLine condition :: (whenTrue ++ "ELSE".toList :: (whenFalse ++ ["END-IF".toList]))

/-- The lines of branches. -/
def branchLines (branches : List Branch) : List Text :=
  branches.flatMap fun b ↦ whenLine b.value :: b.lines

/-- An `EVALUATE` block with its branches. -/
def evaluateLines (subject : Text) (branches : List Branch) : List Text :=
  evaluateLine subject :: (branchLines branches ++ ["END-EVALUATE".toList])

/-- The header of an `IF` block is read as one. -/
theorem ofStatement_ifLine (condition : Text) : Verb.ofStatement (ifLine condition) = .ifThen :=
  (Verb.ofStatement_keyword (by decide) (by decide) (by decide) condition).trans
    (by decide +kernel)

/-- The header of an `EVALUATE` block is read as one. -/
theorem ofStatement_evaluateLine (subject : Text) :
    Verb.ofStatement (evaluateLine subject) = .evaluate :=
  (Verb.ofStatement_keyword (by decide) (by decide) (by decide) subject).trans (by decide +kernel)

/-- The header of a branch is read as one. -/
theorem ofStatement_whenLine (value : Text) : Verb.ofStatement (whenLine value) = .when :=
  (Verb.ofStatement_keyword (by decide) (by decide) (by decide) value).trans (by decide +kernel)

/-- The header of an `IF` block asks for what is left of its condition without a final period. -/
theorem ofText_ifLine {condition : Text} (h : ¬AllBlank condition) :
    Action.ofText (trim (ifLine condition)) = .branch (remainder condition) := by
  rw [Action.ofText_of_ifThen (ofStatement_ifLine condition), ifLine,
    arguments_joined (by decide) (by decide) (by decide) h]

/-- The header of an `EVALUATE` block asks for a choice on its subject. -/
theorem ofText_evaluateLine {subject : Text} (h : IsArgument subject) :
    Action.ofText (trim (evaluateLine subject)) = .choose subject := by
  rw [Action.ofText_of_evaluate (ofStatement_evaluateLine subject)]
  exact congrArg Action.choose (h.arguments_eq (by decide) (by decide))

/-- The header of a branch has its value as first operand, and nothing behind it. -/
theorem firstOperand_whenLine {value : Text} (h : IsBranchValue value) :
    firstOperand (arguments (whenLine value)) = (value, []) := by
  rw [whenLine, h.arguments_eq (by decide) (by decide), h.firstOperand_eq]

/-! ### Where the parts end -/

/-- **A written `IF` block is split as it was written**, whatever stands behind it. -/
theorem split_ifLines {whenTrue whenFalse : List Text}
    (htrue : BlockKind.conditional.Closed whenTrue)
    (hfalse : BlockKind.conditional.Closed whenFalse) (more : List Text) :
    IfBlock.split (whenTrue ++ "ELSE".toList :: (whenFalse ++ "END-IF".toList :: more)) =
      { whenTrue := whenTrue, whenFalse := whenFalse, rest := more } := by
  have helse : Verb.ofStatement "ELSE".toList = .otherwise := by decide +kernel
  have hend : Verb.ofStatement "END-IF".toList = .endIf := by decide +kernel
  have hbare : arguments "ELSE".toList = [] := by decide +kernel
  rw [IfBlock.split, IfBlock.splitFrom_append htrue, IfBlock.splitFrom_part helse,
    IfBlock.splitFrom_append hfalse, IfBlock.splitFrom_close hend, hbare]
  simp [IfBlock.push, lineOf]

/-- **A written `EVALUATE` block is split as it was written**, whatever stands behind it. -/
theorem split_branchLines {branches : List Branch} (hvalues : ∀ b ∈ branches, IsBranchValue b.value)
    (hclosed : ∀ b ∈ branches, BlockKind.choice.Closed b.lines) (more : List Text) :
    EvaluateBlock.split (branchLines branches ++ "END-EVALUATE".toList :: more) =
      { branches := branches, rest := more } := by
  rw [EvaluateBlock.split]
  induction branches with
  | nil => exact EvaluateBlock.splitFrom_close (by decide +kernel) more
  | cons b rest ih =>
    obtain ⟨hvalue, hvalues⟩ := List.forall_mem_cons.1 hvalues
    obtain ⟨hlines, hclosed⟩ := List.forall_mem_cons.1 hclosed
    rw [branchLines, List.flatMap_cons, List.append_assoc, List.cons_append,
      EvaluateBlock.splitFrom_part (ofStatement_whenLine b.value),
      EvaluateBlock.splitFrom_append hlines, ← branchLines, ih hvalues hclosed,
      firstOperand_whenLine hvalue]
    simp [EvaluateBlock.pushAll, EvaluateBlock.openBranch, lineOf, trim_nil]

/-- An `IF` block is level for its own splitter. -/
theorem closed_ifLines (condition : Text) {whenTrue whenFalse : List Text}
    (htrue : BlockKind.conditional.Closed whenTrue)
    (hfalse : BlockKind.conditional.Closed whenFalse) :
    BlockKind.conditional.Closed (ifLines condition whenTrue whenFalse) := by
  have helse : BlockKind.conditional.step 1 (Verb.ofStatement "ELSE".toList) = some 1 := by
    decide +kernel
  have hinner : BlockKind.conditional.depthAfter 1 (whenTrue ++ "ELSE".toList :: whenFalse) =
      some 1 := by
    rw [BlockKind.depthAfter_append, htrue.depthAfter_eq, Option.bind_some,
      BlockKind.depthAfter_cons, helse, Option.bind_some, hfalse.depthAfter_eq]
  have hclosed := BlockKind.closed_block (ofStatement_ifLine condition) hinner
    (show Verb.ofStatement "END-IF".toList = .endIf by decide +kernel)
  rwa [List.append_assoc] at hclosed

/-- Through the lines the depth of every block stays level. -/
def IsLevel (lines : List Text) : Prop :=
  ∀ k : BlockKind, k.Closed lines

instance : DecidablePred IsLevel := fun lines ↦
  decidable_of_iff (BlockKind.conditional.Closed lines ∧ BlockKind.choice.Closed lines)
    ⟨fun h k ↦ match k with
      | .conditional => h.1
      | .choice => h.2,
    fun h ↦ ⟨h .conditional, h .choice⟩⟩

/-- The lines of trees are level. -/
theorem Tree.isLevel_linesOf (trees : List Tree) : IsLevel (linesOf trees) := fun k ↦ by
  have h := closed_layoutOf (k := k) List.mem_cons_self (fun _ ↦ false) 0 trees
    (admissibleOf_none [k] 0 trees)
  rwa [layoutOf_none] at h

/-! ### What a block does -/

section

variable (m : Machine) (allowance : Nat) (more : List Text) {s : State} (hs : s.running = true)

include hs

/-- An `IF` block does what its header does with its two parts. -/
theorem executeBlock_ifLines_eq {condition : Text} (hcondition : ¬AllBlank condition)
    {whenTrue whenFalse : List Text} (htrue : BlockKind.conditional.Closed whenTrue)
    (hfalse : BlockKind.conditional.Closed whenFalse) :
    executeBlock m (allowance + 1) (ifLines condition whenTrue whenFalse ++ more) s =
      (match Condition.holds s.store (remainder condition) with
        | .error fault => s.fail fault
        | .ok found => executeBlock m allowance (if found then whenTrue else whenFalse) s).andThen
        (executeBlock m (allowance + 1) more) := by
  have hsplit := split_ifLines htrue hfalse more
  have hlines : ifLines condition whenTrue whenFalse ++ more = ifLine condition ::
      (whenTrue ++ "ELSE".toList :: (whenFalse ++ "END-IF".toList :: more)) := by
    simp [ifLines]
  rw [hlines, executeBlock, executeLines_cons hs, unread, ofStatement_ifLine, execute,
    ofText_ifLine hcondition, perform, hsplit]
  cases Condition.holds s.store (remainder condition) with
  | error fault => rfl
  | ok found => cases found <;> rfl

/-- **An `IF` block runs the part that its condition chooses**, and the lines behind it follow. -/
theorem executeBlock_ifLines {condition : Text} (hcondition : IsArgument condition)
    {whenTrue whenFalse : List Text} (htrue : BlockKind.conditional.Closed whenTrue)
    (hfalse : BlockKind.conditional.Closed whenFalse) {found : Bool}
    (hholds : Condition.holds s.store condition = .ok found) :
    executeBlock m (allowance + 1) (ifLines condition whenTrue whenFalse ++ more) s =
      (executeBlock m allowance (if found then whenTrue else whenFalse) s).andThen
        (executeBlock m (allowance + 1) more) := by
  rw [executeBlock_ifLines_eq m allowance more hs hcondition.not_allBlank htrue hfalse,
    hcondition.remainder_eq, hholds]

section

variable {subject : Text} (hsubject : IsArgument subject) {branches : List Branch}
  (hvalues : ∀ b ∈ branches, IsBranchValue b.value)
  (hclosed : ∀ b ∈ branches, BlockKind.choice.Closed b.lines)

include hsubject hvalues hclosed

/-- An `EVALUATE` block does what its header does with its branches. -/
theorem executeBlock_evaluateLines :
    executeBlock m (allowance + 1) (evaluateLines subject branches ++ more) s =
      (match Subject.ofText s.store allowance subject with
        | .error fault => s.fail fault
        | .ok (found, remark) =>
          match found.select branches with
          | .error fault => (remark.elim s s.note).fail fault
          | .ok chosen =>
            chosen.elim (remark.elim s s.note).done
              (executeBlock m allowance · (remark.elim s s.note))).andThen
        (executeBlock m (allowance + 1) more) := by
  have hsplit := split_branchLines hvalues hclosed more
  have hlines : evaluateLines subject branches ++ more = evaluateLine subject ::
      (branchLines branches ++ "END-EVALUATE".toList :: more) := by
    simp [evaluateLines]
  rw [hlines, executeBlock, executeLines_cons hs, unread, ofStatement_evaluateLine, execute,
    ofText_evaluateLine hsubject, perform, hsplit]
  cases Subject.ofText s.store allowance subject with
  | error fault => rfl
  | ok found =>
    dsimp only
    cases found.1.select branches with
    | error fault => rfl
    | ok chosen => cases chosen <;> rfl

/-- **An `EVALUATE` block runs the branch that is selected for its subject**, if there is one, and
the lines behind it follow. -/
theorem executeBlock_evaluateLines_of_select {found : Subject} {chosen : Option (List Text)}
    (hfound : Subject.ofText s.store allowance subject = .ok (found, none))
    (hchosen : found.select branches = .ok chosen) :
    executeBlock m (allowance + 1) (evaluateLines subject branches ++ more) s =
      (chosen.elim s.done (executeBlock m allowance · s)).andThen
        (executeBlock m (allowance + 1) more) := by
  rw [executeBlock_evaluateLines m allowance more hs hsubject hvalues hclosed, hfound]
  dsimp only
  rw [hchosen]
  rfl

end

end

end Cobol
