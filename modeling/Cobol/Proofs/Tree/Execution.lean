import Cobol.Proofs.Journal
import Cobol.Proofs.Tree.Layout

/-!
# Execution of statement trees

`runTrees` interprets trees directly: a condition is tested once and decides between two lists of
trees, a subject is evaluated once and decides between branches, and a paragraph is a list of trees.
The executor knows none of this. It walks over lines and looks for the parts of a block when it
meets the header.

* `executeLines_layout` is what one tree does to the executor, whatever its layout: the header is
  executed, the executor goes on behind the closing line, and what happened in between is `effect`.
* `executeBlock_linesOf`: on the lines of trees, with paragraphs that are lines of trees, the
  executor is the interpreter. The induction is on the allowance, which bounds nested blocks and
  paragraphs alike, and inside it on the list of trees.

## Shape decisions

* The interpreter shares the single actions with the executor (`act`, `runParagraph`). What it says
  anew is which statements a block runs.
* Machines are over any type of bodies (`MachineOf`). A machine of the interpreter has trees for its
  paragraphs, and the machine of the executor is its image under `linesOf`.
-/

namespace Cobol

open Text

/-! ### Machines over trees -/

/-- The table with a function applied to every entry. -/
def Table.map {α β : Type} (f : α → β) (t : Table α) : Table β :=
  ⟨t.entries.map fun e ↦ (e.1, f e.2)⟩

/-- An entry of a mapped table is the image of an entry. -/
theorem Table.get?_map {α β : Type} (f : α → β) (t : Table α) (name : Text) :
    (t.map f).get? name = (t.get? name).map f := by
  obtain ⟨entries⟩ := t
  show (entries.map fun e ↦ (e.1, f e.2)).lookup name = (entries.lookup name).map f
  induction entries with
  | nil => rfl
  | cons e rest ih =>
    obtain ⟨key, entry⟩ := e
    rw [List.map_cons, List.lookup_cons, List.lookup_cons]
    cases name == key with
    | true => rfl
    | false => exact ih

/-- The machine with a function applied to the body of every paragraph. -/
def MachineOf.map {α β : Type} (f : α → β) (m : MachineOf α) : MachineOf β :=
  ⟨m.paragraphs.map f, m.passes⟩

/-- A call on a mapped machine runs the image of the body. -/
theorem runParagraph_map {α β : Type} (f : α → β) (m : MachineOf α) (run : β → State → Outcome)
    (label : Text) (repetition : Repetition) (s : State) :
    runParagraph (m.map f) run label repetition s =
      runParagraph m (fun body ↦ run (f body)) label repetition s := by
  unfold runParagraph
  rw [MachineOf.map, Table.get?_map]
  cases m.paragraphs.get? (upper label) <;> rfl

/-! ### The interpreter -/

namespace Tree

/-- The body of the first branch that is taken for the subject. -/
def pick (subject : Subject) : List (WhenLine × List Tree) → Except Fault (Option (List Tree))
  | [] => .ok none
  | (keyword, body) :: rest => do
    if ← subject.selects ⟨keyword.value, []⟩ then return some body else pick subject rest

section

variable (m : MachineOf (List Tree)) (allowance : Nat) (nested : List Tree → State → Outcome)

/-- Runs a tree, with a function that runs the trees inside it. -/
def run (s : State) : Tree → Outcome
  | .line l =>
    match Action.ofText (trim l.text) with
    | .perform label repetition => runParagraph m nested label repetition s
    | action => act allowance (trim l.text) s action
  | .conditional header whenTrue alternative _ =>
    match Condition.holds s.store (arguments header.text) with
    | .error fault => s.fail fault
    | .ok true => nested whenTrue s
    | .ok false => nested (alternative.elim [] (·.2)) s
  | .choice header branches _ =>
    match Subject.ofText s.store allowance (arguments header.text) with
    | .error fault => s.fail fault
    | .ok (subject, remark) =>
      let s := remark.elim s s.note
      match pick subject branches with
      | .error fault => s.fail fault
      | .ok none => s.done
      | .ok (some body) => nested body s

/-- Runs trees behind each other until the run is stopped. -/
def runList : List Tree → State → Outcome
  | [], s => s.done
  | t :: rest, s =>
    if s.running then (t.run m allowance nested s).andThen (runList rest) else s.done

end

/-- Runs trees whose nested trees and parentheses stay within the allowance. -/
def runTrees (m : MachineOf (List Tree)) : Nat → List Tree → State → Outcome
  | 0 => fun _ s ↦ s.fail .nesting
  | allowance + 1 => runList m allowance (runTrees m allowance)

end Tree

/-! ### One tree -/

/-- An action that takes no lines does not read them. -/
theorem perform_of_not_takesLines {m : Machine} {allowance : Nat}
    {nested : List Text → State → Outcome} (statement : Text) (following : List Text) (s : State)
    (action : Action) : action.takesLines = false →
    perform m allowance nested statement following s action =
      match action with
      | .perform label repetition => runParagraph m nested label repetition s
      | action => act allowance statement s action := by
  intro h
  cases action <;> first | rfl | cases h

section

variable {m : Machine} {allowance : Nat} {nested : List Text → State → Outcome}

/-- A line whose verb opens no block is executed without the lines behind it. -/
theorem execute_of_not_opener {line : Text} (hif : Verb.ofStatement line ≠ .ifThen)
    (hevaluate : Verb.ofStatement line ≠ .evaluate) (following : List Text) (s : State) :
    execute m allowance nested line following s = execute m allowance nested line [] s := by
  have hverb := Verb.ofStatement_trim line
  have h : (Action.ofText (trim line)).takesLines = false :=
    Action.takesLines_ofText (by rwa [hverb]) (by rwa [hverb])
  rw [execute, execute, perform_of_not_takesLines _ _ _ _ h, perform_of_not_takesLines _ _ _ _ h]

/-- Behind a line that opens no block, no line has been taken. -/
theorem unread_of_not_opener {line : Text} (hif : Verb.ofStatement line ≠ .ifThen)
    (hevaluate : Verb.ofStatement line ≠ .evaluate) (following : List Text) :
    unread line following = following := by
  unfold unread
  split
  · exact absurd ‹_› hif
  · exact absurd ‹_› hevaluate
  · rfl

theorem executeLines_cons {line : Text} {following : List Text} {s : State}
    (hs : s.running = true) :
    executeLines m allowance nested (line :: following) s =
      (execute m allowance nested line following s).andThen
        (executeLines m allowance nested (unread line following)) := by
  rw [executeLines, if_pos hs]

/-- A stopped run executes nothing. -/
theorem executeLines_of_stopped {lines : List Text} {s : State} (hs : ¬s.running = true) :
    executeLines m allowance nested lines s = s.done := by
  cases lines with
  | nil => rw [executeLines]
  | cons line following => rw [executeLines, if_neg hs]

end

namespace Tree

section

variable (m : Machine) (allowance : Nat) (nested : List Text → State → Outcome)

/-- What a laid-out tree does to a state: the parts that its header runs are those of the tree. -/
def effect (shares : Place → Bool) (s : State) : Tree → Outcome
  | .line l => execute m allowance nested l.text [] s
  | .conditional header whenTrue alternative _ =>
    match Condition.holds s.store (arguments header.text) with
    | .error fault => s.fail fault
    | .ok true => nested (layoutOf (fun p ↦ shares (0 :: p)) 0 whenTrue) s
    | .ok false => nested (heldAlternative shares alternative) s
  | .choice header branches _ =>
    match Subject.ofText s.store allowance (arguments header.text) with
    | .error fault => s.fail fault
    | .ok (subject, remark) =>
      let s := remark.elim s s.note
      match subject.select (heldBranches shares 0 branches) with
      | .error fault => s.fail fault
      | .ok none => s.done
      | .ok (some lines) => nested lines s

variable {m allowance nested}

/-- **One tree in front of other lines**: its effect, and then the other lines. -/
theorem executeLines_layout {enclosing : List BlockKind} {shares : Place → Bool} {t : Tree}
    (h : t.Admissible enclosing shares) (rest : List Text) {s : State} (hs : s.running = true) :
    executeLines m allowance nested (t.layout shares ++ rest) s =
      (t.effect m allowance nested shares s).andThen (executeLines m allowance nested rest) := by
  cases t with
  | line l =>
    obtain ⟨hif, hevaluate⟩ := l.not_opener
    rw [layout, List.singleton_append, executeLines_cons hs,
      execute_of_not_opener hif hevaluate, unread_of_not_opener hif hevaluate]
    rfl
  | conditional header whenTrue alternative close =>
    -- the header takes the lines of its own block and no others
    have hsplit := split_conditional (List.mem_cons_self ..) h.1 h.2 close rest
    have hunread : unread header.text (layoutOf (fun p ↦ shares (0 :: p)) 0 whenTrue ++
        alternativeLayout shares alternative ++ close.text :: rest) = rest := by
      rw [unread, header.verb, hsplit]
    rw [layout, List.cons_append, List.append_assoc _ [close.text], List.singleton_append,
      executeLines_cons hs, hunread, execute, Action.ofText_of_ifThen header.verb, perform, hsplit]
    rfl
  | choice header branches close =>
    have hsplit := split_choice (List.mem_cons_self ..) h close rest
    have hunread : unread header.text
        (branchLayout shares 0 branches ++ close.text :: rest) = rest := by
      rw [unread, header.verb, hsplit]
    rw [layout, List.cons_append, List.append_assoc _ [close.text], List.singleton_append,
      executeLines_cons hs, hunread, execute, Action.ofText_of_evaluate header.verb, perform,
      hsplit]
    rfl

end

/-! ### Trees on plain lines -/

/-- On plain lines the executor holds the lines of the part behind `ELSE`, and none if there is no
such part. -/
theorem heldAlternative_none (alternative : Option (ElseLine × List Tree)) :
    heldAlternative (fun _ ↦ false) alternative = linesOf (alternative.elim [] (·.2)) := by
  cases alternative with
  | none => rfl
  | some alternative => exact layoutOf_none 0 alternative.2

/-- The executor takes the lines of the branch that the interpreter picks. -/
theorem select_heldBranches (subject : Subject) (number : Nat)
    (branches : List (WhenLine × List Tree)) :
    subject.select (heldBranches (fun _ ↦ false) number branches) =
      (pick subject branches).map (Option.map linesOf) := by
  induction branches generalizing number with
  | nil => rfl
  | cons branch rest ih =>
    obtain ⟨keyword, body⟩ := branch
    have hlines : heldLines false (layoutOf (fun _ ↦ false) 0 body) = linesOf body :=
      layoutOf_none 0 body
    -- whether a branch is taken depends on its keyword alone
    have hselects : subject.selects ⟨keyword.value, linesOf body⟩ =
        subject.selects ⟨keyword.value, []⟩ := Subject.selects_congr rfl subject
    rw [heldBranches, hlines, Subject.select, pick, ih, hselects]
    cases subject.selects ⟨keyword.value, []⟩ with
    | error fault => rfl
    | ok taken => cases taken <;> rfl

variable {m : MachineOf (List Tree)} {allowance : Nat} {nested : List Text → State → Outcome}

/-- On plain lines the effect of a tree is its run. -/
theorem effect_none (t : Tree) (s : State) :
    t.effect (m.map linesOf) allowance nested (fun _ ↦ false) s =
      t.run m allowance (fun trees ↦ nested (linesOf trees)) s := by
  cases t with
  | line l =>
    obtain ⟨hif, hevaluate⟩ := l.not_opener
    have hverb := Verb.ofStatement_trim l.text
    have h : (Action.ofText (trim l.text)).takesLines = false :=
      Action.takesLines_ofText (by rwa [hverb]) (by rwa [hverb])
    rw [effect, execute, perform_of_not_takesLines _ _ _ _ h, run]
    simp only [runParagraph_map]
  | conditional header whenTrue alternative close =>
    rw [effect, run, layoutOf_none, heldAlternative_none]
  | choice header branches close =>
    rw [effect, run]
    cases Subject.ofText s.store allowance (arguments header.text) with
    | error fault => rfl
    | ok subject =>
      dsimp only
      rw [select_heldBranches]
      cases pick subject.1 branches with
      | error fault => rfl
      | ok body => cases body <;> rfl

/-- A list of trees, given that nested trees are run as their lines are executed. -/
theorem executeLines_linesOf (trees : List Tree) (s : State) :
    executeLines (m.map linesOf) allowance nested (linesOf trees) s =
      runList m allowance (fun trees ↦ nested (linesOf trees)) trees s := by
  induction trees generalizing s with
  | nil =>
    rw [linesOf, executeLines]
    rfl
  | cons t rest ih =>
    rw [linesOf, runList]
    by_cases hs : s.running = true
    · rw [← layout_none t, executeLines_layout (admissible_none [] t) _ hs, effect_none,
        if_pos hs, funext ih]
    · rw [if_neg hs, executeLines_of_stopped hs]

/-- **The executor on the lines of trees is the interpreter of the trees**, for every machine whose
paragraphs are lines of trees, every allowance for nesting and every state. -/
theorem executeBlock_linesOf (m : MachineOf (List Tree)) (allowance : Nat) (trees : List Tree)
    (s : State) :
    executeBlock (m.map linesOf) allowance (linesOf trees) s = runTrees m allowance trees s := by
  induction allowance generalizing trees s with
  | zero => rfl
  | succ allowance ih =>
    -- parts of blocks and bodies of paragraphs run with the smaller allowance
    have hnested : (fun trees ↦ executeBlock (m.map linesOf) allowance (linesOf trees)) =
        runTrees m allowance := funext fun trees ↦ funext fun s ↦ ih trees s
    rw [executeBlock, runTrees, executeLines_linesOf, hnested]

end Tree

end Cobol
