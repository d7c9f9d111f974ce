import Cobol.Proofs.Block.Skipping

/-!
# A statement on the line of its keyword

A layout in which the first lines of some parts stand behind `ELSE` or behind the value of `WHEN`
does what the plain lines do, as long as every such line may share its line (`AdmissibleOf`). Only
the journal can tell the two apart: what is left of a shared line has lost its period, and notes
quote it.

* `similar_remainder` is the local step: what is left of a line does what the line does.
* `similar_layoutOf` carries it through a layout, by induction on the allowance and, inside it, on
  the trees. The induction needs the journal to be invisible, since the two runs differ in it from
  the first shared line on.
* The condition is exact for the splitters: they pass over a shared part if and only if its first
  line opens no block of their kind (`closed_tail_linesOf_iff`).

## Shape decisions

* Two runs are compared by what they show (`Similar`), which leaves out the journal and nothing
  else.
* Plain lines are the layout in which no part shares a line, so both sides are layouts of the same
  trees, and the induction compares what the executor holds of each part.
-/

namespace Cobol

open Text

/-! ### One shared line -/

section

variable {m : Machine} {allowance : Nat} {nested : List Text → State → Outcome}

/-- What is left of a line takes the lines behind it that the line takes. -/
theorem unread_remainder (line : Text) (following : List Text) :
    unread (remainder line) following = unread line following := by
  rw [unread, ofStatement_remainder]
  rfl

/-- A line of which nothing is left has no effect. -/
theorem isIdle_of_remainder_eq_nil {line : Text} (h : remainder line = []) : IsIdle line := by
  have hverb : Verb.ofStatement line = .unknown := by
    rw [← ofStatement_remainder, h]
    exact Verb.ofStatement_of_allBlank AllBlank.nil
  refine ⟨?_, fun k ↦ by rw [hverb]; cases k <;> decide⟩
  unfold Action.ofText
  split
  · exact Or.inl rfl
  · rw [Verb.ofStatement_trim, hverb]
    exact Or.inr rfl

/-- **What is left of a line does what the line does**, up to the journal. -/
theorem similar_remainder (hnested : ∀ lines, Similar (nested lines) (nested lines)) {line : Text}
    (hline : IsSingle line) (more : List Text) :
    Similar (executeLines m allowance nested (lineOf (remainder line) ++ more))
      (executeLines m allowance nested (line :: more)) := by
  by_cases hnil : remainder line = []
  · rw [hnil]
    exact (isIdle_of_remainder_eq_nil hnil).similar_executeLines hnested more
  · have hlineOf : lineOf (remainder line) = [remainder line] := by simp [lineOf, hnil]
    have hexecute : Similar (execute m allowance nested (remainder line) more)
        (execute m allowance nested line more) := by
      intro s t hst
      rw [execute, execute, ofText_remainder hline hnil]
      exact similar_perform hnested _ _ more _ s t hst
    intro s t hst
    rw [hlineOf, List.singleton_append, executeLines, executeLines, unread_remainder]
    exact Similar.whileRunning (hexecute.andThen (similar_executeLines hnested _)) s t hst

end

/-! ### One tree -/

namespace Tree

section

variable {m : Machine} {allowance : Nat} {nested : List Text → State → Outcome}
  (hlayout : ∀ {enclosing : List BlockKind} {shares : Place → Bool} {trees : List Tree},
    AdmissibleOf enclosing shares 0 trees →
      Similar (nested (layoutOf shares 0 trees)) (nested (linesOf trees)))
  (hshared : ∀ {line : Text}, IsSingle line → ∀ more : List Text,
    Similar (nested (lineOf (remainder line) ++ more)) (nested (line :: more)))

include hlayout hshared

/-- The lines that a block takes from a part do what the plain lines of the part do. -/
theorem similar_heldLines {enclosing : List BlockKind} {shares : Place → Bool} {sharesLine : Bool}
    {body : List Tree} (hbody : AdmissibleOf enclosing shares 0 body)
    (hfirst : sharesLine = true → ∀ first ∈ (linesOf body).head?, IsSingle first) :
    Similar (nested (heldLines sharesLine (layoutOf shares 0 body))) (nested (linesOf body)) := by
  rcases partLines_cases sharesLine [] [] (layoutOf shares 0 body) with
    ⟨first, more, hshares, hlines, -, hheld⟩ | ⟨-, hheld⟩
  · have hmem : first ∈ (linesOf body).head? := by
      rw [← head?_layoutOf shares 0, hlines]
      rfl
    -- what is left of the shared line does what the line itself did in front of the others
    rw [hheld]
    refine (hshared (hfirst hshares first hmem) more).trans ?_
    rw [← hlines]
    exact hlayout hbody
  · rw [hheld]
    exact hlayout hbody

/-- The part behind `ELSE` does the same in an admissible layout and on plain lines. -/
theorem similar_heldAlternative {enclosing : List BlockKind} {shares : Place → Bool}
    {alternative : Option (ElseLine × List Tree)}
    (h : AdmissibleAlternative enclosing shares alternative) :
    Similar (nested (heldAlternative shares alternative))
      (nested (heldAlternative (fun _ ↦ false) alternative)) := by
  rw [heldAlternative_none]
  cases alternative with
  | none => exact hlayout (show AdmissibleOf [] shares 0 [] from trivial)
  | some alternative =>
    exact similar_heldLines hlayout hshared h.1 fun hshares first hfirst ↦
      (h.2 hshares first hfirst).single

/-- The branches of an admissible layout have the values of the plain ones, and do the same. -/
theorem forall₂_heldBranches {enclosing : List BlockKind} {shares : Place → Bool} {number : Nat}
    {branches : List (WhenLine × List Tree)}
    (h : AdmissibleBranches enclosing shares number branches) :
    List.Forall₂ (fun b c ↦ b.value = c.value ∧ Similar (nested b.lines) (nested c.lines))
      (heldBranches shares number branches) (heldBranches (fun _ ↦ false) number branches) := by
  induction branches generalizing number with
  | nil => exact .nil
  | cons branch rest ih =>
    obtain ⟨keyword, body⟩ := branch
    refine .cons ⟨rfl, ?_⟩ (ih h.2.2)
    have hplain : heldLines false (layoutOf (fun _ ↦ false) 0 body) = linesOf body :=
      layoutOf_none 0 body
    show Similar _ (nested (heldLines false (layoutOf (fun _ ↦ false) 0 body)))
    rw [hplain]
    exact similar_heldLines hlayout hshared h.1 fun hshares first hfirst ↦
      (h.2.1 hshares first hfirst).2.single

/-- A tree does the same in every layout. -/
theorem similar_effect (hnested : ∀ lines, Similar (nested lines) (nested lines))
    {enclosing : List BlockKind} {shares : Place → Bool} {tree : Tree}
    (h : tree.Admissible enclosing shares) :
    Similar (tree.effect m allowance nested shares ·)
      (tree.effect m allowance nested (fun _ ↦ false) ·) := by
  intro s t hst
  cases tree with
  | line l => exact similar_perform hnested _ _ _ _ s t hst
  | conditional header whenTrue alternative close =>
    dsimp only [effect]
    rw [State.store_eq hst, layoutOf_none 0 whenTrue]
    cases Condition.holds t.store (arguments header.text) with
    | error fault => exact Similar.fail fault s t hst
    | ok taken =>
      cases taken with
      | true => exact hlayout h.1 s t hst
      | false => exact similar_heldAlternative hlayout hshared h.2 s t hst
  | choice header branches close =>
    dsimp only [effect]
    rw [State.store_eq hst]
    cases Subject.ofText t.store allowance (arguments header.text) with
    | error fault => exact Similar.fail fault s t hst
    | ok subject =>
      obtain ⟨subject, remark⟩ := subject
      have hnoted : (remark.elim s s.note).visible = (remark.elim t t.note).visible := by
        cases remark <;> exact hst
      exact similar_select subject (forall₂_heldBranches hlayout hshared h) _ _ hnoted

/-- A list of trees, given what its nested blocks do. -/
theorem similar_executeLines_layoutOf (hnested : ∀ lines, Similar (nested lines) (nested lines))
    {enclosing : List BlockKind} {shares : Place → Bool} {number : Nat} {trees : List Tree}
    (h : AdmissibleOf enclosing shares number trees) :
    Similar (executeLines m allowance nested (layoutOf shares number trees))
      (executeLines m allowance nested (linesOf trees)) := by
  induction trees generalizing number with
  | nil => exact similar_executeLines hnested []
  | cons tree rest ih =>
    intro s t hst
    rw [layoutOf, linesOf]
    by_cases hs : s.running = true
    · have ht : t.running = true := by rwa [← State.running_eq hst]
      rw [executeLines_layout h.1 _ hs, ← layout_none tree,
        executeLines_layout (admissible_none [] tree) _ ht]
      exact Similar.andThen_visible (similar_effect hlayout hshared hnested h.1 s t hst) (ih h.2)
    · have ht : ¬t.running = true := by rwa [← State.running_eq hst]
      rw [executeLines_of_stopped hs, executeLines_of_stopped ht]
      exact Similar.done s t hst

end

/-! ### Layouts -/

/-- **A block in an admissible layout does what it does on plain lines**, if its nested blocks do
so. -/
theorem similar_layoutOf (m : Machine) (allowance : Nat) {enclosing : List BlockKind}
    {shares : Place → Bool} {trees : List Tree} (h : AdmissibleOf enclosing shares 0 trees) :
    Similar (executeBlock m allowance (layoutOf shares 0 trees))
      (executeBlock m allowance (linesOf trees)) := by
  induction allowance generalizing enclosing shares trees with
  | zero => exact .fail .nesting
  | succ allowance ih =>
    have hnested := similar_executeBlock m allowance
    -- a shared line is executed one level below the block whose keyword it stands behind
    refine similar_executeLines_layoutOf ih (fun {line} hline more ↦ ?_) hnested h
    cases allowance with
    | zero => exact .fail .nesting
    | succ allowance => exact similar_remainder (similar_executeBlock m allowance) hline more

/-- **A first line may share the line of its keyword**: as long as every shared line may do so, a
layout of trees leaves the store, the output, the input, the run flag and the fault that their plain
lines leave, from every state and with every table of paragraphs. -/
theorem executeBlock_layoutOf_visible (m : Machine) (allowance : Nat) {shares : Place → Bool}
    {trees : List Tree} (h : AdmissibleOf [] shares 0 trees) (s : State) :
    (executeBlock m allowance (layoutOf shares 0 trees) s).visible =
      (executeBlock m allowance (linesOf trees) s).visible :=
  similar_layoutOf m allowance h s s rfl

/-- `DISPLAY 'A'` -/
def displayA : Tree := .line ⟨"DISPLAY 'A'".toList, by decide +kernel⟩

/-- `DISPLAY 'B'` -/
def displayB : Tree := .line ⟨"DISPLAY 'B'".toList, by decide +kernel⟩

/-- `ELSE` -/
def elseLine : ElseLine := ⟨⟨"ELSE".toList, by decide +kernel⟩, by decide +kernel⟩

/-- `END-IF` -/
def endIf : KeywordLine .endIf := ⟨"END-IF".toList, by decide +kernel⟩

/-- An `IF` block that displays `A`, and would display `B` if its condition failed. -/
def aElseB : Tree :=
  .conditional ⟨"IF 1 = 1".toList, by decide +kernel⟩ [displayA] (some (elseLine, [displayB])) endIf

/-- An `IF` block whose condition fails, with the given tree behind `ELSE`. -/
def behindElse (t : Tree) : Tree :=
  .conditional ⟨"IF 1 = 2".toList, by decide +kernel⟩ [] (some (elseLine, [t])) endIf

/-- An `EVALUATE` block with the given tree in the branch that is taken. -/
def behindWhen (t : Tree) : Tree :=
  .choice ⟨"EVALUATE 1".toList, by decide +kernel⟩
    [(⟨⟨"WHEN 1".toList, by decide +kernel⟩, by decide +kernel⟩, [t])]
    ⟨"END-EVALUATE".toList, by decide +kernel⟩

/-- A chain of both kinds of block, with every first line on the line of its keyword. -/
theorem executeBlock_layoutOf_visible_chain :
    AdmissibleOf [] (fun _ ↦ true) 0 [behindElse (behindWhen displayA)] ∧
      (executeBlock ⟨{}, 1⟩ 9
        (layoutOf (fun _ ↦ true) 0 [behindElse (behindWhen displayA)]) {}).visible =
      (executeBlock ⟨{}, 1⟩ 9 (linesOf [behindElse (behindWhen displayA)]) {}).visible :=
  have h : AdmissibleOf [] (fun _ ↦ true) 0 [behindElse (behindWhen displayA)] := by decide +kernel
  ⟨h, executeBlock_layoutOf_visible ⟨{}, 1⟩ 9 h {}⟩

/-! ### The condition is exact -/

/-- A splitter of an enclosing block passes over the rest of a shared part if and only if the shared
line opens no block of its kind. -/
theorem closed_tail_linesOf_iff (k : BlockKind) {body : List Tree} {first : Text}
    (h : first ∈ (linesOf body).head?) :
    k.Closed (linesOf body).tail ↔ Verb.ofStatement first ≠ k.opener := by
  obtain ⟨more, hlines⟩ : ∃ more, linesOf body = first :: more := List.head?_eq_some_iff.1 h
  have hclosed : k.Closed (first :: more) := by
    rw [← hlines, ← layoutOf_none 0]
    exact closed_layoutOf (List.mem_singleton_self k) _ 0 body (admissibleOf_none _ 0 body)
  rw [hlines, List.tail_cons]
  constructor
  · intro hmore hopener
    -- the closing line of the shared header is left over
    rw [BlockKind.Closed, BlockKind.depthAfter_cons, hopener, BlockKind.step_opener,
      Option.bind_some, hmore.depthAfter_eq 1] at hclosed
    cases hclosed
  · intro hopener
    obtain ⟨hcloser, hpart⟩ := ofStatement_head_linesOf h k
    exact (BlockKind.closed_cons_of_step (k.step_of_ne hopener hcloser hpart 0)).1 hclosed

/-- Trees with the place of a first line that must not share: behind `ELSE` and behind `WHEN`, a
header of the kind of the block around it, and a header of the kind of the block around that. -/
def misreadings : List (Tree × Place) :=
  [(behindElse aElseB, [0, 1]), (behindWhen (behindWhen displayA), [0, 0]),
    (behindWhen (behindElse (behindWhen displayA)), [0, 0, 0, 1]),
    (behindElse (behindWhen aElseB), [0, 1, 0, 0])]

/-- Each of them is misread: the closing line of the header ends the block around it. -/
theorem output_misreadings_ne : ∀ e ∈ misreadings,
    ¬AdmissibleOf [] (· == e.2) 0 [e.1] ∧
      (executeBlock ⟨{}, 1⟩ 9 (layoutOf (· == e.2) 0 [e.1]) {}).state.output ≠
        (executeBlock ⟨{}, 1⟩ 9 (linesOf [e.1]) {}).state.output := by
  decide +kernel

end Tree

end Cobol
