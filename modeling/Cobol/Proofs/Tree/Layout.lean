import Cobol.Proofs.Block.Nesting
import Cobol.Proofs.Statement
import Cobol.Proofs.Tree.Basic

/-!
# Layouts of statement trees

`Tree.lines` writes every keyword on a line of its own. A layout may also write the first line of a
part on the line of its keyword (`ELSE s`, `WHEN v s`). This module says what the block splitters
make of a layout.

## Shape decisions

* Which parts share a line is asked of a function of their places. A place is the number of a tree
  in its list, the number of a part of that tree, and so on; the part before `ELSE` has number zero
  and the one behind it number one, and the branches of a choice are numbered from zero.
* A splitter counts only lines that start with its keyword, so it does not see a header behind
  `ELSE` or `WHEN`. `MayShare` is the condition under which none of the splitters that pass over the
  line had to see it: the line opens no block of a kind that encloses it.
* Under that condition every layout is closed for the kinds around it (`closed_layoutOf`), and the
  two splitters find the parts of the tree (`split_conditional`, `split_choice`), with what is left
  of a shared line in front.
-/

namespace Cobol.Tree

open Text

/-! ### Layouts -/

/-- The place of a part. -/
abbrev Place := List Nat

/-- The lines of a part: its keyword on a line of its own, or in front of the first line. -/
def partLines (shares : Bool) (own keyword : Text) (body : List Text) : List Text :=
  match shares, body with
  | true, first :: more => (keyword ++ ' ' :: first) :: more
  | _, _ => own :: body

/-- The lines that a block takes from a part: what is left of a shared first line, and the rest. -/
def heldLines (shares : Bool) (body : List Text) : List Text :=
  match shares, body with
  | true, first :: more => lineOf (remainder first) ++ more
  | _, _ => body

/-- The two forms of a part. -/
theorem partLines_cases (shares : Bool) (own keyword : Text) (body : List Text) :
    (∃ first more, shares = true ∧ body = first :: more ∧
      partLines shares own keyword body = (keyword ++ ' ' :: first) :: more ∧
      heldLines shares body = lineOf (remainder first) ++ more) ∨
    (partLines shares own keyword body = own :: body ∧ heldLines shares body = body) := by
  match shares, body with
  | true, first :: more => exact Or.inl ⟨first, more, rfl, rfl, rfl, rfl⟩
  | true, [] => exact Or.inr ⟨rfl, rfl⟩
  | false, _ => exact Or.inr ⟨rfl, rfl⟩

/-- The keyword that a statement behind `ELSE` stands behind. -/
def elseKeyword : Text := "ELSE".toList

/-- The keyword and the value that a statement behind `WHEN` stands behind. -/
def whenKeyword (w : WhenLine) : Text :=
  "WHEN".toList ++ ' ' :: w.value

mutual

/-- The lines of a tree in which the parts at the given places share the line of their keyword. -/
def layout (shares : Place → Bool) : Tree → List Text
  | .line l => [l.text]
  | .conditional header whenTrue alternative close =>
    header.text :: (layoutOf (fun p ↦ shares (0 :: p)) 0 whenTrue ++
      alternativeLayout shares alternative ++ [close.text])
  | .choice header branches close => header.text :: (branchLayout shares 0 branches ++ [close.text])

/-- The layout of trees behind each other, the first of which has the given number. -/
def layoutOf (shares : Place → Bool) (number : Nat) : List Tree → List Text
  | [] => []
  | t :: rest => t.layout (fun p ↦ shares (number :: p)) ++ layoutOf shares (number + 1) rest

/-- The layout from `ELSE` on. -/
def alternativeLayout (shares : Place → Bool) : Option (ElseLine × List Tree) → List Text
  | none => []
  | some (keyword, body) =>
    partLines (shares [1]) keyword.text elseKeyword (layoutOf (fun p ↦ shares (1 :: p)) 0 body)

/-- The layout of branches behind each other, the first of which has the given number. -/
def branchLayout (shares : Place → Bool) (number : Nat) :
    List (WhenLine × List Tree) → List Text
  | [] => []
  | (keyword, body) :: rest =>
    partLines (shares [number]) keyword.text (whenKeyword keyword)
      (layoutOf (fun p ↦ shares (number :: p)) 0 body) ++ branchLayout shares (number + 1) rest

end

mutual

/-- Where no part shares a line, a layout is the plain lines. -/
theorem layout_none : ∀ t : Tree, t.layout (fun _ ↦ false) = t.lines
  | .line _ => rfl
  | .conditional _ whenTrue alternative _ => by
    rw [layout, lines, layoutOf_none 0 whenTrue, alternativeLayout_none alternative]
  | .choice _ branches _ => by rw [layout, lines, branchLayout_none 0 branches]

theorem layoutOf_none (number : Nat) :
    ∀ trees : List Tree, layoutOf (fun _ ↦ false) number trees = linesOf trees
  | [] => rfl
  | t :: rest => by rw [layoutOf, linesOf, layout_none t, layoutOf_none (number + 1) rest]

theorem alternativeLayout_none : ∀ alternative : Option (ElseLine × List Tree),
    alternativeLayout (fun _ ↦ false) alternative = alternativeLines alternative
  | none => rfl
  | some (_, body) => by
    rw [alternativeLayout, alternativeLines, layoutOf_none 0 body]
    rfl

theorem branchLayout_none (number : Nat) : ∀ branches : List (WhenLine × List Tree),
    branchLayout (fun _ ↦ false) number branches = branchLines branches
  | [] => rfl
  | (_, body) :: rest => by
    rw [branchLayout, branchLines, layoutOf_none 0 body, branchLayout_none (number + 1) rest]
    rfl

end

/-! ### Which lines may share -/

/-- The first line of trees is the same in every layout. -/
theorem head?_layoutOf (shares : Place → Bool) (number : Nat) (trees : List Tree) :
    (layoutOf shares number trees).head? = (linesOf trees).head? := by
  cases trees with
  | nil => rfl
  | cons t rest => cases t <;> rfl

/-- The first line of trees neither closes a block nor starts a part of one. -/
theorem ofStatement_head_linesOf {trees : List Tree} {first : Text}
    (h : first ∈ (linesOf trees).head?) (k : BlockKind) :
    Verb.ofStatement first ≠ k.closer ∧ Verb.ofStatement first ≠ k.part := by
  cases trees with
  | nil => cases h
  | cons t rest =>
    cases t with
    | line l =>
      obtain rfl : l.text = first := by simpa [linesOf, lines] using h
      have hsimple := l.simple
      constructor <;> intro hv <;> rw [hv] at hsimple <;> cases k <;> cases hsimple
    | conditional header whenTrue alternative close =>
      obtain rfl : header.text = first := by simpa [linesOf, lines] using h
      rw [header.verb]
      cases k <;> decide
    | choice header branches close =>
      obtain rfl : header.text = first := by simpa [linesOf, lines] using h
      rw [header.verb]
      cases k <;> decide

/-- A line that may share the line of a keyword inside blocks of the given kinds: it has one period
at most and opens no block of these kinds. -/
structure MayShare (enclosing : List BlockKind) (first : Text) : Prop where
  /-- It has one period at most. -/
  single : IsSingle first
  /-- No splitter on the way has to count it. -/
  opens_none : ∀ k ∈ enclosing, Verb.ofStatement first ≠ k.opener

/-- A `WHEN` line with a value that ends where the given line starts. -/
structure MayPrecede (w : WhenLine) (first : Text) : Prop where
  /-- There is a value. -/
  ne_nil : w.value ≠ []
  /-- Its literals are closed. -/
  closed : Sentence.openLiteral w.value = none
  /-- It does not lose a period where nothing stands behind it. -/
  stable : AllBlank first → Sentence.dropPeriod w.value = w.value

mutual

/-- Inside blocks of the given kinds, the lines that share the line of a keyword may do so. -/
def Admissible (enclosing : List BlockKind) (shares : Place → Bool) : Tree → Prop
  | .line _ => True
  | .conditional _ whenTrue alternative _ =>
    AdmissibleOf (.conditional :: enclosing) (fun p ↦ shares (0 :: p)) 0 whenTrue ∧
      AdmissibleAlternative (.conditional :: enclosing) shares alternative
  | .choice _ branches _ => AdmissibleBranches (.choice :: enclosing) shares 0 branches

/-- `Admissible` for trees behind each other. -/
def AdmissibleOf (enclosing : List BlockKind) (shares : Place → Bool) (number : Nat) :
    List Tree → Prop
  | [] => True
  | t :: rest =>
    t.Admissible enclosing (fun p ↦ shares (number :: p)) ∧
      AdmissibleOf enclosing shares (number + 1) rest

/-- `Admissible` for the part from `ELSE` on. -/
def AdmissibleAlternative (enclosing : List BlockKind) (shares : Place → Bool) :
    Option (ElseLine × List Tree) → Prop
  | none => True
  | some (_, body) =>
    AdmissibleOf enclosing (fun p ↦ shares (1 :: p)) 0 body ∧
      (shares [1] = true → ∀ first ∈ (linesOf body).head?, MayShare enclosing first)

/-- `Admissible` for branches behind each other. -/
def AdmissibleBranches (enclosing : List BlockKind) (shares : Place → Bool) (number : Nat) :
    List (WhenLine × List Tree) → Prop
  | [] => True
  | (keyword, body) :: rest =>
    AdmissibleOf enclosing (fun p ↦ shares (number :: p)) 0 body ∧
      (shares [number] = true → ∀ first ∈ (linesOf body).head?,
        MayPrecede keyword first ∧ MayShare enclosing first) ∧
      AdmissibleBranches enclosing shares (number + 1) rest

end

mutual

/-- Where no part shares a line, there is nothing to ask for. -/
theorem admissible_none (enclosing : List BlockKind) :
    ∀ t : Tree, t.Admissible enclosing (fun _ ↦ false)
  | .line _ => trivial
  | .conditional _ whenTrue alternative _ =>
    ⟨admissibleOf_none _ 0 whenTrue, admissibleAlternative_none _ alternative⟩
  | .choice _ branches _ => admissibleBranches_none _ 0 branches

theorem admissibleOf_none (enclosing : List BlockKind) (number : Nat) :
    ∀ trees : List Tree, AdmissibleOf enclosing (fun _ ↦ false) number trees
  | [] => trivial
  | t :: rest => ⟨admissible_none _ t, admissibleOf_none _ (number + 1) rest⟩

theorem admissibleAlternative_none (enclosing : List BlockKind) :
    ∀ alternative : Option (ElseLine × List Tree),
      AdmissibleAlternative enclosing (fun _ ↦ false) alternative
  | none => trivial
  | some (_, body) => ⟨admissibleOf_none _ 0 body, nofun⟩

theorem admissibleBranches_none (enclosing : List BlockKind) (number : Nat) :
    ∀ branches : List (WhenLine × List Tree),
      AdmissibleBranches enclosing (fun _ ↦ false) number branches
  | [] => trivial
  | (_, body) :: rest =>
    ⟨admissibleOf_none _ 0 body, nofun, admissibleBranches_none _ (number + 1) rest⟩

end

/-! Whether a layout is admissible can be computed. -/

instance (enclosing : List BlockKind) : DecidablePred (MayShare enclosing) := fun first ↦
  decidable_of_iff (IsSingle first ∧ ∀ k ∈ enclosing, Verb.ofStatement first ≠ k.opener)
    ⟨fun h ↦ ⟨h.1, h.2⟩, fun h ↦ ⟨h.single, h.opens_none⟩⟩

instance (w : WhenLine) : DecidablePred (MayPrecede w) := fun first ↦
  decidable_of_iff (w.value ≠ [] ∧ Sentence.openLiteral w.value = none ∧
      (AllBlank first → Sentence.dropPeriod w.value = w.value))
    ⟨fun h ↦ ⟨h.1, h.2.1, h.2.2⟩, fun h ↦ ⟨h.ne_nil, h.closed, h.stable⟩⟩

mutual

instance decidableAdmissible (enclosing : List BlockKind) (shares : Place → Bool) :
    ∀ t : Tree, Decidable (t.Admissible enclosing shares)
  | .line _ => .isTrue trivial
  | .conditional _ whenTrue alternative _ =>
    @instDecidableAnd _ _
      (decidableAdmissibleOf (.conditional :: enclosing) (fun p ↦ shares (0 :: p)) 0 whenTrue)
      (decidableAdmissibleAlternative (.conditional :: enclosing) shares alternative)
  | .choice _ branches _ => decidableAdmissibleBranches (.choice :: enclosing) shares 0 branches

instance decidableAdmissibleOf (enclosing : List BlockKind) (shares : Place → Bool) (number : Nat) :
    ∀ trees : List Tree, Decidable (AdmissibleOf enclosing shares number trees)
  | [] => .isTrue trivial
  | t :: rest =>
    @instDecidableAnd _ _ (decidableAdmissible enclosing (fun p ↦ shares (number :: p)) t)
      (decidableAdmissibleOf enclosing shares (number + 1) rest)

instance decidableAdmissibleAlternative (enclosing : List BlockKind) (shares : Place → Bool) :
    ∀ alternative : Option (ElseLine × List Tree),
      Decidable (AdmissibleAlternative enclosing shares alternative)
  | none => .isTrue trivial
  | some (_, body) =>
    @instDecidableAnd _ _ (decidableAdmissibleOf enclosing (fun p ↦ shares (1 :: p)) 0 body)
      inferInstance

instance decidableAdmissibleBranches (enclosing : List BlockKind) (shares : Place → Bool)
    (number : Nat) : ∀ branches : List (WhenLine × List Tree),
      Decidable (AdmissibleBranches enclosing shares number branches)
  | [] => .isTrue trivial
  | (_, body) :: rest =>
    @instDecidableAnd _ _ (decidableAdmissibleOf enclosing (fun p ↦ shares (number :: p)) 0 body)
      (@instDecidableAnd _ _ inferInstance
        (decidableAdmissibleBranches enclosing shares (number + 1) rest))

end

/-! ### Shared lines -/

theorem isPlain_else : Verb.IsPlain elseKeyword :=
  Verb.isPlain_keyword .otherwise

theorem isPlain_when : Verb.IsPlain "WHEN".toList :=
  Verb.isPlain_keyword .when

/-- Whatever stands behind `ELSE`, the verb of the line is `ELSE`. -/
theorem ofStatement_elseKeyword (s : Text) :
    Verb.ofStatement (elseKeyword ++ ' ' :: s) = .otherwise := by
  rw [Verb.ofStatement, Verb.wordsOf_plain_append isPlain_else rfl]
  rfl

/-- Whatever stands behind `WHEN` and its value, the verb of the line is `WHEN`. -/
theorem ofStatement_whenKeyword (w : WhenLine) (s : Text) :
    Verb.ofStatement (whenKeyword w ++ ' ' :: s) = .when := by
  rw [whenKeyword, List.append_assoc, Verb.ofStatement, List.cons_append,
    Verb.wordsOf_plain_append isPlain_when rfl]
  rfl

/-- Blanks at the end of a line are not among its arguments. -/
theorem arguments_append_allBlank (s : Text) {t : Text} (h : AllBlank t) :
    arguments (s ++ t) = arguments s := by
  rw [arguments, ← Sentence.dropPeriod_trimRight, trimRight_append_of_allBlank _ h,
    Sentence.dropPeriod_trimRight]
  rfl

theorem allBlank_cons_space {s : Text} : AllBlank (' ' :: s) ↔ AllBlank s :=
  allBlank_cons.trans (and_iff_right rfl)

/-- Behind `ELSE` stands what is left of the statement. -/
theorem arguments_elseKeyword (s : Text) :
    arguments (elseKeyword ++ ' ' :: s) = remainder s := by
  by_cases hs : AllBlank s
  · rw [arguments_append_allBlank _ (allBlank_cons_space.2 hs), remainder,
      Sentence.dropPeriod_of_allBlank hs]
    decide
  · exact arguments_joined (by decide) (by decide) (by decide) hs

/-- The value of a `WHEN` line is its first operand, and nothing stands behind it. -/
theorem firstOperand_value (w : WhenLine) : firstOperand w.value = (w.value, []) := by
  have hvalue := firstOperand_append w.value
  rw [WhenLine.value, w.bare, List.append_nil] at hvalue
  exact Prod.ext hvalue w.bare

theorem trim_value (w : WhenLine) : trim w.value = w.value :=
  trim_trim _

/-- The arguments of a `WHEN` line that a statement shares: the value, and the statement without its
period. -/
theorem arguments_whenKeyword {w : WhenLine} {s : Text} (hw : MayPrecede w s) :
    arguments (whenKeyword w ++ ' ' :: s) =
      trim (w.value ++ ' ' :: Sentence.dropPeriod s) := by
  have hvalue : ¬AllBlank w.value := fun h ↦ hw.ne_nil (by
    rw [← trim_value, trim_eq_nil_iff.2 h])
  by_cases hs : AllBlank s
  · have hblank := allBlank_cons_space.2 hs
    rw [arguments_append_allBlank _ hblank, whenKeyword,
      arguments_joined (by decide) (by decide) (by decide) hvalue, remainder, hw.stable hs,
      Sentence.dropPeriod_of_allBlank hs, trim, trim,
      trimRight_append_of_allBlank _ (allBlank_cons_space.2 AllBlank.nil)]
  · have hopen : Sentence.openLiteral (w.value ++ [' ']) = none := by
      rw [Sentence.openLiteral_append_of_none hw.closed]
      rfl
    have hblank : ¬AllBlank (w.value ++ ' ' :: s) := fun h ↦ hvalue (allBlank_append.1 h).1
    rw [whenKeyword, List.append_assoc, List.cons_append,
      arguments_joined (by decide) (by decide) (by decide) hblank, remainder,
      show w.value ++ ' ' :: s = (w.value ++ [' ']) ++ s by simp,
      Sentence.dropPeriod_append hopen hs, trim_trimRight]
    simp

/-- Behind `WHEN` stand the value and what is left of the statement. -/
theorem firstOperand_whenKeyword {w : WhenLine} {s : Text} (hw : MayPrecede w s) :
    ∃ rest, firstOperand (arguments (whenKeyword w ++ ' ' :: s)) = (w.value, rest) ∧
      trim rest = remainder s := by
  obtain ⟨c, more, hc⟩ := List.exists_cons_of_ne_nil hw.ne_nil
  have hleft : trimLeft w.value = c :: more := by
    rw [← trim_value w, trimLeft_trim, trim_value, hc]
  have hstart : isBlank c = false := isBlank_of_trimLeft hleft
  rw [arguments_whenKeyword hw]
  by_cases hd : AllBlank (Sentence.dropPeriod s)
  · refine ⟨[], ?_, ?_⟩
    · rw [trim, trimRight_append_of_allBlank _ (allBlank_cons_space.2 hd)]
      exact (congrArg firstOperand (trim_value w)).trans (firstOperand_value w)
    · rw [remainder, trim_eq_nil_iff.2 hd]
      rfl
  · have hcons : ¬AllBlank (' ' :: Sentence.dropPeriod s) := fun h ↦ hd (allBlank_cons_space.1 h)
    have hkeep : trimRight (' ' :: Sentence.dropPeriod s) = ' ' :: Sentence.dropPeriod s := by
      rw [show ' ' :: Sentence.dropPeriod s = [' '] ++ Sentence.dropPeriod s from rfl,
        trimRight_append_of_not_allBlank _ hd, Sentence.trimRight_dropPeriod]
    refine ⟨' ' :: Sentence.dropPeriod s, ?_, ?_⟩
    · rw [trim, trimRight_append_of_not_allBlank _ hcons, hkeep, hc, List.cons_append,
        trimLeft_cons_of_not hstart, ← List.cons_append, ← hc]
      exact firstOperand_of_closed hw.ne_nil (by rw [firstOperand_value]) hw.closed _
    · rw [← trim_trimLeft, trimLeft_cons_of_isBlank rfl, trim_trimLeft]
      rfl

/-! ### Layouts are closed -/

/-- A line that starts a part of one kind is passed by the splitter of the other kind everywhere,
and by that of its own kind inside a block. -/
theorem step_part {k p : BlockKind} {depth : Nat} (h : k = p → depth ≠ 0) :
    k.step depth p.part = some depth := by
  by_cases hkp : k = p
  · subst hkp
    obtain ⟨outer, rfl⟩ := Nat.exists_eq_succ_of_ne_zero (h rfl)
    exact k.step_part_succ outer
  · cases k <;> cases p <;> first | exact absurd rfl hkp | rfl

/-- A part of a block leaves the depth of a splitter as it is, in both of its forms. -/
theorem depthAfter_partLines {k p : BlockKind} {depth : Nat} (hdepth : k = p → depth ≠ 0)
    {shares : Bool} {own keyword : Text} {body : List Text}
    (hown : Verb.ofStatement own = p.part)
    (hkeyword : ∀ s, Verb.ofStatement (keyword ++ ' ' :: s) = p.part) (hbody : k.Closed body)
    (hfirst : shares = true → ∀ first ∈ body.head?,
      k.step 0 (Verb.ofStatement first) = some 0) :
    k.depthAfter depth (partLines shares own keyword body) = some depth := by
  have hpart {line : Text} {more : List Text} (hv : Verb.ofStatement line = p.part)
      (hmore : k.Closed more) : k.depthAfter depth (line :: more) = some depth := by
    rw [BlockKind.depthAfter_cons, hv, step_part hdepth]
    exact hmore.depthAfter_eq depth
  rcases partLines_cases shares own keyword body with
    ⟨first, more, hshares, rfl, hlines, -⟩ | ⟨hlines, -⟩
  · rw [hlines]
    exact hpart (hkeyword first)
      ((BlockKind.closed_cons_of_step (hfirst hshares first rfl)).1 hbody)
  · rw [hlines]
    exact hpart hown hbody

/-- No splitter of an enclosing block counts the first line of a part that shares a line. -/
theorem step_of_mayShare {enclosing : List BlockKind} {k : BlockKind} (hk : k ∈ enclosing)
    {body : List Tree} {first : Text} (hfirst : first ∈ (linesOf body).head?)
    (h : MayShare enclosing first) : k.step 0 (Verb.ofStatement first) = some 0 :=
  k.step_of_ne (h.opens_none k hk) (ofStatement_head_linesOf hfirst k).1
    (ofStatement_head_linesOf hfirst k).2 0

/-- A block is closed for every kind for which its inner lines are: its own at depth one, the other
at depth zero. -/
theorem closed_of_inner {k p : BlockKind} {header close : Text} {inner : List Text}
    (hheader : Verb.ofStatement header = p.opener) (hclose : Verb.ofStatement close = p.closer)
    (hinner : ∀ depth, (k = p → depth ≠ 0) → k.depthAfter depth inner = some depth) :
    k.Closed (header :: (inner ++ [close])) := by
  by_cases hkp : k = p
  · subst hkp
    exact BlockKind.closed_block hheader (hinner 1 fun _ ↦ Nat.one_ne_zero) hclose
  · have hopens : k.step 0 p.opener = some 0 := by
      cases k <;> cases p <;> first | exact absurd rfl hkp | rfl
    have hcloses : k.step 0 p.closer = some 0 := by
      cases k <;> cases p <;> first | exact absurd rfl hkp | rfl
    refine (BlockKind.closed_cons_of_step (by rw [hheader, hopens])).2 ?_
    refine BlockKind.Closed.append (hinner 0 fun h ↦ absurd h hkp) ?_
    exact (BlockKind.closed_cons_of_step (by rw [hclose, hcloses])).2 BlockKind.Closed.nil

mutual

/-- A layout is closed for the kinds that enclose it. -/
theorem closed_layout {enclosing : List BlockKind} {k : BlockKind} (hk : k ∈ enclosing)
    (shares : Place → Bool) : ∀ t : Tree, t.Admissible enclosing shares → k.Closed (t.layout shares)
  | .line l, _ => by
    have hsimple := l.simple
    refine (BlockKind.closed_cons_of_step (k.step_of_ne ?_ ?_ ?_ 0)).2 BlockKind.Closed.nil
    all_goals
      intro hv
      rw [hv] at hsimple
      cases k <;> cases hsimple
  | .conditional header whenTrue alternative close, h => by
    have hk' := List.mem_cons_of_mem BlockKind.conditional hk
    refine closed_of_inner (p := .conditional) header.verb close.verb fun depth hdepth ↦ ?_
    rw [BlockKind.depthAfter_append, (closed_layoutOf hk' _ 0 whenTrue h.1).depthAfter_eq depth]
    exact depthAfter_alternativeLayout hk' shares hdepth alternative h.2
  | .choice header branches close, h => by
    have hk' := List.mem_cons_of_mem BlockKind.choice hk
    exact closed_of_inner (p := .choice) header.verb close.verb fun depth hdepth ↦
      depthAfter_branchLayout hk' shares hdepth 0 branches h

/-- **An admissible layout is closed** for the splitter of every kind of block around it. -/
theorem closed_layoutOf {enclosing : List BlockKind} {k : BlockKind} (hk : k ∈ enclosing)
    (shares : Place → Bool) (number : Nat) : ∀ trees : List Tree,
    AdmissibleOf enclosing shares number trees → k.Closed (layoutOf shares number trees)
  | [], _ => BlockKind.Closed.nil
  | t :: rest, h =>
    (closed_layout hk _ t h.1).append (closed_layoutOf hk shares (number + 1) rest h.2)

/-- The part from `ELSE` on leaves the depth as it is, unless it is at the level of the splitter
itself. -/
theorem depthAfter_alternativeLayout {enclosing : List BlockKind} {k : BlockKind}
    (hk : k ∈ enclosing) (shares : Place → Bool) {depth : Nat}
    (hdepth : k = .conditional → depth ≠ 0) : ∀ alternative : Option (ElseLine × List Tree),
    AdmissibleAlternative enclosing shares alternative →
      k.depthAfter depth (alternativeLayout shares alternative) = some depth
  | none, _ => rfl
  | some (keyword, body), h => by
    refine depthAfter_partLines hdepth keyword.verb ofStatement_elseKeyword
      (closed_layoutOf hk _ 0 body h.1) fun hshares first hfirst ↦ ?_
    rw [head?_layoutOf] at hfirst
    exact step_of_mayShare hk hfirst (h.2 hshares first hfirst)

/-- Branches leave the depth as it is, unless they are at the level of the splitter itself. -/
theorem depthAfter_branchLayout {enclosing : List BlockKind} {k : BlockKind}
    (hk : k ∈ enclosing) (shares : Place → Bool) {depth : Nat}
    (hdepth : k = .choice → depth ≠ 0) (number : Nat) :
    ∀ branches : List (WhenLine × List Tree),
    AdmissibleBranches enclosing shares number branches →
      k.depthAfter depth (branchLayout shares number branches) = some depth
  | [], _ => rfl
  | (keyword, body) :: rest, h => by
    have hpart : k.depthAfter depth (partLines (shares [number]) keyword.text
        (whenKeyword keyword) (layoutOf (fun p ↦ shares (number :: p)) 0 body)) = some depth := by
      refine depthAfter_partLines hdepth keyword.verb (ofStatement_whenKeyword keyword)
        (closed_layoutOf hk _ 0 body h.1) fun hshares first hfirst ↦ ?_
      rw [head?_layoutOf] at hfirst
      exact step_of_mayShare hk hfirst (h.2.1 hshares first hfirst).2
    rw [branchLayout, BlockKind.depthAfter_append, hpart]
    exact depthAfter_branchLayout hk shares hdepth (number + 1) rest h.2.2

end

/-! ### What the splitters find -/

/-- The lines that an `IF` block takes from `ELSE` on. -/
def heldAlternative (shares : Place → Bool) : Option (ElseLine × List Tree) → List Text
  | none => []
  | some (_, body) => heldLines (shares [1]) (layoutOf (fun p ↦ shares (1 :: p)) 0 body)

/-- The branches that an `EVALUATE` block takes. -/
def heldBranches (shares : Place → Bool) (number : Nat) :
    List (WhenLine × List Tree) → List Branch
  | [] => []
  | (keyword, body) :: rest =>
    ⟨keyword.value, heldLines (shares [number]) (layoutOf (fun p ↦ shares (number :: p)) 0 body)⟩ ::
      heldBranches shares (number + 1) rest

/-- The parts of an `IF` block are those of the tree. -/
theorem split_conditional {enclosing : List BlockKind} (henclosing : .conditional ∈ enclosing)
    {shares : Place → Bool} {whenTrue : List Tree} {alternative : Option (ElseLine × List Tree)}
    (htrue : AdmissibleOf enclosing (fun p ↦ shares (0 :: p)) 0 whenTrue)
    (hfalse : AdmissibleAlternative enclosing shares alternative)
    (close : KeywordLine .endIf) (rest : List Text) :
    IfBlock.split (layoutOf (fun p ↦ shares (0 :: p)) 0 whenTrue ++
        alternativeLayout shares alternative ++ close.text :: rest) =
      { whenTrue := layoutOf (fun p ↦ shares (0 :: p)) 0 whenTrue
        whenFalse := heldAlternative shares alternative
        rest := rest } := by
  rw [IfBlock.split, List.append_assoc,
    IfBlock.splitFrom_append (closed_layoutOf henclosing _ 0 whenTrue htrue)]
  cases alternative with
  | none =>
    rw [alternativeLayout, List.nil_append, IfBlock.splitFrom_close close.verb]
    simp [IfBlock.push, heldAlternative]
  | some alternative =>
    obtain ⟨keyword, body⟩ := alternative
    have hbody := closed_layoutOf henclosing _ 0 body hfalse.1
    -- both forms of the part are an `ELSE` line in front of lines that the splitter passes over
    have hpart {line : Text} {more : List Text} (hv : Verb.ofStatement line = .otherwise)
        (hmore : BlockKind.conditional.Closed more) :
        IfBlock.splitFrom 0 false (line :: more ++ close.text :: rest) =
          { whenFalse := lineOf (arguments line) ++ more, rest := rest } := by
      rw [List.cons_append, IfBlock.splitFrom_part hv, IfBlock.splitFrom_append hmore,
        IfBlock.splitFrom_close close.verb]
      simp [IfBlock.push]
    rw [alternativeLayout, heldAlternative]
    rcases partLines_cases (shares [1]) keyword.text elseKeyword
        (layoutOf (fun p ↦ shares (1 :: p)) 0 body) with
      ⟨first, more, hshares, hlines, hpartLines, hheld⟩ | ⟨hpartLines, hheld⟩
    · have hfirst : first ∈ (linesOf body).head? := by
        rw [← head?_layoutOf (fun p ↦ shares (1 :: p)) 0, hlines]
        rfl
      rw [hlines, BlockKind.closed_cons_of_step
        (step_of_mayShare henclosing hfirst (hfalse.2 hshares first hfirst))] at hbody
      rw [hpartLines, hheld, hpart (ofStatement_elseKeyword first) hbody, arguments_elseKeyword]
      simp [IfBlock.push]
    · rw [hpartLines, hheld, hpart keyword.verb hbody, keyword.bare]
      simp [IfBlock.push, lineOf]

/-- The branches of an `EVALUATE` block are those of the tree. -/
theorem splitFrom_branchLayout {enclosing : List BlockKind} (henclosing : .choice ∈ enclosing)
    {shares : Place → Bool} (close : KeywordLine .endEvaluate) (rest : List Text) (number : Nat) :
    ∀ branches : List (WhenLine × List Tree),
    AdmissibleBranches enclosing shares number branches →
      EvaluateBlock.splitFrom 0 (branchLayout shares number branches ++ close.text :: rest) =
        { branches := heldBranches shares number branches, rest := rest }
  | [], _ => EvaluateBlock.splitFrom_close close.verb rest
  | (keyword, body) :: others, h => by
    have ih := splitFrom_branchLayout henclosing close rest (number + 1) others h.2.2
    have hbody := closed_layoutOf henclosing _ 0 body h.1
    -- both forms of the branch are a `WHEN` line in front of lines that the splitter passes over
    have hpart {line : Text} {more : List Text} (hv : Verb.ofStatement line = .when)
        (hmore : BlockKind.choice.Closed more) :
        EvaluateBlock.splitFrom 0
            (line :: more ++ branchLayout shares (number + 1) others ++ close.text :: rest) =
          EvaluateBlock.openBranch (firstOperand (arguments line))
            { leading := more, branches := heldBranches shares (number + 1) others,
              rest := rest } := by
      rw [List.append_assoc, List.cons_append, EvaluateBlock.splitFrom_part hv,
        EvaluateBlock.splitFrom_append hmore, ih]
      simp [EvaluateBlock.pushAll]
    rw [branchLayout, heldBranches]
    rcases partLines_cases (shares [number]) keyword.text (whenKeyword keyword)
        (layoutOf (fun p ↦ shares (number :: p)) 0 body) with
      ⟨first, more, hshares, hlines, hpartLines, hheld⟩ | ⟨hpartLines, hheld⟩
    · have hfirst : first ∈ (linesOf body).head? := by
        rw [← head?_layoutOf (fun p ↦ shares (number :: p)) 0, hlines]
        rfl
      obtain ⟨hprecede, hshare⟩ := h.2.1 hshares first hfirst
      rw [hlines, BlockKind.closed_cons_of_step
        (step_of_mayShare henclosing hfirst hshare)] at hbody
      obtain ⟨behind, hoperand, hbehind⟩ := firstOperand_whenKeyword hprecede
      rw [hpartLines, hheld, hpart (ofStatement_whenKeyword keyword first) hbody, hoperand]
      simp [EvaluateBlock.openBranch, hbehind]
    · rw [hpartLines, hheld, hpart keyword.verb hbody,
        show firstOperand (arguments keyword.text) = (keyword.value, []) from
          firstOperand_value keyword]
      rfl

/-- **The parts of a choice**: the splitter finds the branches of the tree, with what is left of a
shared line in front of each. -/
theorem split_choice {enclosing : List BlockKind} (henclosing : .choice ∈ enclosing)
    {shares : Place → Bool} {branches : List (WhenLine × List Tree)}
    (h : AdmissibleBranches enclosing shares 0 branches) (close : KeywordLine .endEvaluate)
    (rest : List Text) :
    EvaluateBlock.split (branchLayout shares 0 branches ++ close.text :: rest) =
      { branches := heldBranches shares 0 branches, rest := rest } :=
  splitFrom_branchLayout henclosing close rest 0 branches h

end Cobol.Tree
