import Cobol.Proofs.Allowance
import Cobol.Proofs.Arithmetic
import Cobol.Proofs.Comparison
import Cobol.Session

/-!
# A choice between integers is a chain of conditions

`EVALUATE` on a name that holds an integer runs the body of the first branch with that integer. The
same branches as a chain of `IF` blocks, each in the `ELSE` of the one before, run the same body
(`evaluate_chain`). The two get there by different ways: the subject of `EVALUATE` is an expression
that is evaluated once, and each `IF` reads the name as an operand. But nothing is written before a
body runs, so the integer is the same for all of them.

What the two do not share is the room they take. All bodies of an `EVALUATE` are one block deep, the
`n`-th body of a chain is `n` deep (`Cases.depth`). With an allowance that is larger by the
difference the outcomes are equal, whatever they are. A chain that is longer than the allowance ends
in its fault where `EVALUATE` does not (`chain_ne_evaluate_of_long`).

## Shape decisions

* Both sides are compared with what is chosen (`Cases.chosen`), by the same recursion on the cases.
* The allowance is compared where the body starts. So a statement about all outcomes needs no
  hypothesis that an execution ends, and none that it stays within its allowance.
* A body may be any closed lines. That the lines of the chain are closed in turn is what lets one
  link stand in the `ELSE` part of the link before (`Cases.Level.chainLines`).
-/

namespace Cobol

open Text Expression

/-! ### Integers as operands of block lines -/

/-- A text without blanks and quotes is one operand. -/
theorem firstOperand_of_forall_not {t : Text} (hblank : ∀ c ∈ t, isBlank c = false)
    (hquote : ∀ c ∈ t.head?, isQuote c = false) : firstOperand t = (t, []) := by
  have htake : t.takeWhile (fun c ↦ !isBlank c) = t :=
    List.takeWhile_eq_self_iff.2 fun c hc ↦ by rw [hblank c hc]; rfl
  have hdrop : t.dropWhile (fun c ↦ !isBlank c) = [] :=
    List.dropWhile_eq_nil_iff.2 fun c hc ↦ by rw [hblank c hc]; rfl
  cases t with
  | nil => rfl
  | cons q rest =>
    have hq : ¬isQuote q = true := by
      rw [hquote q rfl]
      exact Bool.false_ne_true
    simp only [firstOperand, if_neg hq, htake, hdrop]

namespace Amount

variable (n : Amount)

/-- There is no quote in an amount, so the text of an equation is cut where it is written. -/
theorem isQuote_of_mem_written : ∀ c ∈ n.written, isQuote c = false := by
  intro c hc
  rw [← Bool.not_eq_true]
  intro hquote
  have hcases : c = '\'' ∨ c = '"' := by simpa [isQuote] using hquote
  rcases List.mem_append.1 hc with hsign | hdigits
  · have hminus : c = '-' := by
      rw [sign] at hsign
      split at hsign
      · exact List.mem_singleton.1 hsign
      · cases hsign
    rcases hcases with rfl | rfl <;> cases hminus
  · have hdecimal := n.decimal c hdigits
    rcases hcases with rfl | rfl <;> cases hdecimal

/-- The last character of an amount is not the end of a sentence. -/
theorem exists_getLast?_plain :
    ∃ c, n.written.getLast? = some c ∧ isBlank c = false ∧ c ≠ '.' := by
  obtain ⟨c, hlast, hc⟩ := n.exists_getLast?_written
  refine ⟨c, hlast, n.not_blank_written c (List.mem_of_getLast? hlast), ?_⟩
  rintro rfl
  cases hc

/-- An amount can be the value of a branch. -/
theorem isBranchValue_written : IsBranchValue n.written where
  toIsArgument := by
    obtain ⟨a, rest, ha⟩ := List.exists_cons_of_ne_nil n.written_ne_nil
    obtain ⟨b, hlast, hb, hdot⟩ := n.exists_getLast?_plain
    exact isArgument_of_ends (by rw [ha, List.head?_cons])
      (n.not_blank_written a (by rw [ha]; exact List.mem_cons_self)) hlast hb hdot
  firstOperand_eq := firstOperand_of_forall_not n.not_blank_written fun c hc ↦
    n.isQuote_of_mem_written c (List.mem_of_mem_head? hc)

/-- No amount is the word for every subject. -/
theorem isOther_written (lines : List Text) : (Branch.mk n.written lines).isOther = false := by
  obtain ⟨d, hlast, hd⟩ := n.exists_getLast?_written
  have hmem : d ∈ upper n.written := List.mem_flatMap.2 ⟨d, List.mem_of_getLast? hlast, by
    rw [upperChar_of_isDigit (isDigit_of_isDecimal hd)]
    exact List.mem_singleton_self d⟩
  rw [Branch.isOther, beq_eq_false_iff_ne]
  intro hother
  replace hmem : d ∈ "OTHER".toList := hother ▸ hmem
  have hletters : ∀ c ∈ "OTHER".toList, isDecimal c = false := by decide +kernel
  rw [hletters d hmem] at hd
  cases hd

/-- A branch of an amount is taken for its integer. -/
theorem selects_written (x : Int) (text : Text) (lines : List Text) :
    (Subject.mk (some x) text).selects ⟨n.written, lines⟩ = .ok (n.value == x) := by
  simp only [Subject.selects, n.isOther_written, Bool.false_eq_true, if_false,
    n.isLiteral_written, if_true, n.read_written]
  rfl

end Amount

/-! ### A name that holds an integer -/

/-- A name for which the store holds an integer that can be written. -/
structure HoldsInteger (store : Store) (name : Text) (x : Int) : Prop where
  /-- It is a name of an expression. -/
  isName : IsName name []
  /-- The slot holds the integer. -/
  slot : store.values.get? (Store.key name) = some (.number x)
  /-- The integer does not have too many digits. -/
  short : x.natAbs < Nat.pow 10 digitLimit

namespace HoldsInteger

variable {store : Store} {name : Text} {x : Int} (h : HoldsInteger store name x)

include h

/-- A name that holds an integer has a slot. -/
theorem contains_eq : store.contains name = true :=
  Store.contains_of_get? h.slot

/-- The value of the name is the integer. -/
theorem get_eq : store.get name = .number x :=
  Store.get_of_get? h.slot

/-- A name that holds an integer can stand behind the keyword of a header. -/
theorem isArgument : IsArgument name := by
  obtain ⟨c, more, hname, -⟩ := h.isName.chars
  obtain ⟨b, hlast⟩ := Option.isSome_iff_exists.1 (List.getLast?_isSome.2 h.isName.ne_nil)
  have hmem : b ∈ name := List.mem_of_getLast? hlast
  have hdot : b ≠ '.' := by
    rintro rfl
    have hchar := h.isName.isNameChar '.' hmem
    revert hchar
    decide
  exact isArgument_of_ends (congrArg List.head? hname)
    (h.isName.not_blank c (hname ▸ List.mem_cons_self)) hlast (h.isName.not_blank b hmem) hdot

/-- As an expression the name is worth the integer, with any allowance at all. -/
theorem evaluate_eq (allowance : Nat) :
    evaluate store (allowance + 1) name = .ok (.ok x) :=
  evaluate_name h.isName (by rw [h.get_eq]; rfl) allowance

/-- A name of an expression starts with a letter, and no letter is a quote. -/
theorem isQuoted_eq : isQuoted name = false := by
  obtain ⟨c, more, rfl, hletter, -⟩ := h.isName.chars
  have hquote : isQuote c = false := by
    rw [← Bool.not_eq_true]
    intro hquote
    have hcases : c = '\'' ∨ c = '"' := by simpa [isQuote] using hquote
    rcases hcases with rfl | rfl <;> exact absurd hletter (by decide)
  cases more with
  | nil => rfl
  | cons d rest => rw [isQuoted, hquote, Bool.false_and]

/-- As a subject the name is the integer. -/
theorem ofText_eq (allowance : Nat) :
    Subject.ofText store (allowance + 1) name = .ok (⟨some x, Numeral.decimal x⟩, none) := by
  have hwrite : Numeral.write x = .ok (Numeral.decimal x) := if_pos h.short
  rw [Subject.ofText, h.isQuoted_eq, if_neg Bool.false_ne_true, h.contains_eq, h.get_eq]
  dsimp only [bind, Except.bind]
  rw [h.evaluate_eq]
  dsimp only
  rw [hwrite]
  rfl

/-- Without an allowance no name is evaluated. -/
theorem ofText_zero : Subject.ofText store 0 name = .error .nesting := by
  rw [Subject.ofText, h.isQuoted_eq, if_neg Bool.false_ne_true, h.contains_eq, h.get_eq]
  rfl

end HoldsInteger

/-- The condition that a name equals an integer. -/
def equation (name : Text) (n : Amount) : Text :=
  name ++ ' ' :: ("=".toList ++ ' ' :: n.written)

section

variable {store : Store} {name : Text} {x : Int} (h : HoldsInteger store name x) (n : Amount)

include h

/-- The equation of such a name with an amount can stand behind the keyword of a header. -/
theorem HoldsInteger.isArgument_equation : IsArgument (equation name n) := by
  obtain ⟨c, more, rfl, -⟩ := h.isName.chars
  obtain ⟨b, hlast, hb, hdot⟩ := n.exists_getLast?_plain
  have hlast' : (equation (c :: more) n).getLast? = some b := by
    rw [equation, List.getLast?_append, List.getLast?_cons, List.getLast?_append,
      List.getLast?_cons, hlast]
    rfl
  exact isArgument_of_ends rfl (h.isName.not_blank c List.mem_cons_self) hlast' hb hdot

/-- As an operand of a condition the name is the integer. -/
theorem HoldsInteger.holds_equation (hfree : store.contains n.written = false) :
    Condition.holds store (equation name n) = .ok (n.value == x) := by
  have hcompares : Condition.Compares (equation name n) name .eq n.written :=
    ⟨[], (words_comparisonOf h.isName.ne_nil h.isName.not_blank .eq n.written).trans
      (by rw [words_of_forall_not n.written_ne_nil n.not_blank_written])⟩
  have hright : Condition.operand store n.written = .ok (.number n.value) := by
    rw [Condition.operand, hfree, if_neg Bool.false_ne_true, if_pos n.isLiteral_written,
      n.read_written]
    rfl
  have hleft : Condition.operand store name = .ok (.number x) := by
    rw [Condition.operand, if_pos h.contains_eq, h.get_eq]
  rw [Condition.holds_of_compares hcompares, Condition.order_of_operand hleft hright]
  refine congrArg Except.ok (Bool.eq_iff_iff.2 ?_)
  rw [beq_iff_eq, Comparison.holds_eq_iff, Int.compare_eq_eq]
  exact eq_comm

end

/-! ### The two ways to choose -/

/-- The bodies under their integers. -/
abbrev Cases := List (Amount × List Text)

namespace Cases

/-- The body that is run for an integer: that of its first case, else the other one. -/
def chosen (x : Int) (other : List Text) : Cases → List Text
  | [] => other
  | (n, body) :: rest => if n.value = x then body else chosen x other rest

/-- The number of `IF` blocks around the body that is run. -/
def depth (x : Int) : Cases → Nat
  | [] => 0
  | (n, _) :: rest => if n.value = x then 1 else depth x rest + 1

/-- The cases as branches. -/
def branches (other : List Text) (cases : Cases) : List Branch :=
  cases.map (fun c ↦ ⟨c.1.written, c.2⟩) ++ [⟨"OTHER".toList, other⟩]

/-- The cases as a chain of `IF` blocks, each in the `ELSE` of the one before. -/
def chainLines (name : Text) (other : List Text) : Cases → List Text
  | [] => other
  | (n, body) :: rest => ifLines (equation name n) body (chainLines name other rest)

/-- Every body is level. -/
def Level (cases : Cases) : Prop :=
  ∀ c ∈ cases, IsLevel c.2

instance : DecidablePred Level := fun cases ↦
  inferInstanceAs (Decidable (∀ c ∈ cases, IsLevel c.2))

variable {cases : Cases} {other : List Text} {name : Text} {x : Int}

/-- The values of the branches can all be written on lines of their own. -/
theorem isBranchValue_branches : ∀ b ∈ branches other cases, IsBranchValue b.value := by
  intro b hb
  rcases List.mem_append.1 hb with hb | hb
  · obtain ⟨c, -, rfl⟩ := List.mem_map.1 hb
    exact c.1.isBranchValue_written
  · obtain rfl := List.mem_singleton.1 hb
    have hword : IsBranchValue "OTHER".toList := by decide +kernel
    exact hword

/-- The branches of `EVALUATE` are closed if the bodies are. -/
theorem Level.branches (hlevel : Level cases) (hother : IsLevel other) :
    ∀ b ∈ branches other cases, BlockKind.choice.Closed b.lines := by
  intro b hb
  rcases List.mem_append.1 hb with hb | hb
  · obtain ⟨c, hc, rfl⟩ := List.mem_map.1 hb
    exact hlevel c hc .choice
  · obtain rfl := List.mem_singleton.1 hb
    exact hother .choice

/-- The lines of a chain are closed for `IF` blocks if the bodies are: each link closes itself. -/
theorem Level.chainLines (hlevel : Level cases) (hother : IsLevel other) :
    BlockKind.conditional.Closed (chainLines name other cases) := by
  induction cases with
  | nil => exact hother .conditional
  | cons c rest ih =>
    obtain ⟨hbody, hrest⟩ := List.forall_mem_cons.1 hlevel
    exact closed_ifLines _ (hbody .conditional) (ih hrest)

/-- The first branch that is taken is that of the first case of the integer. -/
theorem select_branches (text : Text) :
    (Subject.mk (some x) text).select (branches other cases) =
      .ok (some (chosen x other cases)) := by
  induction cases with
  | nil =>
    have hword : (upper "OTHER".toList == "OTHER".toList) = true := by decide +kernel
    have hother : (Branch.mk "OTHER".toList other).isOther = true := hword
    show (Subject.selects _ ⟨"OTHER".toList, other⟩ >>= _) = _
    rw [Subject.selects, if_pos hother]
    rfl
  | cons c rest ih =>
    obtain ⟨n, body⟩ := c
    show (Subject.selects _ ⟨n.written, body⟩ >>= fun taken ↦
      if taken then pure (some body) else Subject.select _ (branches other rest)) = _
    rw [n.selects_written, chosen]
    by_cases hn : n.value = x
    · rw [if_pos hn, beq_iff_eq.2 hn]
      rfl
    · rw [if_neg hn, beq_eq_false_iff_ne.2 hn]
      exact ih

/-- No body of a chain is deeper than the chain is long. -/
theorem depth_le_length : depth x cases ≤ cases.length := by
  induction cases with
  | nil => exact Nat.le_refl 0
  | cons c rest ih =>
    rw [depth, List.length_cons]
    split <;> omega

/-- A chain that is not empty puts its bodies at least one block deep. -/
theorem depth_pos (hne : cases ≠ []) : 0 < depth x cases := by
  obtain ⟨c, rest, rfl⟩ := List.exists_cons_of_ne_nil hne
  rw [depth]
  split <;> omega

/-- Where every case is of another integer, the other body is run. -/
theorem chosen_of_forall_ne (h : ∀ c ∈ cases, c.1.value ≠ x) : chosen x other cases = other := by
  induction cases with
  | nil => rfl
  | cons c rest ih =>
    obtain ⟨hc, hrest⟩ := List.forall_mem_cons.1 h
    rw [chosen, if_neg hc, ih hrest]

/-- Then it stands behind all of them. -/
theorem depth_of_forall_ne (h : ∀ c ∈ cases, c.1.value ≠ x) : depth x cases = cases.length := by
  induction cases with
  | nil => rfl
  | cons c rest ih =>
    obtain ⟨hc, hrest⟩ := List.forall_mem_cons.1 h
    rw [depth, if_neg hc, ih hrest, List.length_cons]

end Cases

/-! ### What they do -/

section

variable {cases : Cases} {other : List Text} (hlevel : cases.Level) (hother : IsLevel other)
  {s : State} (hs : s.running = true) {name : Text}
  {x : Int} (h : HoldsInteger s.store name x) (m : Machine)

include hlevel hother hs h

/-- The choice runs its body one block deep. -/
theorem executeBlock_branches (allowance : Nat) (more : List Text) :
    executeBlock m (allowance + 1) (evaluateLines name (cases.branches other) ++ more) s =
      (executeBlock m allowance (cases.chosen x other) s).andThen
        (executeBlock m (allowance + 1) more) := by
  have hbranches := hlevel.branches hother
  cases allowance with
  | zero =>
    rw [executeBlock_evaluateLines m 0 more hs h.isArgument Cases.isBranchValue_branches hbranches,
      h.ofText_zero]
    rfl
  | succ allowance =>
    exact executeBlock_evaluateLines_of_select m _ more hs h.isArgument
      Cases.isBranchValue_branches hbranches (h.ofText_eq allowance) (Cases.select_branches _)

/-- The first case of a chain. -/
theorem executeBlock_chainLines_cons {n : Amount} (hfree : s.store.contains n.written = false)
    {body : List Text} (hbody : BlockKind.conditional.Closed body) (allowance : Nat)
    (more : List Text) :
    executeBlock m (allowance + 1) (Cases.chainLines name other ((n, body) :: cases) ++ more) s =
      (executeBlock m allowance
        (if n.value = x then body else cases.chainLines name other) s).andThen
          (executeBlock m (allowance + 1) more) := by
  have hchain : BlockKind.conditional.Closed (cases.chainLines name other) :=
    hlevel.chainLines hother
  rw [Cases.chainLines, executeBlock_ifLines m allowance more hs (h.isArgument_equation n) hbody
    hchain (h.holds_equation n hfree)]
  simp only [beq_iff_eq]

variable (hfree : ∀ c ∈ cases, s.store.contains c.1.written = false)

include hfree

/-- The chain alone runs its body as deep as it stands. -/
theorem executeBlock_chainLines (allowance : Nat) :
    executeBlock m (allowance + cases.depth x) (cases.chainLines name other) s =
      executeBlock m allowance (cases.chosen x other) s := by
  induction cases with
  | nil => rfl
  | cons c rest ih =>
    obtain ⟨n, body⟩ := c
    obtain ⟨hbody, hrest⟩ := List.forall_mem_cons.1 hlevel
    obtain ⟨hn, hfree⟩ := List.forall_mem_cons.1 hfree
    have hstep (k : Nat) :
        executeBlock m (k + 1) (Cases.chainLines name other ((n, body) :: rest)) s =
          executeBlock m k (if n.value = x then body else Cases.chainLines name other rest) s := by
      have hcons := executeBlock_chainLines_cons hrest hother hs h m hn (hbody .conditional) k []
      rwa [List.append_nil, executeBlock_nil, Outcome.andThen_done] at hcons
    by_cases hx : n.value = x
    · rw [Cases.depth, Cases.chosen, if_pos hx, if_pos hx, hstep, if_pos hx]
    · rw [Cases.depth, Cases.chosen, if_neg hx, if_neg hx, ← Nat.add_assoc, hstep, if_neg hx,
        ih hrest hfree]

/-- The chain in front of other lines. -/
theorem executeBlock_chainLines_append (hne : cases ≠ []) (allowance : Nat) (more : List Text) :
    executeBlock m (allowance + cases.depth x) (cases.chainLines name other ++ more) s =
      (executeBlock m allowance (cases.chosen x other) s).andThen
        (executeBlock m (allowance + cases.depth x) more) := by
  obtain ⟨⟨n, body⟩, rest, rfl⟩ := List.exists_cons_of_ne_nil hne
  obtain ⟨hbody, hrest⟩ := List.forall_mem_cons.1 hlevel
  obtain ⟨hn, hfree⟩ := List.forall_mem_cons.1 hfree
  have hcons (k : Nat) :=
    executeBlock_chainLines_cons hrest hother hs h m hn (hbody .conditional) k more
  by_cases hx : n.value = x
  · rw [Cases.depth, Cases.chosen, if_pos hx, if_pos hx, hcons, if_pos hx]
  · rw [Cases.depth, Cases.chosen, if_neg hx, if_neg hx, ← Nat.add_assoc, hcons, if_neg hx,
      executeBlock_chainLines hrest hother hs h m hfree]

/-- A chain whose body stands deeper than the allowance runs out of it. -/
theorem not_fits_chainLines (hne : cases ≠ []) {allowance : Nat} (hlong : allowance < cases.depth x)
    (more : List Text) :
    ¬(executeBlock m allowance (cases.chainLines name other ++ more) s).Fits := by
  intro hfits
  obtain ⟨k, hk⟩ := Nat.exists_eq_add_of_le (Nat.le_of_lt hlong)
  have hwider := widens_executeBlock m allowance k (cases.chainLines name other ++ more) s hfits
  have hchain := executeBlock_chainLines_append hlevel hother hs h m hfree hne 0 more
  rw [Nat.zero_add, hk, hwider, executeBlock] at hchain
  rw [hchain] at hfits
  exact s.not_fits_fail_nesting hfits.of_andThen

end

/-- A stopped run does as little in any block. -/
theorem executeBlock_eq_of_stopped (m : Machine) {a b : Nat} (ha : 0 < a) (hb : 0 < b)
    (lines others : List Text) {s : State} (hs : s.running = false) :
    executeBlock m a lines s = executeBlock m b others s := by
  obtain ⟨a, rfl⟩ := Nat.exists_eq_add_of_lt ha
  obtain ⟨b, rfl⟩ := Nat.exists_eq_add_of_lt hb
  rw [executeBlock_of_stopped _ _ _ hs, executeBlock_of_stopped _ _ _ hs]

/-- **A choice between integers is a chain of conditions.** With as much more allowance as its body
stands deeper, the chain ends as the choice does. In front of other lines, what the choice ends in
within its allowance the chain ends in with a level more for every case behind the first, and what
the chain ends in within its allowance the choice ends in with the same. -/
theorem evaluate_chain (m : Machine) {s : State} {name : Text} {x : Int}
    (h : HoldsInteger s.store name x) {cases : Cases} (hne : cases ≠ []) (hlevel : cases.Level)
    (hfree : ∀ c ∈ cases, s.store.contains c.1.written = false) {other : List Text}
    (hother : IsLevel other) (allowance : Nat) (more : List Text) :
    executeBlock m (allowance + cases.depth x) (cases.chainLines name other) s =
        executeBlock m (allowance + 1) (evaluateLines name (cases.branches other)) s ∧
      ((executeBlock m allowance (evaluateLines name (cases.branches other) ++ more) s).Fits →
        executeBlock m (allowance + (cases.length - 1)) (cases.chainLines name other ++ more) s =
          executeBlock m allowance (evaluateLines name (cases.branches other) ++ more) s) ∧
      ((executeBlock m allowance (cases.chainLines name other ++ more) s).Fits →
        executeBlock m allowance (evaluateLines name (cases.branches other) ++ more) s =
          executeBlock m allowance (cases.chainLines name other ++ more) s) := by
  have hpos : 0 < cases.depth x := Cases.depth_pos hne
  have hlength : cases.depth x ≤ cases.length := Cases.depth_le_length
  -- what fits has an allowance
  have hroom {lines : List Text} (hfits : (executeBlock m allowance lines s).Fits) :
      0 < allowance := by
    refine Nat.pos_of_ne_zero fun hzero ↦ ?_
    rw [hzero] at hfits
    exact s.not_fits_fail_nesting hfits
  cases hs : s.running with
  | false =>
    exact ⟨executeBlock_eq_of_stopped m (by omega) (by omega) _ _ hs,
      fun hfits ↦ executeBlock_eq_of_stopped m (by have := hroom hfits; omega) (hroom hfits) _ _ hs,
      fun hfits ↦ executeBlock_eq_of_stopped m (hroom hfits) (hroom hfits) _ _ hs⟩
  | true =>
    have hchoice := executeBlock_branches hlevel hother hs h m
    have hchain := executeBlock_chainLines_append hlevel hother hs h m hfree hne
    refine ⟨?_, fun hfits ↦ ?_, fun hfits ↦ ?_⟩
    · have halone := hchoice allowance []
      rw [List.append_nil, executeBlock_nil, Outcome.andThen_done] at halone
      rw [halone, executeBlock_chainLines hlevel hother hs h m hfree]
    · obtain ⟨k, rfl⟩ := Nat.exists_eq_add_of_lt (hroom hfits)
      have hallowance : 0 + k + 1 + (cases.length - 1) =
          k + (cases.length - cases.depth x) + cases.depth x := by omega
      rw [hchoice] at hfits ⊢
      rw [hallowance, hchain]
      exact executeBlock_andThen_of_fits m (by omega) (by omega) hfits
    · by_cases hlong : allowance < cases.depth x
      · exact absurd hfits (not_fits_chainLines hlevel hother hs h m hfree hne hlong more)
      · obtain ⟨k, rfl⟩ := Nat.exists_eq_add_of_le' (Nat.le_of_not_lt hlong)
        have hallowance : k + cases.depth x = k + (cases.depth x - 1) + 1 := by omega
        have hwider := hchoice (k + (cases.depth x - 1)) more
        rw [← hallowance] at hwider
        rw [hchain] at hfits ⊢
        rw [hwider]
        exact executeBlock_andThen_of_fits m (by omega) (by omega) hfits

/-- Two spellings of one integer. -/
def repeatedCases : Cases :=
  [(⟨false, ['0', '1'], by decide, by decide, by decide⟩, ["MOVE 2 TO X.".toList]),
    (⟨false, ['1'], by decide, by decide, by decide⟩, ["DISPLAY 'AGAIN'.".toList]),
    (⟨false, ['2'], by decide, by decide, by decide⟩, ["DISPLAY 'TWO'.".toList])]

/-- A state in which a name holds an integer. -/
def holding (x : Int) : State where
  store := { values := ⟨[("X".toList, .number x)]⟩ }

theorem lt_pow_ten (n : Nat) : n < Nat.pow 10 n :=
  Nat.lt_pow_self (by decide)

/-- The slot of the example holds its integer. -/
theorem holdsInteger_holding {x : Int} (h : x.natAbs ≤ digitLimit) :
    HoldsInteger (holding x).store "X".toList x where
  isName := ⟨⟨'X', [], rfl, by decide, nofun⟩, nofun⟩
  slot := rfl
  short := Nat.lt_of_le_of_lt h (lt_pow_ten digitLimit)

/-- The body of the first of two cases of one integer changes the name to that of the third. -/
theorem evaluate_chain_repeated :
    HoldsInteger (holding 1).store "X".toList 1 ∧ repeatedCases.Level ∧
      (executeBlock ⟨{}, 1⟩ 9 (repeatedCases.chainLines "X".toList ["DISPLAY 'NO'.".toList])
        (holding 1)).state.store.get "X".toList = .number 2 ∧
      executeBlock ⟨{}, 1⟩ (8 + repeatedCases.depth 1)
          (repeatedCases.chainLines "X".toList ["DISPLAY 'NO'.".toList]) (holding 1) =
        executeBlock ⟨{}, 1⟩ (8 + 1)
          (evaluateLines "X".toList (repeatedCases.branches ["DISPLAY 'NO'.".toList]))
          (holding 1) := by
  have hholds : HoldsInteger (holding 1).store "X".toList 1 := holdsInteger_holding (by decide)
  have hlevel : repeatedCases.Level := by decide +kernel
  have hother : IsLevel ["DISPLAY 'NO'.".toList] := by decide +kernel
  exact ⟨hholds, hlevel, by decide +kernel,
    (evaluate_chain ⟨{}, 1⟩ hholds (by decide) hlevel (by decide +kernel) hother 8 []).1⟩

/-- A case of the integer one. -/
def oneCase : Amount × List Text :=
  (⟨false, ['1'], by decide, by decide, by decide⟩, ["DISPLAY 'ONE'.".toList])

/-- More cases than blocks may nest. -/
def longCases : Cases :=
  List.replicate 700 oneCase

/-- **A long choice is no chain within the limits**: the choice displays the other text and
ends without a fault, and the chain ends in the fault of the allowance before it comes to it. -/
theorem chain_ne_evaluate_of_long :
    HoldsInteger (holding 0).store "X".toList 0 ∧ longCases.Level ∧
      (∀ c ∈ longCases, (holding 0).store.contains c.1.written = false) ∧
      (executeBlock ⟨{}, 1⟩ ({} : Limits).allowance
        (evaluateLines "X".toList (longCases.branches ["DISPLAY 'OTHER'.".toList]))
        (holding 0)).state.output = #["OTHER".toList] ∧
      (executeBlock ⟨{}, 1⟩ ({} : Limits).allowance
        (evaluateLines "X".toList (longCases.branches ["DISPLAY 'OTHER'.".toList]))
        (holding 0)).fault = none ∧
      (executeBlock ⟨{}, 1⟩ ({} : Limits).allowance
        (longCases.chainLines "X".toList ["DISPLAY 'OTHER'.".toList]) (holding 0)).fault =
          some .nesting := by
  have hholds : HoldsInteger (holding 0).store "X".toList 0 := holdsInteger_holding (by decide)
  have heach {P : Amount × List Text → Prop} (h : P oneCase) : ∀ c ∈ longCases, P c :=
    fun c hc ↦ List.eq_of_mem_replicate hc ▸ h
  have hfree : ∀ c ∈ longCases, (holding 0).store.contains c.1.written = false :=
    heach (by decide +kernel)
  have hlevel : longCases.Level := heach (P := fun c ↦ IsLevel c.2) (by decide +kernel)
  have hother : IsLevel ["DISPLAY 'OTHER'.".toList] := by decide +kernel
  have hvalue : ∀ c ∈ longCases, c.1.value ≠ 0 := heach (by decide +kernel)
  have hchosen : longCases.chosen 0 ["DISPLAY 'OTHER'.".toList] = ["DISPLAY 'OTHER'.".toList] :=
    Cases.chosen_of_forall_ne hvalue
  have hdepth : longCases.depth 0 = longCases.length := Cases.depth_of_forall_ne hvalue
  have hlength : longCases.length = 699 + 1 := List.length_replicate
  have hne : longCases ≠ [] := List.ne_nil_of_length_eq_add_one hlength
  have hlong : 329 + 1 < longCases.depth 0 := by
    rw [hdepth, hlength]
    decide
  have hlimit : ({} : Limits).allowance = 329 + 1 := rfl
  -- the general theorems decide both runs: nothing of the long chain is executed here
  have hchoice := executeBlock_branches hlevel hother rfl hholds ⟨{}, 1⟩ 329 []
  have hchain := not_fits_chainLines hlevel hother rfl hholds ⟨{}, 1⟩ hfree hne hlong []
  rw [List.append_nil, executeBlock_nil, Outcome.andThen_done, hchosen] at hchoice
  rw [List.append_nil] at hchain
  refine ⟨hholds, hlevel, hfree, ?_, ?_, Decidable.not_not.1 hchain⟩
  · rw [hlimit, hchoice]
    decide +kernel
  · rw [hlimit, hchoice]
    decide +kernel

end Cobol
