import Mathlib.Data.List.Forall2
import Cobol.Proofs.Block.Nesting
import Cobol.Proofs.Statement
import Cobol.Proofs.Store
import Cobol.Proofs.Trace

/-!
# Where statements come from

A program is never taken apart before it runs: the parts of a block are cut from the lines behind
its header when the header is met, and a statement on the line of `ELSE` or `WHEN` becomes a line of
its own only then. Still nothing is executed that is not written in the program.

* `PartOf line t` says that `t` is the line, or what repeated cutting leaves of it.
* `IfBlock.cutFrom_splitFrom`, `EvaluateBlock.cutFrom_splitFrom`: the parts of a block are cut from
  its lines, in their order (`CutFrom`). This is all that is used of the two splitters here.
* `exists_partOf_of_mem_moments`: every statement that is executed in a run, at any depth, is a part
  of a line of the block or of a paragraph.

## Shape decisions

* A part is what cutting leaves, in the same ways in which the executor cuts: the arguments of a
  line, what stands behind its first operand, and the line without the blanks around it.
* What is executed is judged by a predicate on statements. For parts of lines it is closed under the
  cuts, so a run is one induction and the splitters are looked at once each.
-/

namespace Cobol

open Text Sentence

/-! ### Parts of a line -/

/-- What is left of a line for the statement behind its `ELSE` or `WHEN`, cut any number of times.
-/
inductive PartOf (line : Text) : Text → Prop
  /-- The line itself. -/
  | whole : PartOf line line
  /-- What stands behind `ELSE`. -/
  | otherwise {t : Text} (h : PartOf line t) : PartOf line (arguments t)
  /-- What stands behind `WHEN` and its value. -/
  | when {t : Text} (h : PartOf line t) : PartOf line (trim (firstOperand (arguments t)).2)

namespace PartOf

/-- A part of a part is a part. -/
theorem trans {line t u : Text} (ht : PartOf line t) (hu : PartOf t u) : PartOf line u := by
  induction hu with
  | whole => exact ht
  | otherwise _ ih => exact ih.otherwise
  | when _ ih => exact ih.when

end PartOf

/-- The arguments of a statement are cut out of it. -/
theorem arguments_isInfix (t : Text) : arguments t <:+: t := by
  have hperiod : dropPeriod t <+: t := dropPeriod_prefix t
  have hword : afterWord (dropPeriod t) <:+: dropPeriod t :=
    (trim_isInfix _).trans ((List.dropWhile_suffix _).trans (List.dropWhile_suffix _)).isInfix
  exact hword.trans hperiod.isInfix

/-- What stands behind the first operand is the end of the text. -/
theorem firstOperand_rest_suffix (t : Text) : (firstOperand t).2 <:+ t :=
  ⟨(firstOperand t).1, firstOperand_append t⟩

/-- A part of a line stands in it. -/
theorem PartOf.isInfix {line t : Text} (h : PartOf line t) : t <:+: line := by
  induction h with
  | whole => exact List.infix_refl line
  | @otherwise t _ ih => exact (arguments_isInfix t).trans ih
  | @when t _ ih =>
    exact ((trim_isInfix _).trans (firstOperand_rest_suffix _).isInfix).trans
      ((arguments_isInfix t).trans ih)

/-! ### Parts of a block -/

/-- The lines are cut from the others, in their order: each of them is a part of one. -/
abbrev CutFrom (xs lines : List Text) : Prop :=
  List.SublistForall₂ (fun t line ↦ PartOf line t) xs lines

/-- Every line that is cut from others is a part of one of them. -/
theorem CutFrom.exists_mem {xs lines : List Text} (h : CutFrom xs lines) :
    ∀ t ∈ xs, ∃ line ∈ lines, PartOf line t := by
  induction h with
  | nil => exact nofun
  | @cons t line xs lines ht _ ih =>
    refine List.forall_mem_cons.2 ⟨⟨line, List.mem_cons_self, ht⟩, fun u hu ↦ ?_⟩
    obtain ⟨other, hother, hpart⟩ := ih u hu
    exact ⟨other, List.mem_cons_of_mem line hother, hpart⟩
  | @cons_right line xs lines _ ih =>
    intro t ht
    obtain ⟨other, hother, hpart⟩ := ih t ht
    exact ⟨other, List.mem_cons_of_mem line hother, hpart⟩

/-- Lines are cut from themselves. -/
theorem CutFrom.refl (lines : List Text) : CutFrom lines lines := by
  induction lines with
  | nil => exact .nil
  | cons line rest ih => exact .cons .whole ih

/-- Lines behind each other are cut from lines behind each other. -/
theorem CutFrom.append {xs ys lines more : List Text} (hxs : CutFrom xs lines)
    (hys : CutFrom ys more) : CutFrom (xs ++ ys) (lines ++ more) := by
  induction hxs with
  | @nil lines =>
    induction lines with
    | nil => exact hys
    | cons line rest ih => exact .cons_right ih
  | cons ht _ ih => exact .cons ht ih
  | cons_right _ ih => exact .cons_right ih

/-- A part of a line is a line unless it is empty. -/
theorem CutFrom.lineOf {line t : Text} (ht : PartOf line t) : CutFrom (lineOf t) [line] := by
  rw [Cobol.lineOf]
  split
  · exact .nil
  · exact .cons ht .nil

namespace IfBlock

/-- Both parts of an `IF` block are cut from its lines, and what is left stands behind them. -/
structure IsCutFrom (b : IfBlock) (lines : List Text) : Prop where
  /-- The lines before `ELSE`. -/
  whenTrue : CutFrom b.whenTrue lines
  /-- The lines behind `ELSE`. -/
  whenFalse : CutFrom b.whenFalse lines
  /-- The lines behind the block. -/
  rest : b.rest <:+ lines

/-- A block to a part of which something cut from a line is pushed is cut from that line too. -/
theorem IsCutFrom.push {b : IfBlock} {lines : List Text} (h : b.IsCutFrom lines) (inElse : Bool)
    {line : Text} {xs : List Text} (hxs : CutFrom xs [line]) :
    (b.push inElse xs).IsCutFrom (line :: lines) := by
  have hrest : b.rest <:+ line :: lines := h.rest.trans (List.suffix_cons line lines)
  cases inElse with
  | true => exact ⟨.cons_right h.whenTrue, hxs.append h.whenFalse, hrest⟩
  | false => exact ⟨hxs.append h.whenTrue, .cons_right h.whenFalse, hrest⟩

/-- **The parts of an `IF` block are cut from its lines**, in their order. The second part begins
with what stands behind `ELSE` on its line. -/
theorem cutFrom_splitFrom (depth : Nat) (inElse : Bool) (lines : List Text) :
    (splitFrom depth inElse lines).IsCutFrom lines := by
  induction lines generalizing depth inElse with
  | nil => exact ⟨.nil, .nil, List.suffix_refl []⟩
  | cons line rest ih =>
    rcases hstep : BlockKind.conditional.step depth (Verb.ofStatement line) with _ | after
    · obtain ⟨rfl, hcloser | hpart⟩ := BlockKind.step_eq_none hstep
      · rw [splitFrom_close hcloser]
        exact ⟨.nil, .nil, List.suffix_cons line rest⟩
      · rw [splitFrom_part hpart]
        exact (ih 0 true).push true (.lineOf PartOf.whole.otherwise)
    · rw [splitFrom_cons hstep]
      exact (ih after inElse).push inElse (.refl [line])

end IfBlock

namespace EvaluateBlock

/-- Every part of an `EVALUATE` block is cut from its lines, and what is left stands behind them. -/
structure IsCutFrom (b : EvaluateBlock) (lines : List Text) : Prop where
  /-- The lines before the first `WHEN`. -/
  leading : CutFrom b.leading lines
  /-- The lines of the branches. -/
  branches : ∀ branch ∈ b.branches, CutFrom branch.lines lines
  /-- The lines behind the block. -/
  rest : b.rest <:+ lines

/-- **The branches of an `EVALUATE` block are cut from its lines**, in their order. -/
theorem cutFrom_splitFrom (depth : Nat) (lines : List Text) :
    (splitFrom depth lines).IsCutFrom lines := by
  induction lines generalizing depth with
  | nil => exact ⟨.nil, nofun, List.suffix_refl []⟩
  | cons line rest ih =>
    rcases hstep : BlockKind.choice.step depth (Verb.ofStatement line) with _ | after
    · obtain ⟨rfl, hcloser | hpart⟩ := BlockKind.step_eq_none hstep
      · rw [splitFrom_close hcloser]
        exact ⟨.nil, nofun, List.suffix_cons line rest⟩
      · rw [splitFrom_part hpart]
        obtain ⟨hleading, hbranches, hrest⟩ := ih 0
        have hfirst : CutFrom (lineOf (trim (firstOperand (arguments line)).2) ++
            (splitFrom 0 rest).leading) ([line] ++ rest) :=
          (CutFrom.lineOf PartOf.whole.when).append hleading
        exact ⟨.nil, List.forall_mem_cons.2 ⟨hfirst, fun b hb ↦ .cons_right (hbranches b hb)⟩,
          hrest.trans (List.suffix_cons line rest)⟩
    · rw [splitFrom_cons hstep]
      obtain ⟨hleading, hbranches, hrest⟩ := ih after
      exact ⟨.cons .whole hleading, fun b hb ↦ .cons_right (hbranches b hb),
        hrest.trans (List.suffix_cons line rest)⟩

end EvaluateBlock

/-- What a statement leaves unread is the end of the lines behind it. -/
theorem unread_suffix (line : Text) (following : List Text) :
    unread line following <:+ following := by
  unfold unread
  split
  · exact (IfBlock.cutFrom_splitFrom 0 false following).rest
  · exact (EvaluateBlock.cutFrom_splitFrom 0 following).rest
  · exact List.suffix_refl following

/-- The lines that a choice runs are those of one of its branches. -/
theorem Subject.exists_branch_of_select {subject : Subject} {branches : List Branch}
    {lines : List Text} (h : subject.select branches = .ok (some lines)) :
    ∃ b ∈ branches, b.lines = lines := by
  induction branches with
  | nil => cases h
  | cons b rest ih =>
    rw [select] at h
    obtain ⟨taken, -, h⟩ := Except.bind_eq_ok_iff.1 h
    cases taken with
    | true =>
      cases h
      exact ⟨b, List.mem_cons_self, rfl⟩
    | false =>
      obtain ⟨c, hc, hlines⟩ := ih h
      exact ⟨c, List.mem_cons_of_mem b hc, hlines⟩

/-! ### Statements of a run -/

/-- What is found in a table is one of its entries. -/
theorem Table.mem_entries_of_get? {α : Type} {t : Table α} {name : Text} {entry : α}
    (h : t.get? name = some entry) : (name, entry) ∈ t.entries := by
  obtain ⟨before, after, hsplit, -⟩ := List.lookup_eq_some_iff.1 h
  rw [hsplit]
  exact List.mem_append_right before List.mem_cons_self

/-- The line stands in the block or in the body of a paragraph. -/
def MachineOf.HasLine (m : Machine) (lines : List Text) (line : Text) : Prop :=
  line ∈ lines ∨ ∃ label body, m.paragraphs.get? label = some body ∧ line ∈ body

/-- What holds of the lines of a block and of the listed bodies holds of every line that is there.
-/
theorem MachineOf.HasLine.forall {m : Machine} {lines : List Text} {line : Text}
    (h : m.HasLine lines line) {P : Text → Prop} (hlines : ∀ l ∈ lines, P l)
    (hbodies : ∀ e ∈ m.paragraphs.entries, ∀ l ∈ e.2, P l) : P line := by
  rcases h with h | ⟨label, body, hbody, h⟩
  · exact hlines line h
  · exact hbodies (label, body) (Table.mem_entries_of_get? hbody) line h

/-- Every statement that was executed has the property. -/
def Traced.Executes (Q : Text → Prop) (x : Traced) : Prop :=
  ∀ moment ∈ x.moments, ∀ text, moment.deed = .statement text → Q text

namespace Traced.Executes

variable {Q : Text → Prop} {m : Machine} {allowance : Nat}

/-- No moments execute nothing. -/
theorem nil {o : Outcome} : Executes Q { outcome := o } := nofun

/-- Traces behind each other execute what the two execute. -/
theorem andThen {x : Traced} {next : State → Traced} (hx : x.Executes Q)
    (hnext : ∀ s, (next s).Executes Q) : (x.andThen next).Executes Q := by
  unfold Traced.andThen
  split
  · intro moment hmoment
    rcases List.mem_append.1 hmoment with hmoment | hmoment
    · exact hx moment hmoment
    · exact hnext _ moment hmoment
  · exact hx

/-- One moment executes its own statement. -/
theorem single {moment : Moment} (h : ∀ text, moment.deed = .statement text → Q text) :
    (Traced.single m moment).Executes Q :=
  List.forall_mem_singleton.2 h

section

variable {body : State → Traced} (hbody : ∀ s, (body s).Executes Q)

include hbody

/-- A counted loop executes what its body executes. -/
theorem traceTimes (n : Nat) (s : State) : (traceTimes body n s).Executes Q := by
  induction n generalizing s with
  | zero => exact nil
  | succ n ih =>
    rw [Cobol.traceTimes]
    split
    · exact (hbody s).andThen ih
    · exact nil

/-- A loop executes what its body executes: its test is no statement. -/
theorem traceUntil (condition : Text) (passes : Nat) (s : State) :
    (traceUntil m allowance body condition passes s).Executes Q := by
  induction passes generalizing s with
  | zero => exact nil
  | succ passes ih =>
    rw [Cobol.traceUntil]
    refine (hbody s).andThen fun t ↦ ?_
    split
    · refine (single fun _ htext ↦ by cases htext).andThen fun u ↦ ?_
      split
      · exact ih u
      · exact nil
    · exact nil

end

variable {nested : List Text → State → Traced} (hQ : ∀ {line t}, Q line → PartOf line t → Q t)
  (hm : ∀ label body, m.paragraphs.get? label = some body → ∀ line ∈ body, Q line)
  (hnested : ∀ lines, (∀ line ∈ lines, Q line) → ∀ s, (nested lines s).Executes Q)

include hQ hm hnested

/-- What one statement runs executes what the blocks inside execute: lines cut from those behind the
statement, or the body of a paragraph. -/
theorem traceInner {following : List Text} (hfollowing : ∀ line ∈ following, Q line) (s : State)
    (action : Action) : (traceInner m allowance nested following s action).Executes Q := by
  -- a part of a block has lines of the block, or what is left of one behind its keyword
  have hcut {xs : List Text} (h : CutFrom xs following) : ∀ t ∈ xs, Q t := fun t ht ↦ by
    obtain ⟨line, hline, hpart⟩ := h.exists_mem t ht
    exact hQ (hfollowing line hline) hpart
  cases action with
  | branch condition =>
    have hblock := IfBlock.cutFrom_splitFrom 0 false following
    rw [Cobol.traceInner]
    refine (single fun _ htext ↦ by cases htext).andThen fun t ↦ ?_
    split
    · exact hnested _ (hcut hblock.whenTrue) t
    · exact hnested _ (hcut hblock.whenFalse) t
  | choose subject =>
    have hblock := EvaluateBlock.cutFrom_splitFrom 0 following
    rw [Cobol.traceInner]
    refine (single fun _ htext ↦ by cases htext).andThen fun t ↦ ?_
    split
    · rename_i lines hlines
      obtain ⟨found, -, hselect⟩ := Except.bind_eq_ok_iff.1 hlines
      obtain ⟨b, hb, rfl⟩ := Subject.exists_branch_of_select hselect
      exact hnested _ (hcut (hblock.branches b hb)) t
    · exact nil
  | perform label repetition =>
    rw [Cobol.traceInner, traceParagraph]
    split
    · exact nil
    · rename_i body hbody
      have hrun := hnested body (hm _ body hbody)
      split
      · exact hrun s
      · split
        · exact nil
        · exact traceTimes hrun _ s
      · exact traceUntil hrun _ _ s
  | _ => exact nil

/-- Lines execute parts of themselves, and what the blocks inside execute. -/
theorem traceLines : ∀ {lines : List Text}, (∀ line ∈ lines, Q line) → ∀ s : State,
    (traceLines m allowance nested lines s).Executes Q
  | [], _, s => by
    rw [Cobol.traceLines]
    exact nil
  | line :: following, hlines, s => by
    obtain ⟨hline, hfollowing⟩ := List.forall_mem_cons.1 hlines
    have hstatement (s : State) : (traceStatement m allowance nested line following s).Executes Q :=
      (single fun text htext ↦ Deed.statement.inj htext ▸ hline).andThen fun t ↦
        traceInner hQ hm hnested hfollowing t _
    rw [Cobol.traceLines]
    split
    · refine (hstatement s).andThen fun t ↦ traceLines (fun l hl ↦ hfollowing l ?_) t
      exact (unread_suffix line following).subset hl
    · exact nil
termination_by lines => lines.length
decreasing_by exact Nat.lt_succ_of_le (length_unread_le line following)

end Traced.Executes

/-- **Nothing is executed that is not written in the program**: every statement of a run, at any
depth, is a part of a line of the block or of a paragraph. -/
theorem exists_partOf_of_mem_moments {m : Machine} {allowance : Nat} {lines : List Text} {s : State}
    {moment : Moment} (hmoment : moment ∈ moments m allowance lines s) {text : Text}
    (htext : moment.deed = .statement text) : ∃ line, m.HasLine lines line ∧ PartOf line text := by
  let Q (t : Text) : Prop := ∃ line, m.HasLine lines line ∧ PartOf line t
  have hQ {line t : Text} (hline : Q line) (ht : PartOf line t) : Q t := by
    obtain ⟨origin, horigin, hpart⟩ := hline
    exact ⟨origin, horigin, hpart.trans ht⟩
  have hm (label : Text) (body : List Text) (hbody : m.paragraphs.get? label = some body) :
      ∀ line ∈ body, Q line := fun line hline ↦
    ⟨line, Or.inr ⟨label, body, hbody, hline⟩, .whole⟩
  have htrace : ∀ (allowance : Nat) (block : List Text), (∀ line ∈ block, Q line) →
      ∀ s, (traceBlock m allowance block s).Executes Q := by
    intro allowance
    induction allowance with
    | zero => exact fun _ _ _ ↦ .nil
    | succ allowance ih => exact fun _ hblock ↦ .traceLines hQ hm ih hblock
  exact htrace allowance lines (fun line hline ↦ ⟨line, Or.inl hline, .whole⟩) s moment hmoment
    text htext

end Cobol
