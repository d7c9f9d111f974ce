import Cobol.Proofs.Journal
import Cobol.Proofs.Stop
import Cobol.Proofs.TypedRun

/-!
# Runs move forward

Nothing that a run has done is undone later: lines that were written stay, lines that were read are
not read again, and slots stay. The account is kept per moment, by what its statement alone writes
(`Moment.written`) and takes (`Moment.takesLine`), and a run adds up its moments.

* `Input.lines` are the lines that can still be read, and `Input.read_cases` is all that is needed
  about reading: it takes the first of them, or there is none and the input stays.
* `output_act`, `State.inputLines_acceptLine`: what one action does to the output and to the input.
* `Chained.output_eq`, `Chained.inputLines_eq`: the sums over a chain of moments.
* `MovesForward` collects the account of a run. It holds of every run, also of one that fails.

## Shape decisions

* The account is one of equations. That the output only grows and that the rest of the input only
  shrinks follows from them, and what the equations say more is which statements add and take.
* A moment counts with what its statement does itself. What is shown inside a block or a paragraph
  belongs to later moments.
* A fault ends the chain of moments, and the account stands for the part before it.
-/

namespace Cobol

open Text

/-! ### Input -/

namespace Input

/-- The lines that can still be read, without their line ends. Those of a stream are the pieces
between line feeds; a piece at the end counts if there is something in it and the stream does not
break there. -/
def lines : Input → List Text
  | .queue lines => lines
  | .stream unread broken =>
    let pieces := unread.splitOn '\n'
    (if pieces.getLast? = some [] ∨ broken.isSome then pieces.dropLast else pieces).map dropLineEnd
  | .unsupported => []

/-- The second input is what is left of the first. -/
inductive Behind : Input → Input → Prop
  /-- The last lines of a queue. -/
  | queue {lines rest : List Text} (h : rest <:+ lines) : Behind (.queue lines) (.queue rest)
  /-- The end of a stream. -/
  | stream {unread rest : Text} (broken : Option Utf8.Malformed) (h : rest <:+ unread) :
      Behind (.stream unread broken) (.stream rest broken)
  /-- A source without a reader. -/
  | unsupported : Behind .unsupported .unsupported

/-- An input is behind itself. -/
theorem Behind.refl (i : Input) : Behind i i := by
  cases i with
  | queue lines => exact .queue (List.suffix_refl lines)
  | stream unread broken => exact .stream broken (List.suffix_refl unread)
  | unsupported => exact .unsupported

/-- What is behind something behind an input is behind the input. -/
theorem Behind.trans {i j k : Input} (hij : Behind i j) (hjk : Behind j k) : Behind i k := by
  cases hij with
  | queue hij =>
    obtain ⟨hjk⟩ | _ := hjk
    exact .queue (hjk.trans hij)
  | stream broken hij =>
    obtain _ | ⟨_, hjk⟩ := hjk
    exact .stream broken (hjk.trans hij)
  | unsupported => exact hjk

/-- An absent input stays absent, and a present one is behind itself. -/
theorem rel_behind_refl (input : Option Input) : Option.Rel Behind input input := by
  cases input with
  | none => exact .none
  | some i => exact .some (.refl i)

/-- Inputs that are behind each other are compared at the ends. -/
theorem rel_behind_trans {a b c : Option Input} (hab : Option.Rel Behind a b)
    (hbc : Option.Rel Behind b c) : Option.Rel Behind a c := by
  cases hab with
  | none => exact hbc
  | some hab =>
    cases hbc with
    | some hbc => exact .some (hab.trans hbc)

/-- The first piece of a stream is a line. -/
theorem lines_stream_append {line : Text} (h : '\n' ∉ line) (rest : Text)
    (broken : Option Utf8.Malformed) :
    (stream (line ++ '\n' :: rest) broken).lines =
      dropLineEnd line :: (stream rest broken).lines := by
  have hsplit : (line ++ '\n' :: rest).splitOn '\n' = line :: rest.splitOn '\n' := by
    have hbreak := List.splitOnP_append_cons (p := (· == '\n')) line rest (beq_self_eq_true '\n')
    rw [← List.splitOn, ← List.splitOn, List.splitOn_eq_singleton h] at hbreak
    exact hbreak
  have hne : rest.splitOn '\n' ≠ [] := List.splitOnP_ne_nil _ _
  rw [lines, lines, hsplit, List.getLast?_cons_of_ne_nil hne, List.dropLast_cons_of_ne_nil hne]
  split <;> rfl

/-- A stream without a line feed holds at most one line. -/
theorem lines_stream_of_not_mem {unread : Text} (h : '\n' ∉ unread)
    (broken : Option Utf8.Malformed) :
    (stream unread broken).lines =
      if unread = [] ∨ broken.isSome then [] else [dropLineEnd unread] := by
  rw [lines, List.splitOn_eq_singleton h]
  simp only [List.getLast?_singleton, Option.some.injEq]
  split <;> rfl

/-- **A read takes the first line**, or there is none left and the input stays as it is. -/
theorem read_cases (i : Input) :
    (i.lines = [] ∧ ((∃ fault, i.read = .error fault) ∨ i.read = .ok (none, i))) ∨
      ∃ line rest, i.read = .ok (some line, rest) ∧ i.lines = line :: rest.lines ∧
        Behind i rest := by
  cases i with
  | queue lines =>
    cases lines with
    | nil => exact Or.inl ⟨rfl, Or.inr rfl⟩
    | cons line rest =>
      exact Or.inr ⟨line, .queue rest, rfl, rfl, .queue (List.suffix_cons line rest)⟩
  | unsupported => exact Or.inl ⟨rfl, Or.inl ⟨_, rfl⟩⟩
  | stream unread broken =>
    cases hline : firstLine? unread with
    | some found =>
      obtain ⟨line, rest⟩ := found
      obtain ⟨rfl, hmem⟩ := cutAt?_eq_some_iff.1 hline
      have hsuffix : rest <:+ line ++ '\n' :: rest :=
        (List.suffix_cons '\n' rest).trans (List.suffix_append line _)
      refine Or.inr ⟨_, _, ?_, lines_stream_append hmem rest broken, .stream broken hsuffix⟩
      simp only [read, hline]
    | none =>
      -- what is left is a line if the stream ends there, and cannot be read if it breaks
      have hlines := lines_stream_of_not_mem (cutAt?_eq_none_iff.1 hline) broken
      cases broken with
      | some part =>
        refine Or.inl ⟨by simpa using hlines, Or.inl ⟨.unreadable part, ?_⟩⟩
        simp only [read, hline]
      | none =>
        cases unread with
        | nil => exact Or.inl ⟨by simpa using hlines, Or.inr rfl⟩
        | cons c more =>
          refine Or.inr ⟨_, .stream [] none, ?_, hlines, .stream none List.nil_suffix⟩
          simp only [read, hline]
          rfl

end Input

/-- The lines of input that can still be read. -/
def State.inputLines (s : State) : List Text :=
  s.input.elim [] Input.lines

/-- `ACCEPT` takes the first line of the input, whether or not it can be stored, or there is none
left and the input stays as it is. -/
theorem State.inputLines_acceptLine (s : State) (target : Text) :
    (s.inputLines = [] ∧ (s.acceptLine target).state.input = s.input) ∨
      ∃ line, s.inputLines = line :: (s.acceptLine target).state.inputLines ∧
        Option.Rel Input.Behind s.input (s.acceptLine target).state.input := by
  obtain ⟨store, output, input, running, journal⟩ := s
  cases input with
  | none => exact Or.inl ⟨rfl, rfl⟩
  | some i =>
    rcases i.read_cases with ⟨hlines, hread⟩ | ⟨line, rest, hread, hlines, hrest⟩
    · refine Or.inl ⟨hlines, ?_⟩
      rw [acceptLine]
      dsimp only
      rcases hread with ⟨fault, hread⟩ | hread <;> rw [hread] <;> rfl
    · -- the line is gone before it is looked at
      have hinput : (acceptLine ⟨store, output, some i, running, journal⟩ target).state.input =
          some rest := by
        rw [acceptLine]
        dsimp only
        rw [hread]
        dsimp only
        split
        · split
          · rfl
          · exact (keepsControl_write _ target _).input
        · exact (keepsControl_write _ target _).input
      refine Or.inr ⟨line, ?_, ?_⟩
      · rw [inputLines, inputLines, hinput]
        exact hlines
      · rw [hinput]
        exact .some hrest

/-! ### Output -/

/-- The text is an integer literal for zero. -/
def IsZero (t : Text) : Prop :=
  Numeral.isLiteral t = true ∧ Numeral.read t = .ok 0

instance : DecidablePred IsZero := fun _ ↦
  inferInstanceAs (Decidable (_ ∧ _))

/-- The line that an action writes, if it writes one. -/
def Action.written (store : Store) : Action → Option Text
  | .display operands => (displayLine store operands).toOption
  | .arithmetic operation operand _ =>
    if operation = .divide ∧ IsZero operand then some divisionByZero else none
  | _ => none

namespace State

/-- A write shows nothing. -/
theorem output_write (s : State) (name : Text) (v : Value) :
    (s.write name v).state.output = s.output := by
  rw [write]
  split <;> rfl

/-- Writes to several slots show nothing. -/
theorem output_writeAll (v : Value) (names : List Text) (s : State) :
    (writeAll v names s).state.output = s.output := by
  induction names generalizing s with
  | nil => rfl
  | cons name rest ih =>
    rw [writeAll, Outcome.andThen]
    split
    · rw [ih, output_write]
    · exact s.output_write name v

/-- `ACCEPT` shows nothing. -/
theorem output_acceptLine (s : State) (target : Text) :
    (s.acceptLine target).state.output = s.output := by
  rw [acceptLine]
  split
  · rfl
  · split
    · rfl
    · rfl
    · dsimp only
      split
      · split
        · rfl
        · rw [output_write]
      · rw [output_write]

/-- An arithmetic statement shows one line exactly if it divides by zero. -/
theorem output_combine (s : State) (operation : Operation) (amount : Int) (target : Text) :
    (s.combine operation amount target).state.output.toList =
      s.output.toList ++
        if operation = .divide ∧ amount = 0 then [divisionByZero] else [] := by
  rw [combine]
  split
  · rename_i hnone
    rw [if_pos (Operation.apply_eq_none_iff.1 hnone)]
    exact Array.toList_push
  · rename_i result hsome
    have hne : ¬(operation = .divide ∧ amount = 0) := fun h ↦ by
      rw [Operation.apply_eq_none_iff.2 h] at hsome
      cases hsome
    rw [if_neg hne, output_write, List.append_nil]

end State

/-- **What one action writes.** -/
theorem output_act (allowance : Nat) (statement : Text) (s : State) (action : Action) :
    (act allowance statement s action).state.output.toList =
      s.output.toList ++ (action.written s.store).toList := by
  have hnone {output : Array Text} (h : output = s.output) :
      output.toList = s.output.toList ++ (none : Option Text).toList := by
    rw [h, Option.toList_none, List.append_nil]
  cases action with
  | move source targets =>
    refine hnone ?_
    rw [act]
    split
    · rfl
    · exact State.output_writeAll _ targets s
  | compute target expression =>
    refine hnone ?_
    rw [act]
    split
    · rfl
    · rfl
    · exact s.output_write target _
  | arithmetic operation operand target =>
    rw [act, Action.written]
    split
    · rename_i hliteral
      cases hread : Numeral.read operand with
      | error fault =>
        -- an amount that cannot be read is no zero, and the action fails before it divides
        rw [if_neg (by simp [IsZero, hread])]
        exact hnone rfl
      | ok amount =>
        have hzero : IsZero operand ↔ amount = 0 := by simp [IsZero, hliteral, hread]
        rw [apply_ite Option.toList]
        simp only [hzero]
        exact s.output_combine operation amount target
    · rename_i hliteral
      rw [if_neg (by simp [IsZero, hliteral])]
      exact hnone rfl
  | display operands =>
    rw [act, Action.written]
    cases displayLine s.store operands with
    | error fault => exact hnone rfl
    | ok line => exact Array.toList_push
  | accept target => exact hnone (s.output_acceptLine target)
  | _ => exact hnone rfl

/-! ### Statements that write or read -/

namespace Deed

/-- What is asked for. -/
def action : Deed → Action
  | .statement text => Action.ofText (trim text)
  | _ => .nothing

/-- A `DISPLAY` with operands is executed. -/
def Displays : Deed → Prop
  | .statement text => Verb.ofStatement text = .display ∧ arguments text ≠ []
  | _ => False

/-- A `DIVIDE` by a literal zero is executed. -/
def DividesByZero : Deed → Prop
  | .statement text => Verb.ofStatement text = .divide ∧ ∃ verb zero preposition target rest,
      words (Sentence.dropPeriod text) = verb :: zero :: preposition :: target :: rest ∧ IsZero zero
  | _ => False

/-- An `ACCEPT` with an operand is executed. -/
def accepts : Deed → Bool
  | .statement text =>
    Verb.ofStatement text == .accept && decide (2 ≤ (words (Sentence.dropPeriod text)).length)
  | _ => false

variable {deed : Deed}

/-- A deed that asks for something is a statement with a verb that does. -/
theorem exists_statement (h : deed.action ≠ .nothing) : ∃ text, deed = .statement text ∧
    Action.ofText (trim text) = deed.action ∧ Verb.ofStatement text ∈ deed.action.verbs := by
  cases deed with
  | statement text => exact ⟨text, rfl, rfl, Action.ofStatement_mem_verbs rfl h⟩
  | test | choice => exact absurd rfl h

/-- A moment with the action of a `DISPLAY` displays. -/
theorem displays_of_action {operands : List Text} (h : deed.action = .display operands) :
    deed.Displays := by
  obtain ⟨text, rfl, htext, hverb⟩ := exists_statement (by rw [h]; nofun)
  rw [h] at htext hverb
  have hdisplay : Verb.ofStatement text = .display := List.mem_singleton.1 hverb
  refine ⟨hdisplay, fun hempty ↦ ?_⟩
  rw [Action.ofText_of_display hdisplay, hempty] at htext
  cases htext

/-- A moment with the action of a division by zero divides by zero. -/
theorem dividesByZero_of_action {operand target : Text}
    (h : deed.action = .arithmetic .divide operand target) (hzero : IsZero operand) :
    deed.DividesByZero := by
  obtain ⟨text, rfl, htext, hverb⟩ := exists_statement (by rw [h]; nofun)
  rw [h] at htext hverb
  have hdivide : Verb.ofStatement text = .divide := List.mem_singleton.1 hverb
  rw [Action.ofText_of_operation .divide hdivide] at htext
  unfold Action.ofArithmetic at htext
  split at htext
  · rename_i verb zero preposition target rest hwords
    cases htext
    exact ⟨hdivide, verb, operand, preposition, target, rest, hwords, hzero⟩
  · cases htext

/-- A moment reads exactly if its action is that of an `ACCEPT`. -/
theorem accepts_iff : deed.accepts = true ↔ ∃ target, deed.action = .accept target := by
  cases deed with
  | test | choice => exact ⟨nofun, nofun⟩
  | statement text =>
    rw [accepts, action, Bool.and_eq_true, beq_iff_eq, decide_eq_true_iff]
    constructor
    · rintro ⟨hverb, hlength⟩
      rcases hwords : words (Sentence.dropPeriod text) with _ | ⟨verb, _ | ⟨target, rest⟩⟩
      · rw [hwords] at hlength
        exact absurd hlength (by decide)
      · rw [hwords] at hlength
        exact absurd hlength (Nat.not_succ_le_self 1)
      · exact ⟨target, Action.ofText_eq_accept_iff.2 ⟨hverb, verb, rest, hwords⟩⟩
    · rintro ⟨target, htext⟩
      obtain ⟨hverb, verb, rest, hwords⟩ := Action.ofText_eq_accept_iff.1 htext
      refine ⟨hverb, ?_⟩
      rw [hwords]
      exact Nat.le_add_left 2 rest.length

end Deed

/-! ### Moments -/

/-- A call itself does nothing that can be seen but what its paragraph does. -/
theorem State.visible_call (s : State) (m : Machine) (label : Text) (repetition : Repetition) :
    (s.call m label repetition).state.visible = s.visible := by
  unfold call
  split
  · rfl
  · cases repetition with
    | times count => rw [state_check]
    | once | untilTrue => rfl

namespace Moment

/-- The line that is written at a moment, if one is. -/
def written (moment : Moment) : Option Text :=
  moment.deed.action.written moment.state.store

/-- An `ACCEPT` with an operand finds a line of input. -/
def takesLine (moment : Moment) : Bool :=
  moment.deed.accepts && !moment.state.inputLines.isEmpty

/-- What is seen of a moment is what its action does: a call, a test or a choice leaves a note at
most. -/
theorem visible_own (m : Machine) (moment : Moment) :
    (moment.own m).state.visible =
      (act moment.allowance [] moment.state moment.deed.action).state.visible := by
  obtain ⟨allowance, deed, s⟩ := moment
  cases deed with
  | statement text =>
    unfold own
    dsimp only [Deed.action]
    split
    · rename_i label repetition haction
      rw [haction]
      exact s.visible_call m label repetition
    · -- the text of the statement goes to the journal only
      exact congrArg Outcome.state (similar_act allowance (trim text) [] _ s s rfl)
  | test condition =>
    unfold own
    rw [State.state_check]
    rfl
  | choice subject branches =>
    unfold own
    dsimp only
    split
    · rfl
    · rename_i remark _
      rw [State.state_check]
      cases remark <;> rfl

/-- **Who writes**: a `DISPLAY` with operands, or a `DIVIDE` by a literal zero. -/
theorem displays_or_dividesByZero {moment : Moment} {line : Text}
    (h : moment.written = some line) : moment.deed.Displays ∨ moment.deed.DividesByZero := by
  rw [written] at h
  cases haction : moment.deed.action with
  | display operands => exact Or.inl (Deed.displays_of_action haction)
  | arithmetic operation operand target =>
    rw [haction, Action.written] at h
    split at h
    · rename_i hzero
      obtain ⟨rfl, hzero⟩ := hzero
      exact Or.inr (Deed.dividesByZero_of_action haction hzero)
    · cases h
  | _ =>
    rw [haction] at h
    cases h

/-- **What is written at a moment**: at most one line, behind those before. -/
theorem output_own (m : Machine) (moment : Moment) :
    (moment.own m).state.output.toList =
      moment.state.output.toList ++ moment.written.toList := by
  have hvisible := congrArg State.output (moment.visible_own m)
  calc (moment.own m).state.output.toList
    _ = (act moment.allowance [] moment.state moment.deed.action).state.output.toList :=
      congrArg Array.toList hvisible
    _ = moment.state.output.toList ++ moment.written.toList := output_act _ _ _ _

/-- **What is read at a moment**: one line by an `ACCEPT` that finds one, and nothing else. -/
theorem inputLines_own (m : Machine) (moment : Moment) :
    ∃ taken, moment.state.inputLines = taken ++ (moment.own m).state.inputLines ∧
      taken.length = if moment.takesLine then 1 else 0 := by
  have hvisible := congrArg State.inputLines (moment.visible_own m)
  have hinput : (moment.own m).state.inputLines =
      (act moment.allowance [] moment.state moment.deed.action).state.inputLines := hvisible
  rw [hinput, takesLine]
  by_cases haccept : ∃ target, moment.deed.action = .accept target
  · rw [Deed.accepts_iff.2 haccept, Bool.true_and]
    obtain ⟨target, haction⟩ := haccept
    rw [haction, act]
    rcases moment.state.inputLines_acceptLine target with ⟨hnone, hkept⟩ | ⟨line, hline, -⟩
    · refine ⟨[], ?_, by rw [hnone]; rfl⟩
      rw [State.inputLines, State.inputLines, hkept]
      rfl
    · exact ⟨[line], hline, by rw [hline]; rfl⟩
  · have hdeed : moment.deed.accepts = false := by
      rw [← Bool.not_eq_true, Deed.accepts_iff]
      exact haccept
    rw [hdeed, State.inputLines, State.inputLines, input_act (not_exists.1 haccept)]
    exact ⟨[], rfl, rfl⟩

end Moment

/-! ### Runs -/

namespace Chained

variable {m : Machine} {s : State} {ms : List Moment} {o : Outcome}

/-- The output of a run is what was there before and what its moments write. -/
theorem output_eq (h : Chained m s ms o) :
    o.state.output.toList = s.output.toList ++ ms.filterMap Moment.written := by
  induction h with
  | done | limit => exact (List.append_nil _).symm
  | @fault moment =>
    rw [moment.output_own m, List.filterMap_cons]
    cases moment.written <;> rfl
  | @step moment rest o _ _ _ ih =>
    rw [ih, moment.output_own m, List.append_assoc, List.filterMap_cons]
    cases moment.written <;> rfl

/-- The input of a run is what its moments take and what is left. -/
theorem inputLines_eq (h : Chained m s ms o) :
    ∃ taken, s.inputLines = taken ++ o.state.inputLines ∧
      taken.length = ms.countP Moment.takesLine := by
  induction h with
  | done | limit => exact ⟨[], rfl, rfl⟩
  | @fault moment =>
    rw [List.countP_singleton]
    exact moment.inputLines_own m
  | @step moment rest o _ _ _ ih =>
    obtain ⟨first, hfirst, hcount⟩ := moment.inputLines_own m
    obtain ⟨later, hlater, hcounts⟩ := ih
    refine ⟨first ++ later, by rw [hfirst, hlater, List.append_assoc], ?_⟩
    rw [List.length_append, hcount, hcounts, List.countP_cons, Nat.add_comm]

end Chained

/-- What stays of a state, whatever is done. -/
structure State.LastsIn (s t : State) : Prop where
  /-- The input is what is left of it. -/
  input : Option.Rel Input.Behind s.input t.input
  /-- The pictures are the same. -/
  pictures : t.store.pictures = s.store.pictures
  /-- The slots are still there. -/
  slots : ∀ name, s.store.contains name = true → t.store.contains name = true

/-- Every write and every read lets the output, the slots and the rest of the input last. -/
theorem respected_lastsIn : Respected State.LastsIn where
  refl s := ⟨Input.rel_behind_refl s.input, rfl, fun _ ↦ id⟩
  trans hst htu := ⟨Input.rel_behind_trans hst.input htu.input,
    htu.pictures.trans hst.pictures, fun name hs ↦ htu.slots name (hst.slots name hs)⟩
  note s _ := ⟨Input.rel_behind_refl s.input, rfl, fun _ ↦ id⟩
  act allowance statement s action := by
    have hwrites := act_writes allowance statement s action
    refine ⟨?_, hwrites.pictures_eq, fun _ ↦ hwrites.contains⟩
    by_cases haccept : ∃ target, action = .accept target
    · obtain ⟨target, rfl⟩ := haccept
      rcases s.inputLines_acceptLine target with ⟨-, hkept⟩ | ⟨-, -, hrest⟩
      · rw [act, hkept]
        exact Input.rel_behind_refl s.input
      · exact hrest
    · rw [input_act (not_exists.1 haccept)]
      exact Input.rel_behind_refl s.input

/-- A run with the given moments moves forward from one state to another. -/
structure MovesForward (m : Machine) (s : State) (ms : List Moment) (t : State) : Prop
    extends s.LastsIn t where
  /-- The lines written before stay, and those that the moments write stand behind them. -/
  output : t.output.toList = s.output.toList ++ ms.filterMap Moment.written
  /-- What is done at a moment writes at most one line by itself. -/
  own : ∀ moment ∈ ms, (moment.own m).state.output.toList =
    moment.state.output.toList ++ moment.written.toList
  /-- Only a `DISPLAY` with operands or a `DIVIDE` by a literal zero writes. -/
  writers : ∀ moment ∈ ms, moment.written.isSome = true →
    moment.deed.Displays ∨ moment.deed.DividesByZero
  /-- The lines left to read are those left before, without one for each `ACCEPT` with an operand
  that found a line. -/
  taken : ∃ taken, s.inputLines = taken ++ t.inputLines ∧
    taken.length = ms.countP Moment.takesLine

/-- **Runs move forward**: every block, with every table of paragraphs and from every state, whether
it is finished or fails. The moments of the block lead to its outcome, each with the paragraphs that
the block started with. -/
theorem movesForward_executeBlock (m : Machine) (allowance : Nat) (lines : List Text) (s : State) :
    (s.running = true →
      Chained m s (moments m allowance lines s) (executeBlock m allowance lines s)) ∧
    MovesForward m s (moments m allowance lines s) (executeBlock m allowance lines s).state := by
  refine ⟨chained_moments m allowance lines, ?_⟩
  have hlasts := respected_lastsIn.executeBlock m allowance lines s
  have hwriters (moment : Moment) (hsome : moment.written.isSome = true) :
      moment.deed.Displays ∨ moment.deed.DividesByZero := by
    obtain ⟨line, hline⟩ := Option.isSome_iff_exists.1 hsome
    exact Moment.displays_or_dividesByZero hline
  cases hs : s.running with
  | true =>
    have hchained := chained_moments m allowance lines hs
    exact ⟨hlasts, hchained.output_eq, fun moment _ ↦ moment.output_own m,
      fun moment _ ↦ hwriters moment, hchained.inputLines_eq⟩
  | false =>
    -- nothing is done from a stopped state on
    rw [moments_of_stopped m allowance lines hs]
    rw [state_executeBlock_of_stopped m allowance lines hs] at hlasts ⊢
    exact ⟨hlasts, (List.append_nil _).symm, nofun, nofun, [], rfl, rfl⟩

/-- A machine with a paragraph that reads a line and shows it, and loops of at most two passes. -/
def echoing : Machine where
  paragraphs := ⟨[("ECHO".toList, ["ACCEPT X.", "DISPLAY X."].map String.toList)]⟩
  passes := 2

/-- Lines that run the paragraph in an endless loop. -/
def echoingLines : List Text :=
  ["ACCEPT.", "DIVIDE 0 INTO X.", "PERFORM ECHO UNTIL 1 = 2", "DISPLAY 'NO'."].map String.toList

/-- A state with a line of output, a slot and three lines of input. -/
def echoingStart : State where
  store := { values := ⟨[("X".toList, .number 5)]⟩ }
  output := #["OLD".toList]
  input := some (.stream "7\r\nAB\nCD".toList none)

/-- The run fails in the loop, behind two lines of input and three of output. -/
theorem movesForward_executeBlock_echoing :
    (executeBlock echoing 9 echoingLines echoingStart).fault = some .endless ∧
      (executeBlock echoing 9 echoingLines echoingStart).state.output.toList =
        "OLD".toList :: divisionByZero :: ["7", "AB"].map String.toList ∧
      (executeBlock echoing 9 echoingLines echoingStart).state.inputLines = ["CD".toList] ∧
      Chained echoing echoingStart (moments echoing 9 echoingLines echoingStart)
        (executeBlock echoing 9 echoingLines echoingStart) ∧
      MovesForward echoing echoingStart (moments echoing 9 echoingLines echoingStart)
        (executeBlock echoing 9 echoingLines echoingStart).state :=
  have hforward := movesForward_executeBlock echoing 9 echoingLines echoingStart
  ⟨by decide +kernel, by decide +kernel, by decide +kernel, hforward.1 rfl, hforward.2⟩

end Cobol
