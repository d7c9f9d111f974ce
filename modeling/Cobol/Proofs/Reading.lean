import Cobol.Proofs.Escape
import Cobol.Proofs.Lockstep
import Cobol.Source

/-!
# How a program sees its input

A program sees its input as the answers to the questions of its `ACCEPT` statements, in their order,
and in no other way. Two consequences, both for whole programs:

* `sameRun_of_reads`: what a run does not ask for makes no difference to it. Inputs that agree on
  their first `k` lines cannot be told apart by a run that asks at most `k` times, and no two inputs
  by a run that does not ask.
* `trace_queue_eq_trace_stream`: it makes no difference whether lines wait in a queue or stand in a
  stream, each with a line feed behind it.

Each of them is a coupling of inputs (`coupling_shares`, `coupling_reveals`); the runs are kept in
step by `steady_traceBlock`.

## Shape decisions

* A run that stops in a fault asks for as many lines as it has asked for, and no more. So the number
  of questions is read off the run with the first input, and the second may be any that agrees with
  it.
* A caller of a session sees the lines that were shown, the name of the program and the fault. These
  are compared with the trace of the run, so that what is left of the input is compared too.
-/

namespace Cobol

open Text

/-! ### Runs of programs -/

/-- A program starts in the same state whatever its input is, but for the input. -/
theorem State.exists_start_eq (p : Program) :
    ∃ start : Except Fault State, ∀ input, State.start p input = start.map (·.withInput input) := by
  refine ⟨State.start p none, fun input ↦ ?_⟩
  rw [start, start]
  cases declareAll {} (p.declarations.entries.map (·.2)) <;> rfl

namespace Session

/-- The run of a program on an input with its moments, if the program can be started. -/
def trace (limits : Limits) (source : List Text) (input : Option Input) : Except Fault Traced :=
  match Program.parse source with
  | .error fault => .error fault
  | .ok p =>
    (State.start p input).map (traceBlock (p.machine limits) limits.allowance p.procedure)

/-- How often the run of a program on an input asks for a line, also where none is left. -/
def reads (limits : Limits) (source : List Text) (input : Option Input) : Nat :=
  match trace limits source input with
  | .ok x => x.reads
  | .error _ => 0

/-- A program either cannot be started, whatever its input is, or it starts in the same state but
for its input. -/
theorem trace_cases (limits : Limits) (source : List Text) :
    (∃ fault, ∀ input, trace limits source input = .error fault) ∨
      ∃ (m : Machine) (procedure : List Text) (s : State), ∀ input,
        trace limits source input =
          .ok (traceBlock m limits.allowance procedure (s.withInput input)) := by
  unfold trace
  cases Program.parse source with
  | error fault => exact Or.inl ⟨fault, fun _ ↦ rfl⟩
  | ok p =>
    obtain ⟨start, hstart⟩ := State.exists_start_eq p
    simp only [hstart]
    cases start with
    | error fault => exact Or.inl ⟨fault, fun _ ↦ rfl⟩
    | ok s => exact Or.inr ⟨p.machine limits, p.procedure, s, fun _ ↦ rfl⟩

/-- Runs on coupled inputs are the same run where coupled inputs are shown as the same. -/
theorem trace_mapInput {R : Nat → Option Input → Option Input → Prop} (hR : Coupling R)
    {f g : Option Input → Option Input} (hsame : ∀ k i j, R k i j → g j = f i) {limits : Limits}
    {source : List Text} {k : Nat} {i j : Option Input} (h : R k i j)
    (hreads : reads limits source i ≤ k) :
    (trace limits source j).map (Traced.mapInput g) =
      (trace limits source i).map (Traced.mapInput f) := by
  rcases trace_cases limits source with ⟨fault, htrace⟩ | ⟨m, procedure, s, htrace⟩
  · rw [htrace, htrace]
    rfl
  · rw [reads, htrace] at hreads
    rw [htrace, htrace]
    have hsteady := steady_traceBlock hR m limits.allowance procedure k (s.withInput i) j h
    exact congrArg Except.ok (hsteady.mapInput_eq hsame hreads)

/-- What is shown of an outcome does not depend on its input. -/
theorem shown_of_mapInput {o o' : Outcome} {f : Option Input → Option Input}
    (h : o'.mapInput f = o.mapInput f) :
    o'.fault = o.fault ∧ outputOf o' = outputOf o ∧ o'.state.journal = o.state.journal := by
  have hfault := congrArg Outcome.fault h
  have houtput := congrArg outputOf h
  have hjournal := congrArg (·.state.journal) h
  exact ⟨hfault, houtput, hjournal⟩

end Session

/-- What a caller sees of a run does not show its input. -/
theorem runLines_of_trace {options : RunOptions} {source : List Text} {i j : Option Input}
    (h : (Session.trace options.limits source j).map (Traced.mapInput fun _ ↦ none) =
      (Session.trace options.limits source i).map (Traced.mapInput fun _ ↦ none)) :
    runLines { options with input := j } source = runLines { options with input := i } source := by
  unfold runLines Session.run
  unfold Session.trace at h
  cases hparse : Program.parse source with
  | error fault => rfl
  | ok p =>
    rw [hparse] at h
    obtain ⟨start, hstart⟩ := State.exists_start_eq p
    simp only [hstart] at h ⊢
    cases start with
    | error fault => rfl
    | ok s =>
      have houtcome : (p.execute options.limits (s.withInput j)).mapInput (fun _ ↦ none) =
          (p.execute options.limits (s.withInput i)).mapInput fun _ ↦ none := by
        have htraced := congrArg Traced.outcome (Except.ok.inj h)
        simp only [Traced.mapInput, outcome_traceBlock] at htraced
        exact htraced
      obtain ⟨hfault, houtput, hjournal⟩ := Session.shown_of_mapInput houtcome
      dsimp only [Except.map]
      rw [hfault, houtput, hjournal]

/-! ### Inputs that share their first lines -/

/-- The inputs give the same answers to the next `k` questions: no question is left, or they are
queues with the same first `k` lines. -/
def Input.Shares (k : Nat) (i j : Option Input) : Prop :=
  k = 0 ∨ ∃ first second : List Text, i = some (.queue first) ∧ j = some (.queue second) ∧
    first.take k = second.take k

/-- **Inputs that share their first lines are coupled** by the number of these lines. Asking is
counted also where there is nothing left, so a line may be the answer that there is none. -/
theorem coupling_shares : Coupling Input.Shares where
  pred {k i j} h := by
    obtain hzero | ⟨first, second, rfl, rfl, hlines⟩ := h
    · exact absurd hzero (Nat.succ_ne_zero k)
    · refine Or.inr ⟨first, second, rfl, rfl, ?_⟩
      have htake := congrArg (List.take k) hlines
      rwa [List.take_take, List.take_take, Nat.min_eq_left (Nat.le_succ k)] at htake
  ask {k i j} h := by
    obtain hzero | ⟨first, second, rfl, rfl, hlines⟩ := h
    · exact absurd hzero (Nat.succ_ne_zero k)
    · -- both queues are empty, or both start with the same line
      rcases first with _ | ⟨line, first⟩ <;> rcases second with _ | ⟨other, second⟩
      · exact .line none rfl rfl (Or.inr ⟨[], [], rfl, rfl, rfl⟩)
      · cases hlines
      · cases hlines
      · rw [List.take_succ_cons, List.take_succ_cons, List.cons.injEq] at hlines
        obtain ⟨rfl, hlines⟩ := hlines
        exact .line (some line) rfl rfl (Or.inr ⟨first, second, rfl, rfl, hlines⟩)

/-- Two inputs make no difference to the run of a program. -/
structure Session.SameRun (limits : Limits) (source : List Text) (i j : Option Input) : Prop where
  /-- The same is done at the same moments, in states that differ in their inputs alone, and the run
  ends alike: with the same slots, output and run flag, and with the same fault if any. -/
  trace : (Session.trace limits source j).map (Traced.mapInput fun _ ↦ none) =
    (Session.trace limits source i).map (Traced.mapInput fun _ ↦ none)
  /-- A line is asked for equally often. -/
  reads : Session.reads limits source j = Session.reads limits source i
  /-- A caller gets the same. -/
  result : ∀ options : RunOptions, options.limits = limits →
    runLines { options with input := j } source = runLines { options with input := i } source

/-- Traces that are the same but for the inputs belong to runs that a caller cannot tell apart. -/
theorem Session.sameRun_of_trace {limits : Limits} {source : List Text} {i j : Option Input}
    (h : (trace limits source j).map (Traced.mapInput fun _ ↦ none) =
      (trace limits source i).map (Traced.mapInput fun _ ↦ none)) :
    SameRun limits source i j where
  trace := h
  reads := by
    rw [Session.reads, Session.reads]
    rcases trace_cases limits source with ⟨fault, htrace⟩ | ⟨m, procedure, s, htrace⟩
    · rw [htrace, htrace]
    · rw [htrace, htrace] at h ⊢
      simpa using congrArg Traced.reads (Except.ok.inj h)
  result := by
    rintro options rfl
    exact runLines_of_trace h

/-- **Input is used through `ACCEPT` alone, and in order.** A run that asks at most `k` times for a
line cannot tell apart lists of lines that agree on their first `k` lines; and a run that does not
ask for a line does the same on every input, and without input. -/
theorem sameRun_of_reads (limits : Limits) (source : List Text) :
    (∀ (k : Nat) (first second : List Text), first.take k = second.take k →
      Session.reads limits source (some (.queue first)) ≤ k →
      Session.SameRun limits source (some (.queue first)) (some (.queue second))) ∧
    ∀ i : Option Input, Session.reads limits source i = 0 →
      ∀ j, Session.SameRun limits source i j := by
  have hsame {k : Nat} {i j : Option Input} (h : Input.Shares k i j)
      (hreads : Session.reads limits source i ≤ k) : Session.SameRun limits source i j :=
    Session.sameRun_of_trace (Session.trace_mapInput coupling_shares (fun _ _ _ _ ↦ rfl) h hreads)
  refine ⟨fun k first second hlines hreads ↦ ?_, fun i hreads j ↦ ?_⟩
  · exact hsame (Or.inr ⟨first, second, rfl, rfl, hlines⟩) hreads
  · exact hsame (Or.inl rfl) (Nat.le_of_eq hreads)

/-- A program that asks twice for a line, the second time in the light of the first answer. -/
def askingSource : List Text :=
  ["PROCEDURE DIVISION.", "ACCEPT A.", "ACCEPT.", "IF A = 5", "PERFORM NEXT-LINE.", "END-IF.",
    "STOP RUN.", "NEXT-LINE.", "ACCEPT B.", "DISPLAY A B."].map String.toList

/-- A program with an `ACCEPT` that lacks its operand, and so does not ask for a line. -/
def silentSource : List Text :=
  ["PROCEDURE DIVISION.", "ACCEPT.", "DISPLAY A."].map String.toList

/-- A program that asks twice, with a third line and without it, and a program that never asks, with
an input that has no reader. -/
theorem sameRun_of_reads_asking :
    Session.reads {} askingSource (some (.queue (["5", "X", "Y"].map String.toList))) = 2 ∧
      Session.SameRun {} askingSource (some (.queue (["5", "X", "Y"].map String.toList)))
        (some (.queue (["5", "X"].map String.toList))) ∧
      Session.reads {} silentSource none = 0 ∧
      Session.SameRun {} silentSource none (some .unsupported) :=
  have hasking : Session.reads {} askingSource
      (some (.queue (["5", "X", "Y"].map String.toList))) = 2 := by decide +kernel
  have hsilent : Session.reads {} silentSource none = 0 := by decide +kernel
  ⟨hasking, (sameRun_of_reads {} askingSource).1 2 _ _ (by decide) (Nat.le_of_eq hasking),
    hsilent, (sameRun_of_reads {} silentSource).2 none hsilent _⟩

/-! ### Lines in a queue and in a stream -/

/-- The queue of the lines that can still be read. -/
def Input.asQueue (input : Option Input) : Option Input :=
  input.map fun i ↦ .queue i.lines

/-- The first input can be read to its end, and the second is the queue of its lines. -/
def Input.Reveals (i j : Option Input) : Prop :=
  (∃ i₀ : Input, i = some i₀ ∧ i₀.IsWhole) ∧ j = Input.asQueue i

/-- Whole input is read like the queue of its lines. -/
theorem Input.agree_asQueue {i : Input} (h : i.IsWhole) :
    Agree Reveals (some i) (asQueue (some i)) := by
  obtain ⟨answer, rest, hread, hwhole⟩ := h.read
  have hask : ask (some i) = .ok (answer, some rest) := by
    rw [ask, hread]
    rfl
  have hreveals : Reveals (some rest) (asQueue (some rest)) := ⟨⟨rest, rfl, hwhole⟩, rfl⟩
  rcases i.read_cases with ⟨hnone, ⟨fault, herror⟩ | hend⟩ | ⟨line, rest', hline, hlines, -⟩
  · rw [herror] at hread
    cases hread
  · -- none is left: the queue is empty and stays so
    obtain ⟨rfl, rfl⟩ := Prod.mk.inj (Except.ok.inj (hread.symm.trans hend))
    refine .line none hask ?_ hreveals
    rw [asQueue, Option.map_some, hnone]
    rfl
  · obtain ⟨rfl, rfl⟩ := Prod.mk.inj (Except.ok.inj (hread.symm.trans hline))
    refine .line (some line) hask ?_ hreveals
    rw [asQueue, Option.map_some, hlines]
    rfl

/-- **A queue and a stream of the same lines are coupled**, for any number of questions. -/
theorem coupling_reveals : Coupling fun _ ↦ Input.Reveals where
  pred h := h
  ask h := by
    obtain ⟨⟨i, rfl, hwhole⟩, rfl⟩ := h
    exact Input.agree_asQueue hwhole

/-- A line that holds no line feed and does not end in a carriage return has no line end. -/
theorem Text.dropLineEnd_eq_self {line : Text} (hfeed : '\n' ∉ line)
    (hreturn : line.getLast? ≠ some '\r') : dropLineEnd line = line := by
  rcases List.eq_nil_or_concat line with rfl | ⟨front, c, rfl⟩
  · rfl
  · have hc : (c == '\r' || c == '\n') = false := by
      have hr : c ≠ '\r' := fun hc ↦ hreturn (by rw [hc]; simp)
      have hn : c ≠ '\n' := fun hc ↦ hfeed (by rw [hc]; simp)
      simp [hr, hn]
    rw [List.concat_eq_append]
    exact List.rdropWhile_concat_neg _ _ _ (by rw [hc]; exact Bool.false_ne_true)

/-- The lines of a stream that was made of lines. -/
theorem Input.lines_stream_flatMap {lines : List Text}
    (h : ∀ line ∈ lines, '\n' ∉ line ∧ line.getLast? ≠ some '\r') :
    (stream (lines.flatMap (· ++ ['\n'])) none).lines = lines := by
  induction lines with
  | nil => exact lines_stream_of_not_mem List.not_mem_nil none
  | cons line rest ih =>
    obtain ⟨⟨hfeed, hreturn⟩, hrest⟩ := List.forall_mem_cons.1 h
    rw [List.flatMap_cons, List.append_assoc, List.singleton_append,
      lines_stream_append hfeed, ih hrest, dropLineEnd_eq_self hfeed hreturn]

/-- **A queue and a stream of the same lines are interchangeable.** For lines without line feeds
that do not end in a carriage return, the run on the queue is the run on the stream with every input
shown as the queue of the lines that are left; so both do the same, end alike, and have the same
lines left at every moment. A caller gets the same from both. -/
theorem trace_queue_eq_trace_stream (source : List Text) {lines : List Text}
    (h : ∀ line ∈ lines, '\n' ∉ line ∧ line.getLast? ≠ some '\r') :
    (∀ limits : Limits, Session.trace limits source (Input.choose? (some lines) none) =
      (Session.trace limits source (Input.choose? none (some (lines.flatMap (· ++ ['\n']))))).map
        (Traced.mapInput Input.asQueue)) ∧
    ∀ options : RunOptions,
      runLines { options with input := Input.choose? (some lines) none } source =
        runLines
          { options with input := Input.choose? none (some (lines.flatMap (· ++ ['\n']))) }
          source := by
  let stream := Input.stream (lines.flatMap (· ++ ['\n'])) none
  have hreveals : Input.Reveals (some stream) (some (.queue lines)) := by
    refine ⟨⟨stream, rfl, rfl⟩, ?_⟩
    rw [Input.asQueue, Option.map_some, Input.lines_stream_flatMap h]
  have htrace (limits : Limits) : Session.trace limits source (some (.queue lines)) =
      (Session.trace limits source (some stream)).map (Traced.mapInput Input.asQueue) := by
    have hmap := Session.trace_mapInput coupling_reveals (g := id) (f := Input.asQueue)
      (fun _ _ _ hij ↦ hij.2) hreveals (Nat.le_refl (Session.reads limits source (some stream)))
    rw [← hmap]
    cases Session.trace limits source (some (.queue lines)) with
    | error fault => rfl
    | ok x => exact congrArg Except.ok x.mapInput_id.symm
  refine ⟨htrace, fun options ↦ runLines_of_trace ?_⟩
  exact Session.trace_mapInput coupling_reveals (fun _ _ _ _ ↦ rfl) hreveals (Nat.le_refl _)

/-- A program that asks for a line until it is told to stop. -/
def echoingSource : List Text :=
  ["PROCEDURE DIVISION.", "PERFORM ECHO UNTIL A = 'END'.", "STOP RUN.", "ECHO.", "ACCEPT A.",
    "DISPLAY A."].map String.toList

/-- Lines with a carriage return inside, with none, and with a number. -/
def echoedLines : List Text :=
  ["A\rB", "", "7", "END", "REST"].map String.toList

/-- Lines with a carriage return inside, an empty line and a line that is not asked for. -/
theorem trace_queue_eq_trace_stream_echoing :
    (∀ line ∈ echoedLines, '\n' ∉ line ∧ line.getLast? ≠ some '\r') ∧
      Session.reads {} echoingSource (Input.choose? (some echoedLines) none) = 4 ∧
      Session.trace {} echoingSource (Input.choose? (some echoedLines) none) =
        (Session.trace {} echoingSource
          (Input.choose? none (some "A\rB\n\n7\nEND\nREST\n".toList))).map
            (Traced.mapInput Input.asQueue) ∧
      runLines { input := Input.choose? (some echoedLines) none } echoingSource =
        runLines { input := Input.choose? none (some "A\rB\n\n7\nEND\nREST\n".toList) }
          echoingSource :=
  have hlines : ∀ line ∈ echoedLines, '\n' ∉ line ∧ line.getLast? ≠ some '\r' := by
    decide +kernel
  have heq := trace_queue_eq_trace_stream echoingSource hlines
  ⟨hlines, by decide +kernel, heq.1 {}, heq.2 {}⟩

end Cobol
