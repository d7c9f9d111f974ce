import Cobol.Proofs.Conversion
import Cobol.Proofs.Places
import Cobol.Proofs.Trace
import Cobol.Proofs.TypedRun

/-!
# What can end a run

A program can be malformed in every way, and still a run has few ways to end. It returns what was
written, or it meets a number that is too long, or a digit without place value in an expression, or
a field that is too wide to be filled.

The argument follows the run. What one moment can fail with depends on its deed and its state
(`Moment.own_failsOnly`). The only parts of the state that matter are the pictures and whether the
input can be read to its end, and no moment changes either (`Respected.own`). So a fault of a run is
one of the two limits or the fault of one of its moments (`Chained.fault_cases`), and the limit on
nesting does not end a run with a fault.

## Shape decisions

* A moment is judged by what its statement does itself. What runs inside it are later moments, each
  with its own state, so no induction on the nesting is needed.
* The faults of a run are said of the program and of the input with which it started, not of a state
  in between. This is why nothing that a moment could change may be part of the answer.
-/

namespace Cobol

open Text

/-! ### Input that can be read to its end -/

/-- The input is no stream that breaks, and has a reader. -/
def Input.IsWhole : Input → Prop
  | .queue _ => True
  | .stream _ broken => broken = none
  | .unsupported => False

/-- A read from whole input succeeds and leaves whole input. -/
theorem Input.IsWhole.read {input : Input} (h : input.IsWhole) :
    ∃ line rest, input.read = .ok (line, rest) ∧ rest.IsWhole := by
  cases input with
  | queue lines => cases lines <;> exact ⟨_, _, rfl, trivial⟩
  | unsupported => exact h.elim
  | stream unread broken =>
    obtain rfl : broken = none := h
    have hrest (rest : Text) : IsWhole (.stream rest none) := rfl
    cases hline : firstLine? unread with
    | some found =>
      simp only [Input.read, hline]
      exact ⟨_, _, rfl, hrest _⟩
    | none =>
      simp only [Input.read, hline]
      split <;> exact ⟨_, _, rfl, hrest []⟩

/-- If there is input, it is whole. -/
def State.HasWholeInput (s : State) : Prop :=
  ∀ input ∈ s.input, input.IsWhole

/-! ### One action -/

/-- The execution is ended by none but those faults. -/
def Outcome.FailsOnly (P : Fault → Prop) (o : Outcome) : Prop :=
  ∀ f, o.fault = some f → P f

namespace Outcome.FailsOnly

variable {P Q : Fault → Prop} {s : State}

theorem done : s.done.FailsOnly P := nofun

theorem fail {fault : Fault} (h : P fault) : (s.fail fault).FailsOnly P := by
  rintro f ⟨⟩
  exact h

/-- The kind of the faults may be widened. -/
theorem mono {o : Outcome} (ho : o.FailsOnly P) (h : ∀ f, P f → Q f) : o.FailsOnly Q :=
  fun f hf ↦ h f (ho f hf)

/-- A computation that a statement makes fails as it does alone. -/
theorem check {α : Type} {x : Except Fault α} (hx : Cobol.FailsOnly P x) :
    (s.check x).FailsOnly P := by
  cases x with
  | ok a => exact done
  | error fault => exact fail (hx fault rfl)

end Outcome.FailsOnly

namespace State

/-- What the writes of a state can fail with. -/
abbrev WriteFault (s : State) : Fault → Prop :=
  Fault.IsWriting s.store.HasWide

/-- A write to a slot can only meet a value that is too long or a slot that is too wide. -/
theorem failsOnly_write (s : State) (name : Text) (v : Value) :
    (s.write name v).FailsOnly s.WriteFault := by
  unfold write
  split
  · exact .done
  · exact .fail (s.store.failsOnly_set name v _ ‹_›)

/-- A write leaves the pictures as they are. -/
theorem pictures_write (s : State) (name : Text) (v : Value) :
    (s.write name v).state.store.pictures = s.store.pictures :=
  (write_writes (List.mem_singleton_self name) s v).pictures_eq

/-- Writes to several slots fail as one write does, and what is written before a fault stays. -/
theorem failsOnly_writeAll (v : Value) (names : List Text) (s : State) :
    (writeAll v names s).FailsOnly s.WriteFault := by
  induction names generalizing s with
  | nil => exact .done
  | cons name rest ih =>
    rw [writeAll, Outcome.andThen]
    split
    · -- the pictures decide, and the first write has not touched them
      refine (ih _).mono fun f ↦ .imp ?_
      unfold Store.HasWide Store.picture?
      rw [pictures_write]
      exact id
    · exact s.failsOnly_write name v

/-- An arithmetic statement fails as the write of its result. -/
theorem failsOnly_combine (s : State) (operation : Operation) (amount : Int) (target : Text) :
    (s.combine operation amount target).FailsOnly s.WriteFault := by
  unfold combine
  dsimp only
  split
  · exact .done
  · exact s.failsOnly_write target _

/-- `ACCEPT` fails as the write of its line, if the input can be read to its end. -/
theorem failsOnly_acceptLine {s : State} (h : s.HasWholeInput) (target : Text) :
    (s.acceptLine target).FailsOnly s.WriteFault := by
  unfold acceptLine
  cases hinput : s.input with
  | none => exact .done
  | some input =>
    obtain ⟨line, rest, hread, -⟩ := (h input hinput).read
    dsimp only
    rw [hread]
    cases line with
    | none => exact .done
    | some line =>
      dsimp only
      split
      · split
        · exact .fail (.long (Numeral.failsOnly_read_of_isLiteral ‹_› _ ‹_›))
        · exact failsOnly_write { s with input := some rest } target _
      · exact failsOnly_write { s with input := some rest } target _

/-- A call can only meet a count that is too long to be read. -/
theorem failsOnly_call (s : State) (m : Machine) (label : Text) (repetition : Repetition) :
    (s.call m label repetition).FailsOnly Fault.IsLong := by
  unfold call
  split
  · exact .done
  · split
    · exact .check (.bind (failsOnly_operandValue s.store _) Value.failsOnly_integer)
    · exact .done
    · exact .done

end State

/-- What an action that reads no input can fail with: what its expression fails with, if it has one,
and what its writes can. -/
theorem failsOnly_act_of_ne_accept {action : Action} (haccept : ∀ target, action ≠ .accept target)
    (allowance : Nat) (statement : Text) (s : State) :
    (act allowance statement s action).FailsOnly fun f ↦ s.WriteFault f ∨
      ∃ target e, action = .compute target e ∧
        Expression.evaluate s.store allowance e = .error f := by
  have hlong {f : Fault} (hf : f.IsLong) : s.WriteFault f := .long hf
  cases action with
  | move source targets =>
    rw [act]
    split
    · exact .fail (Or.inl (hlong (failsOnly_operandValue s.store source _ ‹_›)))
    · exact (State.failsOnly_writeAll _ targets s).mono fun _ ↦ Or.inl
  | compute target e =>
    -- only here an expression is evaluated, and its fault is passed on
    rw [act]
    split
    · exact .fail (Or.inr ⟨target, e, rfl, ‹_›⟩)
    · exact .done
    · exact (s.failsOnly_write target _).mono fun _ ↦ Or.inl
  | arithmetic operation operand target =>
    rw [act]
    split
    · split
      · exact .fail (Or.inl (hlong (Numeral.failsOnly_read_of_isLiteral ‹_› _ ‹_›)))
      · exact (s.failsOnly_combine operation _ target).mono fun _ ↦ Or.inl
    · exact .done
  | display operands =>
    rw [act]
    split
    · exact .fail (Or.inl (hlong (failsOnly_displayLine s.store operands _ ‹_›)))
    · exact .done
  | accept target => exact absurd rfl (haccept target)
  | _ => exact .done

/-- What an action that runs no other statements can fail with: what its expression can fail with,
if it has one, and what its writes can. -/
theorem failsOnly_act {s : State} (h : s.HasWholeInput) (allowance : Nat) (statement : Text)
    (action : Action) :
    (act allowance statement s action).FailsOnly fun f ↦
      s.WriteFault f ∨ ∃ target e, action = .compute target e ∧ Expression.IsFault e f := by
  by_cases haccept : ∃ target, action = .accept target
  · obtain ⟨target, rfl⟩ := haccept
    exact (State.failsOnly_acceptLine h target).mono fun _ ↦ Or.inl
  · refine (failsOnly_act_of_ne_accept (not_exists.1 haccept) allowance statement s).mono
      fun f hf ↦ hf.imp_right ?_
    rintro ⟨target, e, haction, he⟩
    exact ⟨target, e, haction, Expression.failsOnly_evaluate s.store allowance e f he⟩

/-! ### One moment -/

/-- The moment evaluates the expression: it is that of a `COMPUTE`, or the subject of an
`EVALUATE`. -/
def Moment.Evaluates (moment : Moment) (e : Text) : Prop :=
  (∃ text target, moment.deed = .statement text ∧ Action.ofText (trim text) = .compute target e) ∨
    ∃ branches, moment.deed = .choice e branches

/-- What a moment can fail with. -/
inductive Moment.IsFault (moment : Moment) : Fault → Prop
  /-- What its writes can fail with. -/
  | writing {f : Fault} (h : moment.state.WriteFault f) : IsFault moment f
  /-- What its expression can fail with. -/
  | expression {e : Text} {f : Fault} (he : moment.Evaluates e) (h : Expression.IsFault e f) :
      IsFault moment f

/-- **The faults of one moment.** What a statement does by itself fails with what its deed can fail
with in its state, whatever runs inside it. -/
theorem Moment.own_failsOnly (m : Machine) {moment : Moment} (h : moment.state.HasWholeInput) :
    (moment.own m).FailsOnly moment.IsFault := by
  have hlong {f : Fault} (hf : f.IsLong) : moment.IsFault f := .writing (.long hf)
  obtain ⟨allowance, deed, s⟩ := moment
  cases deed with
  | statement text =>
    unfold own
    dsimp only
    split
    · exact (s.failsOnly_call m _ _).mono fun _ ↦ hlong
    · refine (failsOnly_act h allowance _ _).mono fun f hf ↦ ?_
      rcases hf with hf | ⟨target, e, haction, hf⟩
      · exact .writing hf
      · exact .expression (Or.inl ⟨text, target, rfl, haction⟩) hf
  | test condition =>
    exact .check ((Condition.failsOnly_holds s.store condition).mono fun _ ↦ hlong)
  | choice subject branches =>
    unfold own
    dsimp only
    split
    · exact .fail (.expression (Or.inr ⟨branches, rfl⟩)
        (Subject.failsOnly_ofText s.store allowance subject _ ‹_›))
    · exact .check ((Subject.failsOnly_select _ branches).mono fun _ ↦ hlong)

/-! ### Along a run -/

namespace Respected

variable {R : State → State → Prop} (hR : Respected R)

include hR

/-- What every write and every read respects, every moment respects. -/
theorem own (m : Machine) (moment : Moment) : R moment.state (moment.own m).state := by
  obtain ⟨allowance, deed, s⟩ := moment
  cases deed with
  | statement text =>
    unfold Moment.own
    dsimp only
    split
    · unfold State.call
      split
      · exact hR.note s _
      · split
        · rw [State.state_check]
          exact hR.refl s
        · exact hR.refl s
        · exact hR.refl s
    · exact hR.act allowance _ s _
  | test condition =>
    unfold Moment.own
    rw [State.state_check]
    exact hR.refl s
  | choice subject branches =>
    unfold Moment.own
    dsimp only
    split
    · exact hR.refl s
    · rw [State.state_check]
      exact hR.noted s _

/-- **From the start of a run to each of its moments.** -/
theorem chained {m : Machine} {s : State} {ms : List Moment} {o : Outcome}
    (h : Chained m s ms o) : ∀ moment ∈ ms, R s moment.state := by
  induction h with
  | done | limit => exact nofun
  | @fault moment => exact List.forall_mem_singleton.2 (hR.refl _)
  | @step moment rest o _ _ _ ih =>
    -- a later moment is reached through what this one leaves
    refine List.forall_mem_cons.2 ⟨hR.refl _, fun later hlater ↦ ?_⟩
    exact hR.trans (hR.own m moment) (ih later hlater)

end Respected

/-- The pictures stay as they are, and whole input stays whole. -/
def State.KeepsSources (s t : State) : Prop :=
  t.store.pictures = s.store.pictures ∧ (s.HasWholeInput → t.HasWholeInput)

namespace State

/-- Reading leaves an input that can be read to its end. -/
theorem hasWholeInput_acceptLine {s : State} (h : s.HasWholeInput) (target : Text) :
    (s.acceptLine target).state.HasWholeInput := by
  unfold acceptLine
  cases hinput : s.input with
  | none => exact h
  | some input =>
    obtain ⟨line, rest, hread, hrest⟩ := (h input hinput).read
    have hwhole {t : State} (ht : t.input = some rest) : t.HasWholeInput := by
      rintro _ hmem
      rw [ht] at hmem
      cases hmem
      exact hrest
    dsimp only
    rw [hread]
    cases line with
    | none => exact hwhole rfl
    | some line =>
      dsimp only
      split
      · split
        · exact hwhole rfl
        · exact hwhole (keepsControl_write _ target _).input
      · exact hwhole (keepsControl_write _ target _).input

end State

/-- No statement changes a picture, or breaks the input. -/
theorem respected_keepsSources : Respected State.KeepsSources where
  refl _ := ⟨rfl, id⟩
  trans hst htu := ⟨htu.1.trans hst.1, fun hs ↦ htu.2 (hst.2 hs)⟩
  note _ _ := ⟨rfl, id⟩
  act allowance statement s action := by
    refine ⟨(act_writes allowance statement s action).pictures_eq, fun hs ↦ ?_⟩
    by_cases haccept : ∃ target, action = .accept target
    · obtain ⟨target, rfl⟩ := haccept
      exact State.hasWholeInput_acceptLine hs target
    · rw [State.HasWholeInput, input_act (not_exists.1 haccept)]
      exact hs

/-- **What can end a run**: one of the two limits, or the fault of one of its moments. -/
theorem Chained.fault_cases {m : Machine} {s : State} {ms : List Moment} {o : Outcome}
    (h : Chained m s ms o) (hs : s.HasWholeInput) {f : Fault} (hf : o.fault = some f) :
    f = .nesting ∨ f = .endless ∨ ∃ moment ∈ ms, moment.IsFault f := by
  induction h with
  | done => cases hf
  | limit _ hlimit =>
    cases hf
    exact hlimit.imp_right Or.inl
  | @fault moment =>
    exact Or.inr (Or.inr ⟨moment, List.mem_singleton_self _, moment.own_failsOnly m hs f hf⟩)
  | @step moment rest o _ _ _ ih =>
    rcases ih ((respected_keepsSources.own m moment).2 hs) hf with hf | hf | ⟨later, hlater, hf⟩
    · exact Or.inl hf
    · exact Or.inr (Or.inl hf)
    · exact Or.inr (Or.inr ⟨later, List.mem_cons_of_mem _ hlater, hf⟩)

/-! ### Runs -/

/-- The pictures of a store are those that were there or are declared. -/
theorem State.exists_picture_of_declareAll {declarations : List Declaration} {store store' : Store}
    (h : State.declareAll store declarations = .ok store') {name : Text} {p : Picture}
    (hp : store'.picture? name = some p) :
    store.picture? name = some p ∨ ∃ d ∈ declarations, d.picture = p := by
  induction declarations generalizing store with
  | nil =>
    cases h
    exact Or.inl hp
  | cons d rest ih =>
    rw [State.declareAll] at h
    split at h
    · rename_i hdeclare
      rcases ih h with hstore | ⟨e, he, hpicture⟩
      · rw [Store.picture?_declare hdeclare] at hstore
        split at hstore
        · cases hstore
          exact Or.inr ⟨d, List.mem_cons_self .., rfl⟩
        · exact Or.inl hstore
      · exact Or.inr ⟨e, List.mem_cons_of_mem _ he, hpicture⟩
    · cases h

/-- A program declares a text picture that cannot be filled. -/
def Program.DeclaresWide (p : Program) : Prop :=
  ∃ e ∈ p.declarations.entries, e.2.picture.IsWide

/-- A slot that is too wide when a program starts was declared so. -/
theorem State.declaresWide_of_start {p : Program} {input : Option Input} {s : State}
    (h : State.start p input = .ok s) (hwide : s.store.HasWide) : p.DeclaresWide := by
  obtain ⟨store, hstore, rfl⟩ := Except.map_eq_ok_iff.1 h
  obtain ⟨name, picture, hpicture, hwide⟩ := hwide
  rcases State.exists_picture_of_declareAll hstore hpicture with hnone | ⟨d, hd, rfl⟩
  · cases hnone
  · obtain ⟨e, he, rfl⟩ := List.mem_map.1 hd
    exact ⟨e, he, hwide⟩

/-- What can end a run without its output. -/
inductive Session.Escapes (limits : Limits) (lines : List Text) (session : Session) : Fault → Prop
  /-- A number with more digits than may be read or written. -/
  | long {f : Fault} (h : f.IsLong) : Escapes limits lines session f
  /-- Digits without place value in an expression that is evaluated in the run. -/
  | loose {p : Program} {s : State} {moment : Moment} {e u : Text}
      (hparse : Program.parse lines = .ok p) (hstart : State.start p session.input = .ok s)
      (hmoment : moment ∈ moments (p.machine limits) limits.allowance p.procedure s)
      (he : moment.Evaluates e) (hu : u <:+: e) (hloose : IsLoose u) :
      Escapes limits lines session (.noNumeral u)
  /-- A declared field that is too wide to be filled. -/
  | overflow {p : Program} {f : Fault} (hparse : Program.parse lines = .ok p)
      (hwide : p.DeclaresWide) (h : f.IsOverflow) : Escapes limits lines session f

/-- A fault of a run is one of the two limits, or it is a number that is too long, a digit without
place value, or a slot that was declared too wide. -/
theorem Session.escapes_of_execute {limits : Limits} {lines : List Text} {session : Session}
    (hinput : ∀ input ∈ session.input, input.IsWhole) {p : Program}
    (hparse : Program.parse lines = .ok p) {s : State}
    (hstart : State.start p session.input = .ok s) {f : Fault}
    (hf : (p.execute limits s).fault = some f) :
    f = .nesting ∨ f = .endless ∨ Session.Escapes limits lines session f := by
  obtain ⟨store, -, hs⟩ := Except.map_eq_ok_iff.1 hstart
  have hwhole : s.HasWholeInput := by
    rw [← hs]
    exact hinput
  have hchain := chained_moments (p.machine limits) limits.allowance p.procedure
    (show s.running = true by rw [← hs])
  rcases hchain.fault_cases hwhole hf with hf | hf | ⟨moment, hmoment, hf⟩
  · exact Or.inl hf
  · exact Or.inr (Or.inl hf)
  · cases hf with
    | writing hf =>
      refine Or.inr (Or.inr ?_)
      cases hf with
      | long hlong => exact .long hlong
      | overflow hoverflow hwide =>
        -- the pictures at the moment are those of the start, and these are declared
        have hpictures := (respected_keepsSources.chained hchain moment hmoment).1
        refine .overflow hparse (State.declaresWide_of_start hstart ?_) hoverflow
        unfold Store.HasWide Store.picture? at hwide ⊢
        rwa [hpictures] at hwide
    | expression he hf =>
      cases hf with
      | long hlong => exact Or.inr (Or.inr (.long hlong))
      | loose hloose hu => exact Or.inr (Or.inr (.loose hparse hstart hmoment he hu hloose))
      | nesting => exact Or.inl rfl

/-- Every fault but that of nesting is the end of the session's run. -/
theorem Session.outputOf_of_fault {o : Outcome} {f : Fault} (h : o.fault = some f)
    (hne : f ≠ .nesting) : Session.outputOf o = .error f := by
  unfold Session.outputOf
  rw [h]
  split
  · rename_i hnone
    cases hnone
  · rename_i hnesting
    exact absurd (Option.some.inj hnesting) hne
  · rename_i hsome
    rw [Option.some.inj hsome]

/-- **What a run ends in.** A run that finishes, whatever its lines are and with input that can be
read to its end, returns what was written, or it escapes with a number that is too long, with digits
without place value in an expression that it evaluates, or with a field too wide to be filled. No
word of a statement or a condition is asked for that is not there, and no divisor of a statement is
zero where it is used. -/
theorem Session.run_ends (limits : Limits) (lines : List Text) (session : Session)
    (hinput : ∀ input ∈ session.input, input.IsWhole)
    (hends : (Session.run limits lines session).output ≠ .error .endless) :
    ((∃ p s, Program.parse lines = .ok p ∧ State.start p session.input = .ok s ∧
        (Session.run limits lines session).output =
          .ok (p.execute limits s).state.output.toList) ∨
      ∃ f, (Session.run limits lines session).output = .error f ∧
        Session.Escapes limits lines session f) ∧
    (∀ statement, Action.byPlace statement = .ok (Action.ofText statement)) ∧
    (∀ store condition, Condition.byPlace store condition = .ok (Condition.holds store condition)) ∧
    ∀ (operation : Operation) (current amount : Int),
      operation.checked current amount = .ok (operation.apply current amount) := by
  refine ⟨?_, Action.byPlace_eq, Condition.byPlace_eq, Operation.checked_eq⟩
  cases hparse : Program.parse lines with
  | error fault =>
    refine Or.inr ⟨fault, by rw [Session.run, hparse], .long ?_⟩
    exact Program.failsOnly_parse lines fault hparse
  | ok p =>
    cases hstart : State.start p session.input with
    | error fault =>
      refine Or.inr ⟨fault, by simp only [Session.run, hparse, hstart], ?_⟩
      cases State.failsOnly_start p session.input fault hstart with
      | long hlong => exact .long hlong
      | overflow hoverflow hwide => exact .overflow hparse hwide hoverflow
    | ok s =>
      have hrun : (Session.run limits lines session).output =
          Session.outputOf (p.execute limits s) := by
        simp only [Session.run, hparse, hstart]
      rw [hrun] at hends ⊢
      cases hfault : (p.execute limits s).fault with
      | none => exact Or.inl ⟨p, s, rfl, hstart, by rw [Session.outputOf, hfault]⟩
      | some f =>
        -- the limit on nesting keeps the output, and the limit on passes is excluded
        by_cases hnesting : f = .nesting
        · exact Or.inl ⟨p, s, rfl, hstart, by rw [Session.outputOf, hfault, hnesting]⟩
        · have hout := Session.outputOf_of_fault hfault hnesting
          rcases Session.escapes_of_execute hinput hparse hstart hfault with rfl | rfl | hescapes
          · exact absurd rfl hnesting
          · exact absurd hout hends
          · exact Or.inr ⟨f, hout, hescapes⟩

/-- A program of malformed statements that ends at a digit without place value. -/
def looseLines : List Text :=
  ["PROCEDURE DIVISION.", "GO TO", ". GOTO .", "ELSE", "DIVIDE 0 INTO", "DIVIDE 0 INTO X.",
   "IF X", "END-IF.", "ACCEPT X.", "COMPUTE X = 1 / (2 - 2).", "COMPUTE X = X + 1²."].map
    String.toList

/-- The run takes every malformed statement and ends at the digit, although a queue of input and a
division by zero in an expression come before it. -/
theorem Session.run_ends_loose :
    (Session.run ⟨9, 9⟩ looseLines { input := some (.queue ["7".toList]) }).output =
        .error (.noNumeral "1²".toList) ∧
      ∃ f, (Session.run ⟨9, 9⟩ looseLines { input := some (.queue ["7".toList]) }).output =
          .error f ∧
        Session.Escapes ⟨9, 9⟩ looseLines { input := some (.queue ["7".toList]) } f := by
  have hrun : (Session.run ⟨9, 9⟩ looseLines { input := some (.queue ["7".toList]) }).output =
      .error (.noNumeral "1²".toList) := by decide +kernel
  have hinput : ∀ input ∈ some (Input.queue ["7".toList]), input.IsWhole := by
    rintro _ ⟨⟩
    trivial
  have hends := Session.run_ends ⟨9, 9⟩ looseLines { input := some (.queue ["7".toList]) } hinput
    (by rw [hrun]; decide)
  refine ⟨hrun, hends.1.resolve_left ?_⟩
  rintro ⟨p, s, -, -, houtput⟩
  rw [hrun] at houtput
  cases houtput

end Cobol
