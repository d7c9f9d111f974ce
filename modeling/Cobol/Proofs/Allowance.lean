import Cobol.Proofs.Expression.Evaluation
import Cobol.Proofs.Trace

/-!
# The limits do not show

The allowance for nesting and the number of passes that a loop may make are resources and not a part
of what a program means: an execution that meets neither limit ends in the same state, and with the
same fault if any, under every larger allowance and with every greater number of passes
(`outlasts_executeBlock`). One that does not run out of its allowance ends alike under every larger
one (`widens_executeBlock`).

The proof lifts one relation through the executor. `Outlasts limit f g` says that `g` does what `f`
does wherever `f` does not end in a fault of the limit; it is kept by everything that executions are
built from. The allowance is compared with anything only by the parentheses of an expression
(`Expression.evaluate_add`) and by a block with an empty one, the passes only by a loop without any.

## Shape decisions

* The limit is a parameter of `Outlasts`, so that the allowance and the passes are treated by one
  relation. What counts as running out is said by the statement that uses it.
* An execution that does run out promises nothing: it may have written and shown something first,
  and under a larger limit it goes on from there. So nothing is said about its outcome.
* A block of lines is executed by recursion on the allowance, and its lines by recursion on the
  lines that are left. The induction of `outlasts_executeBlock` follows the first and hands
  `outlasts_executeLines` what it needs of the blocks inside.
-/

namespace Cobol

open Text

/-- The execution did not run out of its allowance. -/
def Outcome.Fits (o : Outcome) : Prop :=
  o.fault ≠ some .nesting

instance (o : Outcome) : Decidable o.Fits :=
  inferInstanceAs (Decidable (o.fault ≠ some .nesting))

/-- The second execution does what the first does, unless the first runs out of its allowance. -/
def Widens (f g : State → Outcome) : Prop :=
  ∀ s, (f s).Fits → g s = f s

theorem State.not_fits_fail_nesting (s : State) : ¬(s.fail .nesting).Fits := fun h ↦ h rfl

/-- Where something that goes on has not run out, its first part has not. -/
theorem Outcome.Fits.of_andThen {o : Outcome} {next : State → Outcome} (h : (o.andThen next).Fits) :
    o.Fits := by
  intro hnesting
  rw [Outcome.andThen, hnesting] at h
  exact h hnesting

/-! ### Executions that outlast others -/

/-- The execution did not end in a fault of the limit. -/
def Outcome.StaysWithin (limit : Fault → Prop) (o : Outcome) : Prop :=
  ∀ fault ∈ o.fault, ¬limit fault

/-- The second execution does what the first does, unless the first ends in a fault of the limit. -/
def Outlasts (limit : Fault → Prop) (f g : State → Outcome) : Prop :=
  ∀ s, (f s).StaysWithin limit → g s = f s

variable {limit : Fault → Prop}

/-- Fitting into the allowance is staying within one limit, the allowance for nesting. -/
theorem Outcome.fits_iff (o : Outcome) : o.Fits ↔ o.StaysWithin (.nesting = ·) := by
  obtain ⟨s, fault⟩ := o
  cases fault <;> simp [Fits, StaysWithin, eq_comm]

/-- A fault of the limit is not within the limit. -/
theorem State.not_staysWithin_fail {fault : Fault} (h : limit fault) (s : State) :
    ¬(s.fail fault).StaysWithin limit := fun hs ↦ hs fault rfl h

namespace Outlasts

variable {f g : State → Outcome}

/-- Every execution outlasts itself. -/
theorem refl (f : State → Outcome) : Outlasts limit f f := fun _ _ ↦ rfl

/-- One execution after another outlasts what each of the two outlasts. -/
theorem andThen {f' g' : State → Outcome} (hfg : Outlasts limit f g)
    (hfg' : Outlasts limit f' g') :
    Outlasts limit (fun s ↦ (f s).andThen f') (fun s ↦ (g s).andThen g') := by
  intro s hwithin
  -- without a fault both go on from the same state, and with one both end there
  cases hfault : (f s).fault with
  | none =>
    have hfs : g s = f s := hfg s (by rw [Outcome.StaysWithin, hfault]; nofun)
    have hnext : (f' (f s).state).StaysWithin limit := by
      rwa [← Outcome.andThen_of_none hfault f']
    show (g s).andThen g' = (f s).andThen f'
    rw [hfs, Outcome.andThen_of_none hfault, Outcome.andThen_of_none hfault, hfg' _ hnext]
  | some fault =>
    have hsame (next : State → Outcome) : (f s).andThen next = f s := by
      rw [Outcome.andThen, hfault]
    dsimp only at hwithin ⊢
    rw [hsame] at hwithin ⊢
    rw [hfg s hwithin, hsame]

/-- A program that has stopped does nothing on either side. -/
theorem whileRunning (hfg : Outlasts limit f g) :
    Outlasts limit (fun s ↦ if s.running then f s else s.done)
      (fun s ↦ if s.running then g s else s.done) := by
  intro s hwithin
  dsimp only at hwithin ⊢
  split
  · rw [if_pos ‹_›] at hwithin
    exact hfg s hwithin
  · rfl

/-- A counted loop outlasts the loop over a body that its own body outlasts. -/
theorem repeatTimes (hfg : Outlasts limit f g) (n : Nat) :
    Outlasts limit (repeatTimes f n) (repeatTimes g n) := by
  induction n with
  | zero => exact refl _
  | succ n ih => exact whileRunning (hfg.andThen ih)

/-- A loop outlasts one that may make as many passes, or fewer if running out of them counts. -/
theorem repeatUntil (hfg : Outlasts limit f g) (test : State → Except Fault Bool)
    {passes more : Nat} (h : more = passes ∨ passes ≤ more ∧ limit .endless) :
    Outlasts limit (repeatUntil f test passes) (repeatUntil g test more) := by
  induction passes generalizing more with
  | zero =>
    rcases h with rfl | ⟨-, hendless⟩
    · exact refl _
    · exact fun s hwithin ↦ absurd hwithin (s.not_staysWithin_fail hendless)
  | succ passes ih =>
    obtain ⟨more, rfl⟩ : ∃ n, more = n + 1 := Nat.exists_eq_succ_of_ne_zero (by omega)
    have hrest : Outlasts limit (Cobol.repeatUntil f test passes) (Cobol.repeatUntil g test more) :=
      ih (h.imp Nat.succ.inj fun h ↦ ⟨Nat.le_of_succ_le_succ h.1, h.2⟩)
    refine hfg.andThen (whileRunning fun s hwithin ↦ ?_)
    cases htest : test s with
    | error fault => rfl
    | ok found =>
      rw [htest] at hwithin
      cases found with
      | true => rfl
      | false => exact hrest s hwithin

end Outlasts

/-! ### Statements -/

/-- The subject of a choice is the same under a larger allowance, unless its evaluation runs out. -/
theorem Subject.ofText_add {store : Store} {allowance : Nat} {t : Text}
    (h : Subject.ofText store allowance t ≠ .error .nesting) (more : Nat) :
    Subject.ofText store (allowance + more) t = Subject.ofText store allowance t := by
  unfold Subject.ofText at h ⊢
  split
  · rfl
  · rw [if_neg ‹_›] at h
    split
    · rfl
    · rename_i hother
      split at h
      · exact absurd ‹_› (hother _ ‹_›)
      · have hevaluate : Expression.evaluate store allowance t ≠ .error .nesting := by
          intro hnesting
          rw [hnesting] at h
          exact h rfl
        rw [Expression.evaluate_add hevaluate]

/-- Of the statements that run no lines only `COMPUTE` meets the allowance, in its expression. -/
theorem outlasts_act (hnesting : limit .nesting) (statement : Text) (action : Action)
    (allowance more : Nat) :
    Outlasts limit (act allowance statement · action)
      (act (allowance + more) statement · action) := by
  intro s hwithin
  -- of these actions only `COMPUTE` looks at the allowance
  cases action with
  | compute target expression =>
    have hevaluate : Expression.evaluate s.store allowance expression ≠ .error .nesting := by
      intro hfault
      simp only [act, hfault] at hwithin
      exact s.not_staysWithin_fail hnesting hwithin
    dsimp only [act]
    rw [Expression.evaluate_add hevaluate]
  | _ => rfl

/-- The second machine has the paragraphs of the first and its passes, or more of them if running
out of passes counts. -/
structure IsRoomier (limit : Fault → Prop) (m m' : Machine) : Prop where
  /-- The paragraphs are the same. -/
  paragraphs : m'.paragraphs = m.paragraphs
  /-- There are as many passes, or more. -/
  passes : m'.passes = m.passes ∨ m.passes ≤ m'.passes ∧ limit .endless

/-- Every machine has the room that it has itself. -/
theorem IsRoomier.refl (m : Machine) : IsRoomier limit m m := ⟨rfl, Or.inl rfl⟩

section

variable {m m' : Machine} (hroom : IsRoomier limit m m')
  {nested wider : List Text → State → Outcome}
  (hnested : ∀ lines, Outlasts limit (nested lines) (wider lines))

include hroom hnested

/-- A call of a paragraph outlasts the call on a machine with less room: the paragraph is the same,
and the loop around it makes as many passes or more. -/
theorem outlasts_runParagraph (label : Text) (repetition : Repetition) :
    Outlasts limit (runParagraph m nested label repetition)
      (runParagraph m' wider label repetition) := by
  intro s hwithin
  unfold runParagraph at hwithin ⊢
  rw [hroom.paragraphs]
  cases hbody : m.paragraphs.get? (upper label) with
  | none => rfl
  | some body =>
    rw [hbody] at hwithin
    cases repetition with
    | once => exact hnested body s hwithin
    | times count =>
      dsimp only at hwithin ⊢
      cases hcount : operandValue s.store count >>= Value.integer with
      | error fault => rfl
      | ok n =>
        rw [hcount] at hwithin
        exact (hnested body).repeatTimes n.toNat s hwithin
    | untilTrue condition => exact (hnested body).repeatUntil _ hroom.passes s hwithin

variable (hnesting : limit .nesting) (allowance more : Nat)

include hnesting

/-- What one statement runs outlasts what it runs under a smaller allowance, if the blocks inside
do. -/
theorem outlasts_perform (statement : Text) (following : List Text) (action : Action) :
    Outlasts limit (perform m allowance nested statement following · action)
      (perform m' (allowance + more) wider statement following · action) := by
  intro s hwithin
  cases action with
  | branch condition =>
    dsimp only [perform] at hwithin ⊢
    cases hholds : Condition.holds s.store condition with
    | error fault => rfl
    | ok found =>
      rw [hholds] at hwithin
      cases found <;> exact hnested _ s hwithin
  | choose subject =>
    dsimp only [perform] at hwithin ⊢
    cases hsubject : Subject.ofText s.store allowance subject with
    | error fault =>
      rw [hsubject] at hwithin
      -- a subject that fails within the smaller allowance fails for another reason
      rw [Subject.ofText_add (fun heq ↦ hwithin fault rfl ?_), hsubject]
      rw [hsubject] at heq
      exact Except.error.inj heq ▸ hnesting
    | ok found =>
      obtain ⟨subject, remark⟩ := found
      rw [hsubject] at hwithin
      rw [Subject.ofText_add (by rw [hsubject]; nofun), hsubject]
      dsimp only at hwithin ⊢
      cases hselect : subject.select (EvaluateBlock.split following).branches with
      | error fault => rfl
      | ok lines =>
        rw [hselect] at hwithin
        cases lines with
        | none => rfl
        | some lines => exact hnested lines _ hwithin
  | perform label repetition =>
    exact outlasts_runParagraph hroom hnested label repetition s hwithin
  | _ => exact outlasts_act hnesting statement _ allowance more s hwithin

/-- Lines outlast the same lines under a smaller allowance, if the blocks inside do. A statement
takes some of the lines behind it, so the induction is on the number of lines that are left. -/
theorem outlasts_executeLines : ∀ lines : List Text,
    Outlasts limit (executeLines m allowance nested lines)
      (executeLines m' (allowance + more) wider lines)
  | [] => fun s _ ↦ by rw [executeLines, executeLines]
  | line :: following => fun s hwithin ↦ by
    have hline : Outlasts limit (execute m allowance nested line following)
        (execute m' (allowance + more) wider line following) :=
      outlasts_perform hroom hnested hnesting allowance more (trim line) following
        (Action.ofText (trim line))
    have hrest := outlasts_executeLines (unread line following)
    rw [executeLines] at hwithin
    rw [executeLines, executeLines]
    exact Outlasts.whileRunning (hline.andThen hrest) s hwithin
termination_by lines => lines.length
decreasing_by exact Nat.lt_succ_of_le (length_unread_le line following)

end

/-! ### Blocks -/

/-- **The limits do not show** in an execution that stays within them. -/
theorem outlasts_executeBlock (hnesting : limit .nesting) {m m' : Machine}
    (hroom : IsRoomier limit m m') (allowance more : Nat) (lines : List Text) :
    Outlasts limit (executeBlock m allowance lines)
      (executeBlock m' (allowance + more) lines) := by
  induction allowance generalizing lines with
  -- without an allowance a block runs out at once, whatever it holds
  | zero => exact fun s hwithin ↦ absurd hwithin (s.not_staysWithin_fail hnesting)
  | succ allowance ih =>
    rw [Nat.add_right_comm]
    exact outlasts_executeLines hroom ih hnesting allowance more lines

/-- **The allowance does not show** in an execution that does not run out of it. -/
theorem widens_executeBlock (m : Machine) (allowance more : Nat) (lines : List Text) :
    Widens (executeBlock m allowance lines) (executeBlock m (allowance + more) lines) := by
  have houtlasts : Outlasts (.nesting = ·) (executeBlock m allowance lines)
      (executeBlock m (allowance + more) lines) :=
    outlasts_executeBlock rfl (IsRoomier.refl m) allowance more lines
  exact fun s hfits ↦ houtlasts s ((Outcome.fits_iff _).1 hfits)

/-- The allowance does not show in lines in front of other lines either. -/
theorem executeBlock_andThen_of_fits (m : Machine) {a b c d : Nat} (hab : a ≤ b) (hcd : c ≤ d)
    {lines more : List Text} {s : State}
    (hfits : ((executeBlock m a lines s).andThen (executeBlock m c more)).Fits) :
    (executeBlock m b lines s).andThen (executeBlock m d more) =
      (executeBlock m a lines s).andThen (executeBlock m c more) := by
  obtain ⟨k, rfl⟩ := Nat.exists_eq_add_of_le hab
  obtain ⟨l, rfl⟩ := Nat.exists_eq_add_of_le hcd
  have hlines : Outlasts (.nesting = ·) (executeBlock m a lines) (executeBlock m (a + k) lines) :=
    outlasts_executeBlock rfl (.refl m) a k lines
  have hmore : Outlasts (.nesting = ·) (executeBlock m c more) (executeBlock m (c + l) more) :=
    outlasts_executeBlock rfl (.refl m) c l more
  exact hlines.andThen hmore s ((Outcome.fits_iff _).1 hfits)

end Cobol
