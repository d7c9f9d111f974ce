import Cobol.Proofs.Block.Written
import Cobol.Proofs.Literal
import Cobol.Proofs.Store
import Mathlib.Data.List.DropRight

/-!
# The text of a slot as a subject

The subject of `EVALUATE` on a slot with a text is that text without the blanks at its end, and a
quoted literal is compared with it as it is. A slot that is declared holds its texts filled with
spaces, so the two meet in the text that was written, without the blanks at its end
(`evaluate_stored`): a literal is recognised if and only if it is that text.

The blanks that are dropped are those of every kind, and they are dropped on one side only. So a
text without blanks at its end is recognised by the literal of itself, one with blanks there is not;
and as long as only spaces stand there, no other text is taken for it.

## Shape decisions

* The blanks that a slot is filled with are looked at in one place, where a text that was written is
  found again without them.
* Which literals are recognised is an equivalence. That a text is recognised by itself, or is not,
  is read off it.
-/

namespace Cobol

open Text

/-! ### Literals as branch values -/

namespace Literal

variable (l : Literal)

/-- A written literal can be the value of a branch: a blank in it stands between its quotes. -/
theorem isBranchValue_written : IsBranchValue l.written where
  toIsArgument := isArgument_of_ends rfl l.isBlank_quote l.getLast?_written l.isBlank_quote
    (l.quote_ne (by decide))
  firstOperand_eq := by
    have hoperand := l.firstOperand_written []
    rwa [List.append_nil] at hoperand

/-- No literal is the word for every subject. -/
theorem isOther_written (lines : List Text) : (Branch.mk l.written lines).isOther = false := by
  rw [Branch.isOther, beq_eq_false_iff_ne]
  intro hother
  rcases l.quote_eq with hquote | hquote <;>
    · rw [written, hquote] at hother
      cases (List.cons.inj hother).1

/-- A branch of a literal is taken for its text. -/
theorem selects_written (subject : Subject) (lines : List Text) :
    subject.selects ⟨l.written, lines⟩ = .ok (l.text == subject.text) := by
  have hliteral : Numeral.isLiteral l.written = false :=
    isLiteral_cons_of_isQuote l.isQuote_quote _
  simp only [Subject.selects, l.isOther_written, Bool.false_eq_true, if_false, hliteral,
    l.isQuoted_written, if_true, l.unquote_written]

end Literal

/-! ### What is stored -/

/-- A text picture fills a short text with spaces. -/
theorem Picture.eq_of_coerce {p : Picture} (hp : p.isNumeric = false) {t : Text}
    (hlength : t.length ≤ p.width) {w : Value} (h : p.coerce (.text t) = .ok w) :
    w = .text (t ++ List.replicate (p.width - t.length) ' ') := by
  rw [coerce_of_shown hp rfl] at h
  obtain ⟨u, hfit, rfl⟩ := Except.map_eq_ok_iff.1 h
  rw [Field.eq_of_fit hfit, Text.fit, List.take_of_length_le hlength]

/-- The slot of a text picture holds a short text filled with spaces. -/
theorem Store.get?_of_set {store store' : Store} {name : Text} {p : Picture}
    (hp : store.picture? name = some p) (htext : p.isNumeric = false) {t : Text}
    (hlength : t.length ≤ p.width) (hset : store.set name (.text t) = .ok store') :
    store'.values.get? (key name) =
      some (.text (t ++ List.replicate (p.width - t.length) ' ')) := by
  obtain ⟨w, hw, rfl⟩ := set_eq_ok_iff.1 hset
  rw [coerce, hp] at hw
  rw [Table.get?_put, if_pos rfl, p.eq_of_coerce htext hlength hw]

/-- As a subject the slot is the text without the blanks at its end. -/
theorem Subject.ofText_of_set {store store' : Store} {name : Text} {p : Picture}
    (hp : store.picture? name = some p) (htext : p.isNumeric = false) {t : Text}
    (hlength : t.length ≤ p.width) (hset : store.set name (.text t) = .ok store')
    (hname : isQuoted name = false) (allowance : Nat) :
    Subject.ofText store' allowance name = .ok (⟨none, trimRight t⟩, none) := by
  have hslot := Store.get?_of_set hp htext hlength hset
  have hspaces : AllBlank (List.replicate (p.width - t.length) ' ') := fun c hc ↦ by
    rw [List.eq_of_mem_replicate hc]
    rfl
  rw [Subject.ofText, hname, if_neg Bool.false_ne_true, Store.contains_of_get? hslot,
    Store.get_of_get? hslot]
  dsimp only
  rw [trimRight_append_of_allBlank t hspaces]

/-! ### What is recognised -/

/-- The text without the spaces at its end. -/
def withoutSpaces (t : Text) : Text :=
  t.rdropWhile (· == ' ')

/-- The block with one branch, for the literal. -/
def branchOn (name : Text) (l : Literal) (body : List Text) : List Text :=
  evaluateLines name [⟨l.written, body⟩]

/-- **A literal is recognised if it is the text that was stored, without the blanks at its end**,
and not otherwise. So the literal of a stored text is recognised if no blanks stand at its end; and
if no other blanks than spaces stand there, the literal of a text that differs in more than the
spaces at its end is not. -/
theorem evaluate_stored (m : Machine) {s : State} (hs : s.running = true) {name : Text}
    (hname : IsArgument name) (hquoted : isQuoted name = false) {store : Store} {p : Picture}
    (hp : store.picture? name = some p) (htext : p.isNumeric = false) {t : Text}
    (hlength : t.length ≤ p.width) (hset : store.set name (.text t) = .ok s.store)
    {body : List Text} (hbody : BlockKind.choice.Closed body) (l : Literal) (allowance : Nat)
    (more : List Text) :
    executeBlock m (allowance + 1) (branchOn name l body ++ more) s =
        (if l.text = trimRight t then executeBlock m allowance body s else s.done).andThen
          (executeBlock m (allowance + 1) more) ∧
      (trimRight t = t → l.text = t →
        executeBlock m (allowance + 1) (branchOn name l body ++ more) s =
          (executeBlock m allowance body s).andThen (executeBlock m (allowance + 1) more)) ∧
      (trimRight t = withoutSpaces t → withoutSpaces l.text ≠ withoutSpaces t →
        executeBlock m (allowance + 1) (branchOn name l body ++ more) s =
          executeBlock m (allowance + 1) more s) := by
  have hsubject := Subject.ofText_of_set hp htext hlength hset hquoted allowance
  have hselect : (Subject.mk none (trimRight t)).select [⟨l.written, body⟩] =
      .ok (if l.text = trimRight t then some body else none) := by
    show (Subject.selects _ ⟨l.written, body⟩ >>= _) = _
    rw [l.selects_written]
    by_cases h : l.text = trimRight t
    · rw [if_pos h, beq_iff_eq.2 h]
      rfl
    · rw [if_neg h, beq_eq_false_iff_ne.2 h]
      rfl
  have hblock : executeBlock m (allowance + 1) (branchOn name l body ++ more) s =
      (if l.text = trimRight t then executeBlock m allowance body s else s.done).andThen
        (executeBlock m (allowance + 1) more) := by
    rw [branchOn, executeBlock_evaluateLines_of_select m allowance more hs hname
      (List.forall_mem_singleton.2 l.isBranchValue_written) (List.forall_mem_singleton.2 hbody)
      hsubject hselect]
    split <;> rfl
  refine ⟨hblock, fun htrim hl ↦ ?_, fun htrim hne ↦ ?_⟩
  · rw [hblock, if_pos (by rw [htrim, hl])]
  · -- texts that differ in more than trailing spaces differ in what is stored of them
    have hother : l.text ≠ trimRight t := fun hl ↦ hne (by
      rw [hl, htrim, withoutSpaces, withoutSpaces, List.rdropWhile_idempotent])
    rw [hblock, if_neg hother]
    rfl

/-- A slot of three characters that holds spaces, or a text filled with spaces. -/
def slotOf (t : Text) : Store where
  values := ⟨[("V".toList, .text t)]⟩
  pictures := ⟨[("V".toList, ⟨false, 3⟩)]⟩

/-- A text shorter than its slot is recognised. -/
theorem evaluate_stored_padded :
    (slotOf "   ".toList).set "V".toList (.text "AB".toList) = .ok (slotOf "AB ".toList) ∧
      executeBlock ⟨{}, 1⟩ (8 + 1) (branchOn "V".toList
          ⟨'\'', "AB".toList, isQuote_apostrophe, by decide⟩ ["DISPLAY 'Y'.".toList] ++
            ["DISPLAY 'Z'.".toList]) { store := slotOf "AB ".toList } =
        (executeBlock ⟨{}, 1⟩ 8 ["DISPLAY 'Y'.".toList] { store := slotOf "AB ".toList }).andThen
          (executeBlock ⟨{}, 1⟩ (8 + 1) ["DISPLAY 'Z'.".toList]) := by
  have hset : (slotOf "   ".toList).set "V".toList (.text "AB".toList) =
      .ok (slotOf "AB ".toList) := by decide +kernel
  have hpicture : (slotOf "   ".toList).picture? "V".toList = some ⟨false, 3⟩ := by decide +kernel
  have hbody : BlockKind.choice.Closed ["DISPLAY 'Y'.".toList] := by decide +kernel
  have hstored := evaluate_stored ⟨{}, 1⟩ (s := { store := slotOf "AB ".toList }) rfl
    (by decide +kernel) (by decide) hpicture rfl (by decide) hset hbody
    ⟨'\'', "AB".toList, isQuote_apostrophe, by decide⟩ 8 ["DISPLAY 'Z'.".toList]
  exact ⟨hset, hstored.2.1 (by decide +kernel) rfl⟩

-- A text with spaces at its end fills the slot, and its own literal is not recognised.
example : (executeBlock ⟨{}, 1⟩ 9 (branchOn "V".toList
    ⟨'\'', "A  ".toList, isQuote_apostrophe, by decide⟩ ["DISPLAY 'Y'.".toList])
    { store := slotOf "A  ".toList }).state.output = #[] := by decide +kernel

-- A tab at the end is dropped like a space, and the literal of another text is recognised.
example : (executeBlock ⟨{}, 1⟩ 9 (branchOn "V".toList
    ⟨'\'', "A".toList, isQuote_apostrophe, by decide⟩ ["DISPLAY 'Y'.".toList])
    { store := slotOf "A\t ".toList }).state.output = #["Y".toList] := by decide +kernel

end Cobol
