import Cobol.Proofs.Declaration.Clause
import Cobol.Proofs.Display
import Cobol.Proofs.Numeral
import Cobol.Proofs.TypedRun

/-!
# Programs with declarations

A program whose declarations are written one or several to a line has exactly these declarations, in
order, and starts with a slot for each (`Program.parse_declarations`).

* `DeclarationLine` is a line of declarations, with its margins and the blanks between them. Its
  sentences are its declarations (`DeclarationLine.sentences_content`), and it opens no division.
* `WrittenDeclaration.exists_initial_iff`: a slot has an initial value unless its picture is a text
  that is too wide to exist. The digits and texts of a value are short enough to be converted.
* `State.exists_declareAll`: slots of distinct names start with their own initial values.

## Shape decisions

* Blanks and margins are part of a layout, so a layout is one program text and every program text of
  the shape is a layout.
* The number of a line is part of a declaration. It is given when the lines are numbered, and the
  theorem says which numbers these are.
* The start is said by an equivalence, because a picture may be too wide for any text. What the
  slots hold is said of every state with which the program starts.
-/

namespace Cobol

open Text

/-! ### Sentences -/

namespace WrittenDeclaration

/-- Names and pictures hold nothing that would cut a sentence or begin a comment. -/
theorem isPart_of_isFormChar {t : Text} (h : ∀ c ∈ t, isFormChar c = true) : Sentence.IsPart t := by
  refine Sentence.isPart_of_forall fun c hc ↦ ?_
  obtain ⟨-, -, hperiod, hstar, hquote⟩ := plain_of_isFormChar (h c hc)
  exact ⟨hquote, hstar, hperiod⟩

/-- No value cuts a sentence or begins a comment: what looks like it is between quotes. -/
theorem isPart_value (v : WrittenValue) : Sentence.IsPart v.written := by
  cases v with
  | number sign digits hsign hshort =>
    have hpart : Sentence.IsPart sign := by
      rcases hsign with rfl | rfl | rfl
      · exact .nil
      · exact Sentence.isPart_of_forall (by decide)
      · exact Sentence.isPart_of_forall (by decide)
    exact hpart.append (isPart_of_isFormChar digits.isFormChar)
  | literal l hshort => exact l.isPart_written

/-- No part of a declaration in front of its period cuts the sentence, and none begins a comment. -/
theorem isPart_body (d : WrittenDeclaration) : Sentence.IsPart d.body := by
  have hspace : Sentence.IsPart [' '] := Sentence.isPart_of_allBlank (by decide)
  have hpic : Sentence.IsPart "PIC".toList := Sentence.isPart_of_forall (by decide)
  have hclause : Sentence.IsPart d.valueClause := by
    rw [valueClause]
    cases d.value with
    | none => exact .nil
    | some v =>
      have hvalue : Sentence.IsPart "VALUE".toList := Sentence.isPart_of_forall (by decide)
      exact hspace.append (hvalue.append (hspace.append (isPart_value v)))
  exact (isPart_of_isFormChar d.level.isFormChar).append (hspace.append
    ((isPart_of_isFormChar d.isFormChar_name).append (hspace.append (hpic.append (hspace.append
      ((isPart_of_isFormChar d.picture.isFormChar_written).append hclause))))))

/-- A declaration begins with the digit of its level. -/
theorem exists_written_eq_cons (d : WrittenDeclaration) :
    ∃ c t, d.written = c :: t ∧ c.isDigit = true := by
  obtain ⟨c, t, hlevel⟩ := List.exists_cons_of_ne_nil d.level.ne_nil
  have hdigit : c.isDigit = true := d.level.isDigit c (hlevel ▸ List.mem_cons_self)
  rw [written, body, hlevel, List.cons_append, List.cons_append]
  exact ⟨c, _, rfl, hdigit⟩

/-- A digit is no blank. -/
theorem isBlank_of_isDigit {c : Char} (h : c.isDigit = true) : isBlank c = false :=
  (plain_of_isLabelChar (isLabelChar_of_isDigit h)).2.1

/-- A written declaration is one sentence, from its level to its period. -/
theorem isSentence_written (d : WrittenDeclaration) : Sentence.IsSentence d.written := by
  obtain ⟨c, t, hcons, hdigit⟩ := d.exists_written_eq_cons
  have hhead : d.written.head? = some c := by rw [hcons]; rfl
  exact ⟨⟨d.body, rfl, d.isPart_body⟩,
    trim_eq_self hhead (isBlank_of_isDigit hdigit) List.getLast?_concat (by decide)⟩

end WrittenDeclaration

/-! ### Lines -/

/-- A line of declarations. -/
structure DeclarationLine where
  /-- The blanks in front of the first declaration. -/
  indent : Blanks := ⟨[], .nil⟩
  /-- The first declaration. -/
  first : WrittenDeclaration
  /-- The other declarations, with the blanks in front of them. -/
  more : List (Gap × WrittenDeclaration) := []
  /-- The blanks behind the last declaration. -/
  trail : Blanks := ⟨[], .nil⟩

namespace DeclarationLine

/-- The declarations of the line. -/
def declarations (l : DeclarationLine) : List WrittenDeclaration :=
  l.first :: l.more.map (·.2)

/-- The declarations of the line as they are written. -/
def content (l : DeclarationLine) : Text :=
  Sentence.spread l.first.written (l.more.map fun e ↦ (e.1, e.2.written))

/-- The line as it is written. -/
def written (l : DeclarationLine) : Text :=
  l.indent.1 ++ (l.content ++ l.trail.1)

theorem isSentence_more (l : DeclarationLine) :
    ∀ e ∈ l.more.map fun e ↦ (e.1, e.2.written), Sentence.IsSentence e.2 := by
  rintro _ he
  obtain ⟨e, -, rfl⟩ := List.mem_map.1 he
  exact e.2.isSentence_written

/-- **The sentences of a line are its declarations**, in order. -/
theorem sentences_content (l : DeclarationLine) :
    Sentence.sentences l.content = l.declarations.map WrittenDeclaration.written := by
  rw [content, Sentence.sentences_spread l.first.isSentence_written l.isSentence_more, declarations,
    List.map_cons, List.map_map, List.map_map]
  rfl

/-- The content of a line begins with a digit. -/
theorem exists_content_eq_cons (l : DeclarationLine) :
    ∃ c t, l.content = c :: t ∧ c.isDigit = true := by
  obtain ⟨c, t, hcons, hdigit⟩ := l.first.exists_written_eq_cons
  rw [content, Sentence.spread, hcons, List.cons_append]
  exact ⟨c, _, rfl, hdigit⟩

/-- The content of a line holds no comment, and is no comment line. -/
theorem isContent_content (l : DeclarationLine) : Sentence.IsContent l.content := by
  obtain ⟨c, t, hcons, hdigit⟩ := l.exists_content_eq_cons
  have hhead : l.content.head? = some c := by rw [hcons]; rfl
  refine Sentence.isContent_spread l.first.isSentence_written l.isSentence_more hhead
    (WrittenDeclaration.isBlank_of_isDigit hdigit) ?_
  rintro rfl
  exact absurd hdigit (by decide)

/-- Margins and comments of a line are dropped, and what is left is its declarations. -/
theorem content_written (l : DeclarationLine) : Sentence.content l.written = l.content := by
  rw [written, Sentence.content_indented l.indent.2, Sentence.content_trailing _ l.trail.2,
    l.isContent_content.content_eq]

/-- A line of declarations opens neither the procedure division nor a part with declarations. -/
theorem opens_content (l : DeclarationLine) :
    Program.opensProcedure l.content = false ∧ Program.opensData l.content = false := by
  obtain ⟨c, t, hcons, hdigit⟩ := l.exists_content_eq_cons
  have hupper : upper l.content = c :: upper t := by
    rw [hcons, upper, List.flatMap_cons, (plain_of_isLabelChar (isLabelChar_of_isDigit hdigit)).1]
    rfl
  have hmarker : ∀ marker : Text, marker.head?.any (!·.isDigit) = true →
      marker.isPrefixOf (upper l.content) = false := by
    rintro (_ | ⟨a, marker⟩) hhead
    · cases hhead
    have ha : a ≠ c := by
      rintro rfl
      rw [List.head?_cons, Option.any_some, hdigit] at hhead
      cases hhead
    rw [hupper, List.isPrefixOf_cons_cons, beq_eq_false_iff_ne.2 ha, Bool.false_and]
  refine ⟨hmarker _ (by decide), ?_⟩
  rw [Program.opensData, List.any_cons, List.any_cons, List.any_cons, List.any_nil,
    hmarker _ (by decide), hmarker _ (by decide), hmarker _ (by decide)]
  rfl

end DeclarationLine

/-! ### Programs -/

/-- The line that opens the part with declarations. -/
def dataHeader : Text :=
  "WORKING-STORAGE SECTION.".toList

/-- A program with lines of declarations, and what follows them. -/
def declaring (layout : List DeclarationLine) (after : List Text) : List Text :=
  dataHeader :: (layout.map DeclarationLine.written ++ procedureHeader :: after)

/-- All declarations of lines, with the numbers of their lines. -/
def numbered (layout : List DeclarationLine) (number : Nat) : List (Nat × WrittenDeclaration) :=
  (layout.zipIdx number).flatMap fun l ↦ l.1.declarations.map (l.2, ·)

/-- The declarations of the first line come first, with its number. -/
theorem numbered_cons (l : DeclarationLine) (layout : List DeclarationLine) (number : Nat) :
    numbered (l :: layout) number =
      l.declarations.map (number, ·) ++ numbered layout (number + 1) := by
  rw [numbered, List.zipIdx_cons, List.flatMap_cons]
  rfl

/-- Numbering lines does not touch the declarations. -/
theorem map_snd_numbered (layout : List DeclarationLine) (number : Nat) :
    (numbered layout number).map (·.2) = layout.flatMap DeclarationLine.declarations := by
  induction layout generalizing number with
  | nil => rfl
  | cons l layout ih =>
    rw [numbered_cons, List.map_append, ih, List.flatMap_cons, List.map_map]
    congr 1
    exact List.map_id _

/-- What is left of the written program is its two headers with the contents of its lines. -/
theorem normalize_declaring (layout : List DeclarationLine) (after : List Text) :
    Sentence.normalize (declaring layout after) =
      dataHeader :: (layout.map DeclarationLine.content ++
        procedureHeader :: Sentence.normalize after) := by
  have hcontents : Sentence.normalize (layout.map DeclarationLine.written) =
      layout.map DeclarationLine.content := by
    have hmap : (layout.map DeclarationLine.written).map Sentence.content =
        layout.map DeclarationLine.content := by
      rw [List.map_map]
      exact List.map_congr_left fun l _ ↦ l.content_written
    rw [Sentence.normalize, hmap, List.filter_eq_self]
    intro t ht
    obtain ⟨l, -, rfl⟩ := List.mem_map.1 ht
    simpa using l.isContent_content.ne_nil
  have hheader {line : Text} (hline : Sentence.normalize [line] = [line]) (rest : List Text) :
      Sentence.normalize (line :: rest) = line :: Sentence.normalize rest := by
    rw [← List.singleton_append, Sentence.normalize_append, hline]
    rfl
  rw [declaring, hheader (by decide), Sentence.normalize_append, hcontents, hheader (by decide)]

/-- The sentences of the part with declarations are the declarations. -/
theorem dataSentences_contents (layout : List DeclarationLine) (number : Nat) (rest : List Text) :
    Program.dataSentences number true
        (layout.map DeclarationLine.content ++ procedureHeader :: rest) =
      (numbered layout number).map fun e ↦ (e.1, e.2.written) := by
  induction layout generalizing number with
  | nil => rfl
  | cons l layout ih =>
    obtain ⟨hprocedure, hdata⟩ := l.opens_content
    rw [List.map_cons, List.cons_append, Program.dataSentences, hprocedure, hdata,
      if_neg (by decide), if_neg (by decide), if_pos rfl, ih, l.sentences_content, numbered_cons,
      List.map_append, List.map_map, List.map_map]
    rfl

/-- The sentences of the data part are the declarations, each with the number of its line. The
header is the first line, so they start at two. -/
theorem dataSentences_declaring (layout : List DeclarationLine) (after : List Text) :
    Program.dataSentences 1 false (Sentence.normalize (declaring layout after)) =
      (numbered layout 2).map fun e ↦ (e.1, e.2.written) := by
  have hheader : Program.opensProcedure dataHeader = false ∧
      Program.opensData dataHeader = true := by
    decide
  rw [normalize_declaring, Program.dataSentences, hheader.1, hheader.2, if_neg (by decide),
    if_pos rfl]
  exact dataSentences_contents layout 2 _

/-- Declarations of distinct names are added in order. -/
theorem declare_written {table : Table Declaration} {ds : List (Nat × WrittenDeclaration)}
    (h : (table.names ++ ds.map fun e ↦ e.2.name).Nodup) :
    Program.declare table (ds.map fun e ↦ (e.1, e.2.written)) =
      .ok ⟨table.entries ++ ds.map fun e ↦ (e.2.name, e.2.declared e.1)⟩ := by
  induction ds generalizing table with
  | nil =>
    rw [List.map_nil, List.map_nil, List.append_nil]
    rfl
  | cons e ds ih =>
    have hput : table.put e.2.name (e.2.declared e.1) =
        ⟨table.entries ++ [(e.2.name, e.2.declared e.1)]⟩ := by
      refine congrArg Table.mk (Table.putEntry_of_not_mem (fun hmem ↦ ?_) _)
      exact (List.nodup_append.1 h).2.2 e.2.name hmem e.2.name (by simp) rfl
    rw [List.map_cons, Program.declare, e.2.ofSentence_written]
    show Program.declare (table.put e.2.name (e.2.declared e.1)) _ = _
    rw [hput, ih, List.append_assoc]
    · rfl
    · simpa [Table.names] using h

/-! ### Initial values -/

/-- The value with which the slot of a declaration starts. -/
def Declaration.initial (d : Declaration) : Except Fault Value :=
  match d.value with
  | none => d.picture.blank
  | some v => d.picture.coerce v

/-- Registering a picture does not change the initial value of its slot. -/
theorem Store.initial_register_eq (s : Store) (d : Declaration) :
    (s.register d.name d.picture).initial d.name d.picture d.value = d.initial := by
  rw [Declaration.initial]
  cases d.value with
  | none => rfl
  | some v => rw [Store.initial, coerce_key, coerce, picture?_register, if_pos rfl]

/-- A declaration with an initial value gives a slot that holds it. -/
theorem Store.declare_of_initial (s : Store) {d : Declaration} {w : Value}
    (h : d.initial = .ok w) :
    s.declare d.name d.picture d.value =
      ({ s.register d.name d.picture with values := s.values.put (key d.name) w }, none) := by
  rw [declare, initial_register_eq, h]

/-- Slots of distinct names start with their own initial values, and no other slot is touched. -/
theorem State.exists_declareAll {declarations : List Declaration}
    (hkeys : (declarations.map fun d ↦ Store.key d.name).Nodup)
    (h : ∀ d ∈ declarations, ∃ w, d.initial = .ok w) (store : Store) :
    ∃ store', State.declareAll store declarations = .ok store' ∧
      (∀ d ∈ declarations, ∀ w, d.initial = .ok w →
        store'.values.get? (Store.key d.name) = some w) ∧
      ∀ key, (∀ d ∈ declarations, Store.key d.name ≠ key) →
        store'.values.get? key = store.values.get? key := by
  induction declarations generalizing store with
  | nil => exact ⟨store, rfl, nofun, fun _ _ ↦ rfl⟩
  | cons d rest ih =>
    obtain ⟨hd, hrest⟩ := List.nodup_cons.1 hkeys
    obtain ⟨⟨w, hw⟩, hall⟩ := List.forall_mem_cons.1 h
    obtain ⟨store', hstore, hvalues, hother⟩ := ih hrest hall
      { store.register d.name d.picture with values := store.values.put (Store.key d.name) w }
    have hkey : ∀ e ∈ rest, Store.key e.name ≠ Store.key d.name := fun e he heq ↦
      hd (List.mem_map.2 ⟨e, he, heq⟩)
    refine ⟨store', ?_, List.forall_mem_cons.2 ⟨fun w' hw' ↦ ?_, hvalues⟩, fun key hne ↦ ?_⟩
    · rw [declareAll, store.declare_of_initial hw]
      exact hstore
    · rw [hw] at hw'
      cases hw'
      rw [hother _ hkey]
      simp
    · obtain ⟨hne, hrestNe⟩ := List.forall_mem_cons.1 hne
      rw [hother key hrestNe]
      simp [Ne.symm hne]

/-- Slots start only if each has an initial value. -/
theorem State.initial_of_declareAll {declarations : List Declaration} {store store' : Store}
    (h : State.declareAll store declarations = .ok store') :
    ∀ d ∈ declarations, ∃ w, d.initial = .ok w := by
  induction declarations generalizing store with
  | nil => nofun
  | cons d rest ih =>
    rw [declareAll] at h
    split at h
    · rename_i hdeclare
      refine List.forall_mem_cons.2 ⟨?_, ih h⟩
      rw [Store.declare, Store.initial_register_eq] at hdeclare
      split at hdeclare
      · exact ⟨_, ‹_›⟩
      · cases hdeclare
    · cases h

namespace Picture

/-- A text picture is too wide exactly from the limit on. -/
theorem not_isWide_iff {p : Picture} (h : p.isNumeric = false) :
    ¬p.IsWide ↔ p.width < Field.countLimit := by
  rw [IsWide, not_and, Nat.not_le]
  exact ⟨fun hlt ↦ hlt h, fun hlt _ ↦ hlt⟩

/-- A numeric picture is never too wide: a number has no width. -/
theorem not_isWide_of_isNumeric {p : Picture} (h : p.isNumeric = true) : ¬p.IsWide := by
  rintro ⟨htext, -⟩
  rw [h] at htext
  cases htext

/-- A slot without a value can be filled exactly if its picture is not too wide. -/
theorem exists_blank_iff {p : Picture} : (∃ w, p.blank = .ok w) ↔ ¬p.IsWide := by
  cases hnumeric : p.isNumeric with
  | true => exact iff_of_true ⟨.number 0, if_pos hnumeric⟩ (not_isWide_of_isNumeric hnumeric)
  | false =>
    rw [not_isWide_iff hnumeric, ← Field.exists_spaces_iff, blank, hnumeric, if_neg (by decide)]
    simp only [Except.map_eq_ok_iff]
    exact ⟨fun ⟨_, t, ht, _⟩ ↦ ⟨t, ht⟩, fun ⟨t, ht⟩ ↦ ⟨_, t, ht, rfl⟩⟩

/-- A value that can be converted is held by every slot that is not too wide. -/
theorem exists_coerce_iff {p : Picture} {v : Value} (hinteger : ∃ n, v.integer = .ok n)
    (hshown : ∃ t, v.shown = .ok t) : (∃ w, p.coerce v = .ok w) ↔ ¬p.IsWide := by
  obtain ⟨n, hn⟩ := hinteger
  obtain ⟨t, ht⟩ := hshown
  cases hnumeric : p.isNumeric with
  | true =>
    refine iff_of_true ⟨.number n, ?_⟩ (not_isWide_of_isNumeric hnumeric)
    rw [coerce, if_pos hnumeric, hn]
    rfl
  | false =>
    rw [not_isWide_iff hnumeric, ← Field.exists_fit_iff (t := t), coerce_of_shown hnumeric ht]
    simp only [Except.map_eq_ok_iff]
    constructor
    · rintro ⟨-, u, hu, -⟩
      exact ⟨u, hu⟩
    · rintro ⟨u, hu⟩
      exact ⟨.text u, u, hu, rfl⟩

end Picture

namespace WrittenValue

/-- A written value denotes an integer: a text without one counts as zero. -/
theorem exists_integer (v : WrittenValue) : ∃ n, v.value.integer = .ok n := by
  cases v with
  | number sign digits hsign hshort => exact ⟨_, rfl⟩
  | literal l hshort =>
    exact Expression.integer_of_shortRuns (Expression.shortRuns_of_length_le hshort)

/-- A written value has a text. -/
theorem exists_shown (v : WrittenValue) : ∃ t, v.value.shown = .ok t := by
  cases v with
  | number sign digits hsign hshort =>
    have hlt : (Expression.numberValue sign digits.text).natAbs < 10 ^ digitLimit := by
      have habs : (Expression.numberValue sign digits.text).natAbs =
          Numeral.ofDigits digits.text := by
        rw [Expression.numberValue]
        split <;> simp
      rw [habs]
      exact Nat.lt_of_lt_of_le (Numeral.ofDigits_lt digits.isDigit)
        (Nat.pow_le_pow_right (by decide) hshort)
    exact ⟨Numeral.decimal (Expression.numberValue sign digits.text), Numeral.write_of_lt hlt⟩
  | literal l hshort => exact ⟨l.text, rfl⟩

end WrittenValue

namespace WrittenDeclaration

/-- What the slot of a declaration starts with: the value as its picture holds it; without one, zero
or as many spaces as it is wide. -/
def StartsWith (d : WrittenDeclaration) (w : Value) : Prop :=
  match d.value with
  | none =>
    w = if d.picture.shape.isNumeric then .number 0
      else .text (List.replicate d.picture.shape.width ' ')
  | some v => d.picture.shape.coerce v.value = .ok w

/-- What a declaration starts with is its initial value, said by its picture. -/
theorem startsWith_of_initial {d : WrittenDeclaration} {line : Nat} {w : Value}
    (h : (d.declared line).initial = .ok w) : d.StartsWith w := by
  rw [Declaration.initial, declared] at h
  rw [StartsWith]
  cases hvalue : d.value with
  | none =>
    rw [hvalue] at h
    dsimp only [Option.map_none] at h ⊢
    rw [Picture.blank] at h
    split at h
    · rename_i hnumeric
      cases h
      rw [if_pos hnumeric]
    · rename_i htext
      obtain ⟨t, ht, rfl⟩ := Except.map_eq_ok_iff.1 h
      rw [if_neg htext, Field.eq_replicate_of_spaces ht]
  | some v =>
    rw [hvalue] at h
    exact h

/-- A slot has an initial value unless its picture is a text that is too wide. -/
theorem exists_initial_iff (d : WrittenDeclaration) (line : Nat) :
    (∃ w, (d.declared line).initial = .ok w) ↔ ¬d.picture.shape.IsWide := by
  rw [Declaration.initial, declared]
  cases d.value with
  | none => exact Picture.exists_blank_iff
  | some v => exact Picture.exists_coerce_iff v.exists_integer v.exists_shown

end WrittenDeclaration

/-! ### The theorem -/

/-- The names of a layout stay distinct when its lines are numbered. -/
theorem nodup_numbered {layout : List DeclarationLine} (number : Nat)
    (h : ((layout.flatMap DeclarationLine.declarations).map (·.name)).Nodup) :
    ((numbered layout number).map fun e ↦ e.2.name).Nodup := by
  rw [← map_snd_numbered layout number, List.map_map] at h
  exact h

/-- What holds of the numbered declarations holds of the declarations. -/
theorem forall_numbered_iff {layout : List DeclarationLine} {number : Nat}
    {P : WrittenDeclaration → Prop} :
    (∀ e ∈ numbered layout number, P e.2) ↔
      ∀ d ∈ layout.flatMap DeclarationLine.declarations, P d := by
  rw [← map_snd_numbered layout number, List.forall_mem_map]

/-- The name of a declaration is its own key. -/
theorem WrittenDeclaration.key_name (d : WrittenDeclaration) : Store.key d.name = d.name :=
  PictureText.upper_of_isFormChar d.isFormChar_name

/-- Written declarations of distinct names give a slot each, if and only if no text picture among
them is too wide. -/
theorem State.declareAll_written {ds : List (Nat × WrittenDeclaration)}
    (h : (ds.map fun e ↦ e.2.name).Nodup) :
    ((∃ store, State.declareAll {} (ds.map fun e ↦ e.2.declared e.1) = .ok store) ↔
      ∀ e ∈ ds, ¬e.2.picture.shape.IsWide) ∧
    ∀ store, State.declareAll {} (ds.map fun e ↦ e.2.declared e.1) = .ok store →
      ∀ e ∈ ds, ∃ w, store.values.get? e.2.name = some w ∧ e.2.StartsWith w := by
  have hkeys : ((ds.map fun e ↦ e.2.declared e.1).map fun d ↦ Store.key d.name).Nodup := by
    have hnames : (ds.map fun e ↦ Store.key e.2.name) = ds.map fun e ↦ e.2.name :=
      List.map_congr_left fun e _ ↦ e.2.key_name
    rw [List.map_map]
    exact hnames ▸ h
  have hinitial : (∀ d ∈ ds.map fun e ↦ e.2.declared e.1, ∃ w, d.initial = .ok w) ↔
      ∀ e ∈ ds, ¬e.2.picture.shape.IsWide := by
    rw [List.forall_mem_map]
    exact forall₂_congr fun e _ ↦ e.2.exists_initial_iff e.1
  constructor
  · rw [← hinitial]
    constructor
    · rintro ⟨store, hstore⟩
      exact State.initial_of_declareAll hstore
    · intro hall
      obtain ⟨store, hstore, -⟩ := State.exists_declareAll hkeys hall {}
      exact ⟨store, hstore⟩
  · intro store hstore e he
    -- the store is the only one that the declarations can lead to, so its values can be read off
    have hall := State.initial_of_declareAll hstore
    obtain ⟨store', hstore', hvalues, -⟩ := State.exists_declareAll hkeys hall {}
    rw [hstore] at hstore'
    cases hstore'
    have hmem : e.2.declared e.1 ∈ ds.map fun e ↦ e.2.declared e.1 := List.mem_map.2 ⟨e, he, rfl⟩
    obtain ⟨w, hw⟩ := hall _ hmem
    refine ⟨w, ?_, WrittenDeclaration.startsWith_of_initial hw⟩
    rw [← hvalues _ hmem w hw]
    exact congrArg _ e.2.key_name.symm

/-- **Declarations are read as they are written.** Declarations of distinct names, on lines of one
or several between the headers of their part and of the procedure division, are the declarations of
the program: in order, with their pictures, their values and the numbers of their lines. The program
starts if every text picture has a width that can be counted, and only then. It then has a slot for
each name, which holds the value as its picture holds it; without a value, zero or spaces. -/
theorem Program.parse_declarations (layout : List DeclarationLine)
    (hnames : ((layout.flatMap DeclarationLine.declarations).map (·.name)).Nodup)
    (after : List Text) :
    ∃ p : Program, Program.parse (declaring layout after) = .ok p ∧
      p.declarations.entries = (numbered layout 2).map (fun e ↦ (e.2.name, e.2.declared e.1)) ∧
      ∀ input,
        ((∃ s, State.start p input = .ok s) ↔
          ∀ d ∈ layout.flatMap DeclarationLine.declarations, ¬d.picture.shape.IsWide) ∧
        ∀ s, State.start p input = .ok s →
          ∀ d ∈ layout.flatMap DeclarationLine.declarations,
            ∃ w, s.store.values.get? d.name = some w ∧ d.StartsWith w := by
  have hdeclare : Program.declare {} (Program.dataSentences 1 false
      (Sentence.normalize (declaring layout after))) =
        .ok ⟨(numbered layout 2).map fun e ↦ (e.2.name, e.2.declared e.1)⟩ := by
    rw [dataSentences_declaring]
    exact declare_written (nodup_numbered 2 hnames)
  -- the table keeps the numbers of the lines, which do not matter for the start
  refine ⟨_, by rw [Program.parse, Program.ofContents, hdeclare]; rfl, rfl, fun input ↦ ?_⟩
  obtain ⟨hstarts, hvalues⟩ := State.declareAll_written (nodup_numbered 2 hnames)
  have hslots : ((numbered layout 2).map fun e ↦ (e.2.name, e.2.declared e.1)).map (·.2) =
      (numbered layout 2).map fun e ↦ e.2.declared e.1 := List.map_map ..
  constructor
  · rw [← forall_numbered_iff (P := fun d ↦ ¬d.picture.shape.IsWide), ← hstarts]
    simp only [State.start, Except.map_eq_ok_iff, hslots]
    constructor
    · rintro ⟨_, store, hstore, _⟩
      exact ⟨store, hstore⟩
    · rintro ⟨store, hstore⟩
      exact ⟨_, store, hstore, rfl⟩
  · intro s hs
    rw [State.start, hslots] at hs
    obtain ⟨store, hstore, rfl⟩ := Except.map_eq_ok_iff.1 hs
    exact forall_numbered_iff.1 (hvalues store hstore)

/-- Two lines of declarations: names that are keywords or end in one, a picture of several symbols
with a leading zero in its count, and a text with periods, a comment marker, clauses and the other
quote. -/
def mixedLayout : List DeclarationLine :=
  [{ indent := ⟨[' ', '\t'], by decide⟩
     first :=
      { level := ⟨"01".toList, by decide, by decide⟩
        name := "A-PIC".toList
        isLabel_name := by decide
        picture :=
          { signed := true
            first := ⟨true, some ⟨"003".toList, by decide, by decide⟩, by rintro _ ⟨⟩; decide⟩
            more := [⟨false, none, nofun⟩] }
        value := some (.number ['-'] ⟨"12".toList, by decide, by decide⟩ (.inr (.inr rfl))
          (by decide)) }
     more := [(⟨[' ', '\t'], by decide⟩,
      { level := ⟨"77".toList, by decide, by decide⟩
        name := "PIC".toList
        isLabel_name := by decide
        picture :=
          { first := ⟨false, some ⟨"20".toList, by decide, by decide⟩, by rintro _ ⟨⟩; decide⟩ }
        value := some (.literal ⟨'\'', "A. *> PIC X VALUE \"9".toList, .refl true, by decide⟩
          (by decide)) })] },
   { first :=
      { level := ⟨"5".toList, by decide, by decide⟩
        name := "VALUE".toList
        isLabel_name := by decide
        picture := { first := ⟨false, none, nofun⟩, more := [⟨false, none, nofun⟩] } } }]

/-- The program of the example is parsed as it was written, and starts. -/
theorem Program.parse_declarations_mixed :
    mixedLayout.map DeclarationLine.written =
        [" \t01 A-PIC PIC S9(003)X VALUE -12. \t77 PIC PIC X(20) VALUE 'A. *> PIC X VALUE \"9'.",
         "5 VALUE PIC XX."].map String.toList ∧
      ∃ p : Program, Program.parse (declaring mixedLayout []) = .ok p ∧
        p.declarations.entries.map (·.2) =
          [⟨"A-PIC".toList, ⟨true, 4⟩, some (.number (-12)), 2⟩,
           ⟨"PIC".toList, ⟨false, 20⟩, some (.text "A. *> PIC X VALUE \"9".toList), 2⟩,
           ⟨"VALUE".toList, ⟨false, 2⟩, none, 3⟩] ∧
        ∃ s, State.start p none = .ok s := by
  refine ⟨by decide, ?_⟩
  obtain ⟨p, hparse, hentries, hstart⟩ := Program.parse_declarations mixedLayout (by decide) []
  exact ⟨p, hparse, by rw [hentries]; decide, (hstart none).1.2 (by decide +kernel)⟩

/-- A declaration of a text that is longer than any text can be. -/
def hugeLayout : List DeclarationLine :=
  [{ first :=
      { level := ⟨"01".toList, by decide, by decide⟩
        name := "A".toList
        isLabel_name := by decide
        picture :=
          { first := ⟨false, some ⟨"9223372036854775808".toList, by decide, by decide⟩,
              by rintro _ ⟨⟩; decide⟩ } } }]

/-- What the program with `hugeLayout` says. -/
def huge : Program where
  declarations := ⟨[("A".toList, ⟨"A".toList, ⟨false, 9223372036854775808⟩, none, 2⟩)]⟩

/-- A program with such a declaration does not start. -/
theorem Program.not_start_huge :
    ((hugeLayout.flatMap DeclarationLine.declarations).map (·.name)).Nodup ∧
      ¬∃ p s, Program.parse (declaring hugeLayout []) = .ok p ∧ State.start p none = .ok s := by
  have hparse : Program.parse (declaring hugeLayout []) = .ok huge := by decide +kernel
  have hstart : State.start huge none = .error .uncountableSpaces := by rfl
  refine ⟨by decide, ?_⟩
  rintro ⟨p, s, hp, hs⟩
  rw [hparse] at hp
  cases hp
  rw [hstart] at hs
  cases hs

end Cobol
