import Cobol.Proofs.Literal
import Cobol.Proofs.Normalization

/-!
# Literals on display

A program that only displays literals shows what is between the quotes, one line for each sentence,
however the sentences are laid out on lines.

* `Display` is a sentence `DISPLAY` with literals, and `DisplayLine` a line with such sentences,
  indented as one likes and with a comment behind it. Both carry their blanks, so every way to write
  them is a value.
* `DisplayLine.content_written` and `DisplayLine.sentences_content` lead from the line to its
  sentences, `Display.execute_written` from a sentence to what it shows, and `runLines_displays`
  through the whole program.

## Shape decisions

* A literal carries its quote and the promise that the quote is not in its text. Nothing is asked of
  the text otherwise, so it may hold periods, markers of comments and keywords.
* The line is followed from both ends: from the sentence to what it shows, and from the line to its
  sentences. The two meet in the sentences of the procedure.
-/

namespace Cobol

open Text

/-! ### Lists of literals -/

/-- Literals with the blanks in front of them. -/
def gapped (literals : List (Gap × Literal)) : Text :=
  literals.flatMap fun e ↦ e.1.1 ++ e.2.written

theorem gapped_cons (gap : Gap) (l : Literal) (literals : List (Gap × Literal)) :
    gapped ((gap, l) :: literals) = gap.1 ++ (l.written ++ gapped literals) :=
  List.append_assoc ..

/-- Literals with blanks between them cut no sentence and begin no comment. -/
theorem isPart_gapped (literals : List (Gap × Literal)) : Sentence.IsPart (gapped literals) :=
  .flatMap fun e _ ↦ (Sentence.isPart_of_allBlank e.1.2.2).append e.2.isPart_written

/-- What ends in a literal ends in a quote. -/
theorem getLast?_written_gapped (l : Literal) (literals : List (Gap × Literal)) :
    ∃ c, (l.written ++ gapped literals).getLast? = some c ∧ isBlank c = false := by
  induction literals generalizing l with
  | nil => exact ⟨l.quote, by simp [gapped, l.getLast?_written], l.isBlank_quote⟩
  | cons e rest ih =>
    obtain ⟨gap, l'⟩ := e
    obtain ⟨c, hlast, hc⟩ := ih l'
    refine ⟨c, ?_, hc⟩
    rw [gapped_cons, ← List.append_assoc, List.getLast?_append, hlast]
    rfl

/-- Nothing is trimmed in front of a literal. -/
theorem trimLeft_written_append (l : Literal) (t : Text) :
    trimLeft (l.written ++ t) = l.written ++ t :=
  trimLeft_cons_of_not l.isBlank_quote _

/-- Nothing is trimmed from literals with blanks between them: they begin and end in a quote. -/
theorem trim_written_gapped (l : Literal) (literals : List (Gap × Literal)) :
    trim (l.written ++ gapped literals) = l.written ++ gapped literals := by
  obtain ⟨c, hlast, hc⟩ := getLast?_written_gapped l literals
  exact trim_eq_self rfl l.isBlank_quote hlast hc

/-- The operands of literals with blanks between them are the literals. -/
theorem operands_written_gapped (l : Literal) (literals : List (Gap × Literal)) :
    operands (l.written ++ gapped literals) = l.written :: literals.map (·.2.written) := by
  have hcons (l : Literal) (t : Text) : l.written ++ t ≠ [] := List.cons_ne_nil _ _
  have hgapped (literals : List (Gap × Literal)) :
      operands (gapped literals) = literals.map (·.2.written) := by
    induction literals with
    | nil => exact operands_of_allBlank .nil
    | cons e rest ih =>
      obtain ⟨gap, l'⟩ := e
      have htrim : trimLeft (gapped ((gap, l') :: rest)) = l'.written ++ gapped rest := by
        rw [gapped_cons, trimLeft_append_of_allBlank gap.2.2, trimLeft_written_append]
      rw [operands_of_trimLeft htrim (hcons _ _), l'.firstOperand_written, ih]
      rfl
  rw [operands_of_trimLeft (trimLeft_written_append l _) (hcons _ _), l.firstOperand_written,
    hgapped]

/-- The line of literals is their texts, one behind the other. -/
theorem displayLine_written (store : Store) (literals : List Literal) :
    displayLine store (literals.map Literal.written) = .ok (literals.flatMap Literal.text) := by
  induction literals with
  | nil => rfl
  | cons l rest ih =>
    rw [List.map_cons, displayLine, l.displayed_written, ih]
    rfl

/-! ### Sentences -/

/-- A sentence that displays literals: the keyword, literals with blanks in front of them, and a
period. -/
structure Display where
  /-- The blanks behind the keyword. -/
  gap : Gap
  /-- The first literal. -/
  first : Literal
  /-- The other literals, with the blanks in front of them. -/
  more : List (Gap × Literal) := []
  /-- The blanks before the period. -/
  trail : Blanks := ⟨[], .nil⟩

namespace Display

/-- The keyword of the sentence. -/
def keyword : Text :=
  "DISPLAY".toList

/-- The literals of the sentence. -/
def literals (d : Display) : List Literal :=
  d.first :: d.more.map (·.2)

/-- The line that the sentence displays. -/
def shown (d : Display) : Text :=
  d.literals.flatMap Literal.text

/-- The sentence before its period. -/
def body (d : Display) : Text :=
  keyword ++ gapped ((d.gap, d.first) :: d.more) ++ d.trail.1

/-- The sentence as it is written. -/
def written (d : Display) : Text :=
  d.body ++ ['.']

/-- No part of a display in front of its period cuts the sentence. -/
theorem isPart_body (d : Display) : Sentence.IsPart d.body := by
  have hkeyword : Sentence.IsPart keyword :=
    ⟨⟨by decide, by decide, by decide⟩, by decide, by decide⟩
  exact (hkeyword.append (isPart_gapped _)).append (Sentence.isPart_of_allBlank d.trail.2)

theorem getLast?_written (d : Display) : d.written.getLast? = some '.' :=
  List.getLast?_concat

theorem head?_written (d : Display) (t : Text) : (d.written ++ t).head? = some 'D' :=
  rfl

/-- Nothing is trimmed from a display. -/
theorem trim_written (d : Display) : trim d.written = d.written := by
  have hhead := d.head?_written []
  rw [List.append_nil] at hhead
  exact trim_eq_self hhead (by decide) d.getLast?_written (by decide)

/-- A sentence behind the keyword, with the first blank set apart. -/
theorem exists_body_eq (d : Display) : ∃ c rest, isBlank c = true ∧ AllBlank rest ∧
    d.body = keyword ++ c :: (rest ++ (d.first.written ++ gapped d.more)) ++ d.trail.1 := by
  obtain ⟨c, rest, hgap⟩ := List.exists_cons_of_ne_nil d.gap.2.1
  obtain ⟨hc, hrest⟩ := allBlank_cons.1 (hgap ▸ d.gap.2.2)
  exact ⟨c, rest, hc, hrest, by rw [body, gapped_cons, hgap, List.cons_append]⟩

theorem isPlain_display : Verb.IsPlain keyword :=
  Verb.isPlain_keyword .display

/-- A written display is one sentence. -/
theorem isSentence_written (d : Display) : Sentence.IsSentence d.written :=
  ⟨⟨d.body, rfl, d.isPart_body⟩, d.trim_written⟩

/-- The verb of a written display is `DISPLAY`. -/
theorem ofStatement_written (d : Display) : Verb.ofStatement d.written = .display := by
  obtain ⟨c, rest, hc, -, hbody⟩ := d.exists_body_eq
  rw [written, hbody, List.append_assoc, List.append_assoc, List.cons_append, Verb.ofStatement,
    Verb.wordsOf_plain_append isPlain_display hc]
  rfl

/-- The arguments of a written display are its literals, without the period. -/
theorem arguments_written (d : Display) :
    arguments d.written = d.first.written ++ gapped d.more := by
  obtain ⟨c, rest, hc, hrest, hbody⟩ := d.exists_body_eq
  have hends : Sentence.EndsIn d.written d.body :=
    ⟨trimRight_of_getLast? d.getLast?_written (by decide), d.isPart_body.closed⟩
  -- the period and the blanks before it are dropped, up to the last quote
  have hperiod : Sentence.dropPeriod d.written =
      keyword ++ c :: (rest ++ (d.first.written ++ gapped d.more)) := by
    obtain ⟨q, hlast, hq⟩ := getLast?_written_gapped d.first d.more
    rw [Sentence.dropPeriod_of_endsIn hends, hbody, trimRight_append_of_allBlank _ d.trail.2]
    refine trimRight_of_getLast? ?_ hq
    rw [← List.cons_append, ← List.append_assoc, List.getLast?_append, hlast]
    rfl
  rw [arguments, hperiod, afterWord_word_append isPlain_display.ne_nil isPlain_display.not_blank hc,
    ← trim_trimLeft, trimLeft_append_of_allBlank hrest, trim_trimLeft, trim_written_gapped]

/-- A written display asks for its literals to be shown. -/
theorem ofText_written (d : Display) :
    Action.ofText (trim d.written) = .display (d.literals.map Literal.written) := by
  have hargs : ¬(d.first.written ++ gapped d.more).isEmpty = true := Bool.false_ne_true
  rw [Action.ofText_of_display d.ofStatement_written, arguments_written, if_neg hargs,
    operands_written_gapped, literals, List.map_cons, List.map_map]
  rfl

/-- The sentence displays the texts of its literals. -/
theorem execute_written (d : Display) (m : Machine) (allowance : Nat)
    (nested : List Text → State → Outcome) (following : List Text) (s : State) :
    execute m allowance nested d.written following s = (s.display d.shown).done := by
  rw [execute, ofText_written, perform, act, displayLine_written]
  · rfl
  all_goals exact nofun

end Display

/-- Sentences that display literals are executed one after the other. -/
theorem executeLines_displays (m : Machine) (allowance : Nat)
    (nested : List Text → State → Outcome) (ds : List Display) {s : State}
    (hs : s.running = true) :
    (executeLines m allowance nested (ds.map Display.written) s).fault = none ∧
      (executeLines m allowance nested (ds.map Display.written) s).state.output.toList =
        s.output.toList ++ ds.map Display.shown := by
  induction ds generalizing s with
  | nil =>
    rw [List.map_nil, executeLines]
    exact ⟨rfl, (List.append_nil _).symm⟩
  | cons d rest ih =>
    have hunread : unread d.written (rest.map Display.written) = rest.map Display.written := by
      rw [unread, d.ofStatement_written]
    obtain ⟨hfault, houtput⟩ := ih (show (s.display d.shown).running = true from hs)
    rw [List.map_cons, executeLines, if_pos hs, d.execute_written, hunread]
    refine ⟨hfault, ?_⟩
    show (executeLines m allowance nested _ (s.display d.shown)).state.output.toList = _
    rw [houtput, State.display, Array.toList_push, List.append_assoc]
    rfl

/-! ### Lines -/

/-- A line of sentences that display literals, with a comment or without. -/
structure DisplayLine where
  /-- The blanks in front of the first sentence. -/
  indent : Blanks := ⟨[], .nil⟩
  /-- The first sentence. -/
  first : Display
  /-- The other sentences, with the blanks in front of them. -/
  more : List (Gap × Display) := []
  /-- The blanks behind the last sentence. -/
  trail : Blanks := ⟨[], .nil⟩
  /-- The text of the comment. -/
  comment : Option Text := none

namespace DisplayLine

/-- The sentences of the line. -/
def displays (l : DisplayLine) : List Display :=
  l.first :: l.more.map (·.2)

/-- Sentences with the blanks in front of them. -/
def tailOf (more : List (Gap × Display)) : Text :=
  more.flatMap fun e ↦ e.1.1 ++ e.2.written

/-- The sentences of the line as they are written. -/
def content (l : DisplayLine) : Text :=
  l.first.written ++ tailOf l.more

/-- The line as it is written. -/
def written (l : DisplayLine) : Text :=
  l.indent.1 ++
    match l.comment with
    | none => l.content ++ l.trail.1
    | some text => Sentence.remarked l.content l.trail.1 text

/-- The content of a line is its displays, spread over it with blanks between them. -/
theorem content_eq_spread (l : DisplayLine) :
    l.content = Sentence.spread l.first.written (l.more.map fun e ↦ (e.1, e.2.written)) := by
  rw [content, tailOf, Sentence.spread, List.flatMap_map]

/-- Every display of a line is one sentence. -/
theorem isSentence_more (l : DisplayLine) :
    ∀ e ∈ l.more.map fun e ↦ (e.1, e.2.written), Sentence.IsSentence e.2 := by
  rintro _ he
  obtain ⟨e, -, rfl⟩ := List.mem_map.1 he
  exact e.2.isSentence_written

/-- The sentences of a line are those that were written on it. -/
theorem sentences_content (l : DisplayLine) :
    Sentence.sentences l.content = l.displays.map Display.written := by
  rw [content_eq_spread, Sentence.sentences_spread l.first.isSentence_written l.isSentence_more,
    displays, List.map_cons, List.map_map, List.map_map]
  rfl

/-- The content of a line holds no comment, and is no comment line. -/
theorem isContent_content (l : DisplayLine) : Sentence.IsContent l.content := by
  rw [content_eq_spread]
  exact Sentence.isContent_spread l.first.isSentence_written l.isSentence_more
    (l.first.head?_written _) (by decide) (by decide)

/-- What is left of a line without margins and comment are its sentences. -/
theorem content_written (l : DisplayLine) : Sentence.content l.written = l.content := by
  have hcontent := l.isContent_content
  have hopen : Sentence.openLiteral (Sentence.dropComment l.content) = none := by
    rw [Sentence.dropComment, hcontent.no_comment, content_eq_spread]
    exact (Sentence.isClear_spread l.first.isSentence_written l.isSentence_more).1.closed
  rw [written, Sentence.content_indented l.indent.2]
  cases l.comment with
  | none => exact (Sentence.content_trailing _ l.trail.2).trans hcontent.content_eq
  | some text => exact (Sentence.content_remarked hopen l.trail.2 text).trans hcontent.content_eq

/-- No line of displays opens a division. -/
theorem opensProcedure_content (l : DisplayLine) : Program.opensProcedure l.content = false :=
  rfl

end DisplayLine

/-! ### Programs -/

/-- The line that opens the procedure division. -/
def procedureHeader : Text :=
  "PROCEDURE DIVISION.".toList

/-- What is left of the written program is its header with the contents of its lines. -/
theorem normalize_displays (layout : List DisplayLine) :
    Sentence.normalize (procedureHeader :: layout.map DisplayLine.written) =
      procedureHeader :: layout.map DisplayLine.content := by
  have hheader : Sentence.content procedureHeader = procedureHeader := by decide
  have hcontents : (layout.map DisplayLine.written).map Sentence.content =
      layout.map DisplayLine.content := by
    rw [List.map_map]
    exact List.map_congr_left fun l _ ↦ l.content_written
  rw [Sentence.normalize, List.map_cons, hheader, hcontents, List.filter_eq_self]
  refine List.forall_mem_cons.2 ⟨by decide, fun t ht ↦ ?_⟩
  obtain ⟨l, -, rfl⟩ := List.mem_map.1 ht
  simpa using l.isContent_content.ne_nil

/-- **The sentences of the procedure are the displays**, in order. -/
theorem procedureSentences_displays (layout : List DisplayLine) :
    Program.procedureSentences (procedureHeader :: layout.map DisplayLine.content) =
      (layout.flatMap DisplayLine.displays).map Display.written := by
  have hfilter : (layout.map DisplayLine.content).filter (fun t ↦ !Program.opensProcedure t) =
      layout.map DisplayLine.content := by
    rw [List.filter_eq_self]
    rintro t ht
    obtain ⟨l, -, rfl⟩ := List.mem_map.1 ht
    rw [l.opensProcedure_content]
    rfl
  have hopens : Program.opensProcedure procedureHeader = true := by decide
  rw [Program.procedureSentences, List.dropWhile_cons_of_neg (by simp [hopens]),
    List.filter_cons_of_neg (by simp [hopens]), hfilter, List.flatMap_map, List.map_flatMap]
  exact List.flatMap_congr fun l _ ↦ l.sentences_content

/-- The written program has no declarations, and its procedure is the displays. -/
theorem exists_parse_displays (layout : List DisplayLine) : ∃ p : Program,
    Program.parse (procedureHeader :: layout.map DisplayLine.written) = .ok p ∧
      p.declarations = {} ∧
      p.procedure = (layout.flatMap DisplayLine.displays).map Display.written := by
  have hopens : Program.opensProcedure procedureHeader = true := by decide
  have hparse : Program.parse (procedureHeader :: layout.map DisplayLine.written) =
      Program.ofContents (procedureHeader :: layout.map DisplayLine.content) := by
    rw [Program.parse, normalize_displays]
  rw [hparse, Program.ofContents, Program.dataSentences, if_pos hopens]
  exact ⟨_, rfl, rfl, procedureSentences_displays layout⟩

/-- **Literals are displayed as they are written.** A program of sentences that display literals,
laid out on lines in any way, displays one line for each sentence, in order: the texts of its
literals, one behind the other. -/
theorem runLines_displays (layout : List DisplayLine) {options : RunOptions}
    (hlimit : 0 < options.limits.allowance) :
    (runLines options (procedureHeader :: layout.map DisplayLine.written)).result.map
        RunResult.output =
      .ok ((layout.flatMap DisplayLine.displays).map Display.shown) := by
  obtain ⟨p, hparse, hdeclarations, hprocedure⟩ := exists_parse_displays layout
  obtain ⟨allowance, hallowance⟩ := Nat.exists_eq_succ_of_ne_zero hlimit.ne'
  have hstart : State.start p options.input = .ok { input := options.input } := by
    rw [State.start, hdeclarations]
    rfl
  obtain ⟨hfault, houtput⟩ := executeLines_displays (p.machine options.limits) allowance
    (executeBlock (p.machine options.limits) allowance) (layout.flatMap DisplayLine.displays)
    (show ({ input := options.input } : State).running = true from rfl)
  have hrun : p.execute options.limits { input := options.input } =
      executeLines (p.machine options.limits) allowance
        (executeBlock (p.machine options.limits) allowance)
        ((layout.flatMap DisplayLine.displays).map Display.written)
        { input := options.input } := by
    rw [Program.execute, hallowance, hprocedure]
    rfl
  have houtputOf : Session.outputOf (p.execute options.limits { input := options.input }) =
      .ok ((layout.flatMap DisplayLine.displays).map Display.shown) := by
    rw [hrun, Session.outputOf, hfault, houtput]
    rfl
  rw [runLines, Session.run, hparse]
  dsimp only
  rw [hstart]
  dsimp only
  rw [houtputOf]
  rfl

/-- Two lines of sentences: literals with a period and a blank, a comment marker, the other quote,
and nothing in them. -/
def quotedLayout : List DisplayLine :=
  [{ indent := ⟨['\t'], by decide⟩
     first :=
      { gap := ⟨[' '], by decide⟩
        first := ⟨'\'', "A. *> \"B".toList, by decide, by decide⟩
        more := [(⟨[' ', ' '], by decide⟩, ⟨'"', " it's".toList, by decide, by decide⟩)] } },
   { first :=
      { gap := ⟨[' '], by decide⟩
        first := ⟨'"', [], by decide, by decide⟩
        trail := ⟨[' '], by decide⟩ }
     more := [(⟨[' '], by decide⟩,
      { gap := ⟨['\t'], by decide⟩
        first := ⟨'\'', "STOP RUN. ".toList, by decide, by decide⟩ })]
     trail := ⟨[' '], by decide⟩
     comment := some " don't".toList }]

/-- Literals with periods, comment markers, the other quote and keywords in them, and a comment with
a quote. -/
theorem runLines_displays_quoted :
    quotedLayout.map DisplayLine.written =
        ["\tDISPLAY 'A. *> \"B'  \" it's\".",
         "DISPLAY \"\" . DISPLAY\t'STOP RUN. '. *> don't"].map String.toList ∧
      (runLines {} (procedureHeader :: quotedLayout.map DisplayLine.written)).result.map
          RunResult.output =
        .ok (["A. *> \"B it's", "", "STOP RUN. "].map String.toList) :=
  ⟨by decide, runLines_displays quotedLayout (by decide)⟩

end Cobol
