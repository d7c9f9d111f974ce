import Cobol.Proofs.Sentence
import Cobol.Proofs.Tree.Execution
import Cobol.Session

/-!
# Programs on joined lines

A program is read from its lines in three views, and only one of them, the sentences of the
procedure, is made of sentences throughout. The name is looked for at the starts of lines, and so
are the headers of the divisions; what stands behind a header on its line is dropped. So it does
matter, in a few places, whether two lines are joined. `Joinable` says where it does not:

* both lines open the procedure division or neither does;
* before the procedure, both open a part with declarations or neither does, or what would be dropped
  or added holds no picture;
* no name is lost or gained.

Under these conditions the joined line leaves the program as it was, the numbers of lines aside, and
every run of it (`Session.run_joined`). Each condition is needed: `parse_separate_ne` has a pair of
programs for every way to break one.

## Shape decisions

* A program is compared without the numbers of its lines (`Program.unnumbered`), which a joined line
  has to change. Nothing in a run sees them.
* The conditions are stated on the two lines and on the lines before them, by what the three views
  look at. Each condition is used for one view.
* The lines are contents: without comments and without blanks around them. A program is read from
  nothing else.
-/

namespace Cobol

open Text

/-! ### Programs without line numbers -/

/-- The declaration without the number of its line. -/
def Declaration.unnumbered (d : Declaration) : Declaration :=
  { d with line := 0 }

/-- The program without the numbers of lines. -/
def Program.unnumbered (p : Program) : Program :=
  { p with declarations := p.declarations.map Declaration.unnumbered }

/-- Entries can be changed before or after they are put under a name. -/
theorem Table.map_put {α β : Type} (f : α → β) (t : Table α) (name : Text) (entry : α) :
    (t.put name entry).map f = (t.map f).put name (f entry) := by
  obtain ⟨entries⟩ := t
  refine congrArg Table.mk ?_
  show (Table.putEntry name entry entries).map _ = Table.putEntry name (f entry) (entries.map _)
  induction entries with
  | nil => rfl
  | cons e rest ih =>
    obtain ⟨key, old⟩ := e
    rw [Table.putEntry, List.map_cons, Table.putEntry]
    split
    · rfl
    · rw [List.map_cons, ih]

namespace Declaration

/-- The sentence has a picture clause. -/
def hasPicture (sentence : Text) : Bool :=
  (Clause.search Clause.picture? none sentence).isSome

/-- A sentence without a picture is no declaration. -/
theorem ofSentence_of_not_hasPicture {sentence : Text} (h : hasPicture sentence = false)
    (line : Nat) : ofSentence line sentence = .ok .other := by
  rw [hasPicture, Option.isSome_eq_false_iff, Option.isNone_iff_eq_none] at h
  rw [ofSentence, h]

end Declaration

/-- The entry without the number of its line. -/
def Entry.unnumbered : Entry → Entry
  | .declaration d => .declaration d.unnumbered
  | .nameless => .nameless
  | .other => .other

/-- The number of the line goes to the declaration and nowhere else. -/
theorem Declaration.map_unnumbered_ofSentence (line : Nat) (sentence : Text) :
    (ofSentence line sentence).map Entry.unnumbered = ofSentence 0 sentence := by
  unfold ofSentence
  split
  · rfl
  · split
    · rename_i picture after _ _ _ _ _ _
      cases Picture.parse picture with
      | error fault => rfl
      | ok p => cases initialValue after <;> rfl
    · rfl

namespace Program

/-! ### Declarations -/

/-- The sentences with a picture among numbered ones. -/
def pictured (sentences : List (Nat × Text)) : List Text :=
  (sentences.map (·.2)).filter Declaration.hasPicture

/-- A sentence with a picture counts. -/
theorem pictured_cons {number : Nat} {sentence : Text} {rest : List (Nat × Text)}
    (h : Declaration.hasPicture sentence = true) :
    pictured ((number, sentence) :: rest) = sentence :: pictured rest := by
  simp only [pictured, List.map_cons, List.filter_cons, h, if_true]

/-- A sentence without a picture does not count. -/
theorem pictured_cons_of_not {number : Nat} {sentence : Text} {rest : List (Nat × Text)}
    (h : Declaration.hasPicture sentence = false) :
    pictured ((number, sentence) :: rest) = pictured rest := by
  simp only [pictured, List.map_cons, List.filter_cons, h, Bool.false_eq_true, if_false]

/-- The declarations of sentences depend on those with a picture, up to the numbers of lines. -/
theorem map_unnumbered_declare (table : Table Declaration) (sentences : List (Nat × Text)) :
    (declare table sentences).map (Table.map Declaration.unnumbered) =
      declare (table.map Declaration.unnumbered) ((pictured sentences).map fun t ↦ (0, t)) := by
  induction sentences generalizing table with
  | nil => rfl
  | cons first rest ih =>
    obtain ⟨number, sentence⟩ := first
    rw [declare]
    cases hpicture : Declaration.hasPicture sentence with
    | false =>
      rw [Declaration.ofSentence_of_not_hasPicture hpicture, pictured_cons_of_not hpicture]
      exact ih table
    | true =>
      rw [pictured_cons hpicture, List.map_cons, declare,
        ← Declaration.map_unnumbered_ofSentence number sentence]
      cases Declaration.ofSentence number sentence with
      | error fault => rfl
      | ok entry =>
        cases entry with
        | other => exact ih table
        | nameless => exact ih table
        | declaration d =>
          show (declare (table.put d.name d) rest).map _ = _
          rw [ih, Table.map_put]
          rfl

/-- The sentences that are passed over for want of a name, among numbered ones. -/
def nameless (sentences : List (Nat × Text)) : List Text :=
  ((sentences.map fun (number, sentence) ↦
    (sentence, Declaration.ofSentence number sentence)).takeWhile fun e ↦ e.2.isOk).filterMap
      fun (sentence, entry) ↦
        match entry with
        | .ok .nameless => some sentence
        | _ => none

/-- Whether a declaration has no name is decided sentence by sentence, up to the first fault. -/
theorem nameless_cons (number : Nat) (sentence : Text) (rest : List (Nat × Text)) :
    nameless ((number, sentence) :: rest) =
      match Declaration.ofSentence number sentence with
      | .error _ => []
      | .ok .nameless => sentence :: nameless rest
      | .ok _ => nameless rest := by
  unfold nameless
  rw [List.map_cons]
  dsimp only
  cases Declaration.ofSentence number sentence with
  | error fault => rfl
  | ok entry => cases entry <;> rfl

/-- Declarations without a name are found among the sentences with a picture, and their line numbers
do not matter. -/
theorem nameless_eq (sentences : List (Nat × Text)) :
    nameless sentences = nameless ((pictured sentences).map fun t ↦ (0, t)) := by
  induction sentences with
  | nil => rfl
  | cons first rest ih =>
    obtain ⟨number, sentence⟩ := first
    rw [nameless_cons]
    cases hpicture : Declaration.hasPicture sentence with
    | false =>
      rw [Declaration.ofSentence_of_not_hasPicture hpicture, pictured_cons_of_not hpicture]
      exact ih
    | true =>
      rw [pictured_cons hpicture, List.map_cons, nameless_cons,
        ← Declaration.map_unnumbered_ofSentence number sentence]
      cases Declaration.ofSentence number sentence with
      | error fault => rfl
      | ok entry =>
        cases entry with
        | nameless => exact congrArg (sentence :: ·) ih
        | other => exact ih
        | declaration d => exact ih

/-- The texts of the sentences that may be declarations. -/
def dataTexts (inData : Bool) : List Text → List Text
  | [] => []
  | line :: rest =>
    if opensProcedure line then []
    else if opensData line then dataTexts true rest
    else if inData then Sentence.sentences line ++ dataTexts true rest
    else dataTexts false rest

/-- The sentences of the data part are the same, whatever the numbers of their lines. -/
theorem map_dataSentences (number : Nat) (inData : Bool) (lines : List Text) :
    (dataSentences number inData lines).map (·.2) = dataTexts inData lines := by
  induction lines generalizing number inData with
  | nil => rfl
  | cons line rest ih =>
    rw [dataSentences, dataTexts]
    split_ifs
    · rfl
    · exact ih _ _
    · rw [List.map_append, List.map_map, ih]
      exact congrArg (· ++ _) (List.map_id _)
    · exact ih _ _

/-- Reading goes on behind lines that do not open the procedure, in the part that they have
opened. -/
theorem dataTexts_append (inData : Bool) (before lines : List Text) :
    dataTexts inData (before ++ lines) =
      if before.any opensProcedure then dataTexts inData before
      else dataTexts inData before ++ dataTexts (inData || before.any opensData) lines := by
  induction before generalizing inData with
  | nil => simp [dataTexts]
  | cons line rest ih =>
    rw [List.cons_append, dataTexts, dataTexts, List.any_cons, List.any_cons]
    cases opensProcedure line with
    | true => rfl
    | false =>
      cases opensData line with
      | true => simpa using ih true
      | false =>
        cases inData with
        | true =>
          simp only [Bool.false_eq_true, if_false, if_true, Bool.false_or, Bool.true_or, ih]
          split <;> simp
        | false => simpa using ih false

/-! ### The procedure -/

/-- The sentences of the procedure begin behind the first header, wherever that stands. -/
theorem procedureSentences_append (before lines : List Text) :
    procedureSentences (before ++ lines) =
      if before.any opensProcedure then
        procedureSentences before ++
          (lines.filter fun l ↦ !opensProcedure l).flatMap Sentence.sentences
      else procedureSentences lines := by
  induction before with
  | nil => rfl
  | cons line rest ih =>
    rw [List.cons_append, List.any_cons]
    cases h : opensProcedure line with
    | true => simp [procedureSentences, h]
    | false =>
      have hskip (xs : List Text) : procedureSentences (line :: xs) = procedureSentences xs := by
        simp [procedureSentences, h]
      rw [hskip, hskip, ih, Bool.false_or]

end Program

/-! ### What stands at the start of a line -/

/-- A word without a character cannot reach over that character. -/
theorem prefix_append_cons_of_not_mem {w s t : Text} {c : Char} (h : c ∉ w) :
    w <+: s ++ c :: t ↔ w <+: s := by
  constructor
  · intro hstart
    rcases List.prefix_or_prefix_of_prefix hstart (List.prefix_append s (c :: t)) with hw | hs
    · exact hw
    · obtain ⟨more, rfl⟩ := hs
      have hmore : more <+: c :: t := (List.prefix_append_right_inj s).1 hstart
      cases more with
      | nil => simp
      | cons d more =>
        obtain ⟨rfl, -⟩ := List.cons_prefix_cons.1 hmore
        simp at h
  · exact fun hw ↦ hw.trans (List.prefix_append _ _)

/-- A keyword is found or not in front of a character that is none of its letters, whatever stands
behind. -/
theorem dropKeyword?_append {word : Text} {c : Char} (h : ∀ w ∈ word, sameLetter w c = false)
    (s t : Text) : dropKeyword? word (s ++ c :: t) = (dropKeyword? word s).map (· ++ c :: t) := by
  induction word generalizing s with
  | nil => rfl
  | cons w word ih =>
    obtain ⟨hw, hword⟩ := List.forall_mem_cons.1 h
    cases s with
    | nil => simp [dropKeyword?, hw]
    | cons d s =>
      rw [List.cons_append, dropKeyword?, dropKeyword?, ih hword]
      split <;> rfl

section

variable {line body : Text} (hline : line = body ++ ['.']) (next : Text)

include hline

/-- What is joined to a line stands behind a period, so a header without one is found at the start
of the line or not at all. -/
theorem isPrefixOf_upper_joined {marker : Text} (hmarker : '.' ∉ marker) :
    marker.isPrefixOf (upper (Sentence.joined line next)) = marker.isPrefixOf (upper line) := by
  have hjoined : upper (Sentence.joined line next) = upper body ++ '.' :: upper (' ' :: next) := by
    rw [Sentence.joined, hline, List.append_assoc, upper_append]
    rfl
  have hupper : upper line = upper body ++ ['.'] := by
    rw [hline, upper_append]
    rfl
  rw [Bool.eq_iff_iff, List.isPrefixOf_iff_prefix, List.isPrefixOf_iff_prefix, hjoined, hupper,
    prefix_append_cons_of_not_mem hmarker, prefix_append_cons_of_not_mem hmarker]

/-- A joined line opens the procedure if its first line does. -/
theorem Program.opensProcedure_joined :
    opensProcedure (Sentence.joined line next) = opensProcedure line :=
  isPrefixOf_upper_joined hline next (by decide)

/-- A joined line opens a part with declarations if its first line does. -/
theorem Program.opensData_joined :
    opensData (Sentence.joined line next) = opensData line := by
  simp only [opensData, List.any_cons, List.any_nil]
  rw [isPrefixOf_upper_joined hline next (by decide),
    isPrefixOf_upper_joined hline next (by decide), isPrefixOf_upper_joined hline next (by decide)]

end

namespace Program

/-! ### The name -/

/-- The name that a text starts with. -/
def leadingName? (t : Text) : Option Text :=
  match t.takeWhile isNameChar with
  | [] => none
  | name => some (upper name)

/-- A name is looked for behind its keyword, an optional period and blanks. -/
theorem nameOf?_eq (line : Text) :
    nameOf? line = (dropKeyword? "PROGRAM-ID".toList line).bind fun rest ↦
      (Clause.afterBlanks? ((dropLead? ['.'] rest).getD rest)).bind leadingName? := rfl

/-- A name ends before a period. -/
theorem afterBlanks?_append (s t : Text) :
    (Clause.afterBlanks? (s ++ '.' :: t)).bind leadingName? =
      (Clause.afterBlanks? (s ++ ['.'])).bind leadingName? := by
  have hdot : isBlank '.' = false := by decide
  have hhead : (s ++ '.' :: t).head? = (s ++ ['.']).head? := by cases s <;> rfl
  have hname (u : Text) : (trimLeft (s ++ '.' :: u)).takeWhile isNameChar =
      (trimLeft s).takeWhile isNameChar := by
    by_cases hblank : AllBlank s
    · rw [trimLeft_append_of_allBlank hblank, trimLeft_cons_of_not hdot,
        trimLeft_eq_nil_iff.2 hblank]
      rfl
    · have hstop : ('.' :: u).takeWhile isNameChar = [] := List.takeWhile_cons_of_neg (by decide)
      rw [trimLeft_append_of_not_allBlank hblank, List.takeWhile_append, hstop, List.append_nil]
      split
      · exact ((List.takeWhile_prefix _).eq_of_length ‹_›).symm
      · rfl
  unfold Clause.afterBlanks?
  rw [hhead]
  split
  · rw [Option.bind_some, Option.bind_some, leadingName?, leadingName?, hname, hname]
  · rfl

/-- The line stops where its name should stand. -/
def isBareName (line : Text) : Bool :=
  dropKeyword? "PROGRAM-ID".toList line == some ['.']

/-- A line with the keyword alone gives no name. -/
theorem nameOf?_of_isBareName {line : Text} (h : isBareName line = true) : nameOf? line = none := by
  rw [nameOf?_eq, eq_of_beq h]
  rfl

section

variable {line body : Text} (hline : line = body ++ ['.'])

include hline

/-- The keyword is found in a joined line as in its first line, and the next line stands behind it.
-/
theorem dropKeyword?_joined (next : Text) :
    dropKeyword? "PROGRAM-ID".toList line =
        (dropKeyword? "PROGRAM-ID".toList body).map (· ++ ['.']) ∧
      dropKeyword? "PROGRAM-ID".toList (Sentence.joined line next) =
        (dropKeyword? "PROGRAM-ID".toList body).map (· ++ '.' :: ' ' :: next) := by
  have hword : ∀ w ∈ "PROGRAM-ID".toList, sameLetter w '.' = false := by decide
  have hjoined : Sentence.joined line next = body ++ '.' :: ' ' :: next := by
    rw [Sentence.joined, hline, List.append_assoc]
    rfl
  rw [hjoined, hline]
  exact ⟨dropKeyword?_append hword body [], dropKeyword?_append hword body _⟩

/-- The name of a joined line is that of its first line, if this does not stop short of it. -/
theorem nameOf?_joined {next : Text} (hnext : trimLeft next = next)
    (hbare : isBareName line = true → ∀ c ∈ next.head?, isNameChar c = false) :
    nameOf? (Sentence.joined line next) = nameOf? line := by
  obtain ⟨hlineKeyword, hjoinedKeyword⟩ := dropKeyword?_joined hline next
  rw [nameOf?_eq, nameOf?_eq, hlineKeyword, hjoinedKeyword]
  cases hrest : dropKeyword? "PROGRAM-ID".toList body with
  | none => rfl
  | some rest =>
    rw [Option.map_some, Option.map_some, Option.bind_some, Option.bind_some]
    cases rest with
    | nil =>
      -- the period is the one behind the keyword, and what follows it is the second line
      have hisBare : isBareName line = true := by
        rw [isBareName, hlineKeyword, hrest]
        rfl
      have hstop : next.takeWhile isNameChar = [] := by
        cases next with
        | nil => rfl
        | cons c rest =>
          exact List.takeWhile_cons_of_neg (by simp [hbare hisBare c rfl])
      show (Clause.afterBlanks? (' ' :: next)).bind leadingName? = none
      have hblank : Clause.afterBlanks? (' ' :: next) = some next := by
        show (if isBlank ' ' = true then some (trimLeft (' ' :: next)) else none) = some next
        rw [if_pos (by decide), trimLeft_cons_of_isBlank (by decide), hnext]
      rw [hblank, Option.bind_some, leadingName?, hstop]
    | cons c rest =>
      -- a period directly behind the keyword is skipped in both lines
      have hlead (t : Text) :
          (dropLead? ['.'] (c :: rest ++ '.' :: t)).getD (c :: rest ++ '.' :: t) =
            (if c = '.' then rest else c :: rest) ++ '.' :: t := by
        by_cases hc : c = '.'
        · subst hc
          simp [dropLead?, List.isPrefixOf]
        · simp [dropLead?, List.isPrefixOf, hc, Ne.symm hc]
      rw [hlead, hlead, afterBlanks?_append]

end

/-! ### Joined lines -/

/-- Behind the given lines it does not matter whether the two lines are joined. -/
structure Joinable (before : List Text) (line next : Text) : Prop where
  /-- Both lines open the procedure, or neither does. -/
  procedure : opensProcedure line = opensProcedure next
  /-- Before the procedure both lines open a part with declarations, or neither does; else no
  sentence of the second line has a picture, and a part with declarations is open in any case. -/
  data : before.any opensProcedure = true ∨ opensData line = opensData next ∨
    (∀ t ∈ Sentence.sentences next, Declaration.hasPicture t = false) ∧
      (opensData line = true ∨ before.any opensData = true)
  /-- The name stands before the second line; else the second line has no name, and the first line
  takes none from it. -/
  name : (∃ l ∈ before, (nameOf? l).isSome = true) ∨ (nameOf? line).isSome = true ∨
    nameOf? next = none ∧ (isBareName line = true → ∀ c ∈ next.head?, isNameChar c = false)

section

variable {before : List Text} {line next body : Text} (h : Joinable before line next)
  (hline : line = body ++ ['.']) (after : List Text)

include h hline

/-- **Joining does not change the name** of a program, under the condition on names. -/
theorem findName_joined (hnext : trimLeft next = next) :
    findName (before ++ Sentence.joined line next :: after) =
      findName (before ++ line :: next :: after) := by
  unfold findName
  rw [List.findSome?_append, List.findSome?_append]
  rcases h.name with ⟨l, hl, hname⟩ | hname | ⟨hnone, hbare⟩
  · -- the first name counts, and it stands before both lines
    obtain ⟨name, hfound⟩ : ∃ name, before.findSome? nameOf? = some name := by
      rw [← Option.isSome_iff_exists, List.findSome?_isSome_iff]
      exact ⟨l, hl, hname⟩
    rw [hfound]
    rfl
  · have hbare : isBareName line = true → ∀ c ∈ next.head?, isNameChar c = false := by
      intro hbare
      rw [nameOf?_of_isBareName hbare] at hname
      cases hname
    obtain ⟨name, hname⟩ := Option.isSome_iff_exists.1 hname
    rw [List.findSome?_cons, List.findSome?_cons, nameOf?_joined hline hnext hbare, hname]
  · rw [List.findSome?_cons, List.findSome?_cons, List.findSome?_cons,
      nameOf?_joined hline hnext hbare, hnone]

variable (hbody : Sentence.openLiteral body = none)

include hbody

/-- **Joining does not change the sentences of the procedure**, under the condition on headers. -/
theorem procedureSentences_joined :
    procedureSentences (before ++ Sentence.joined line next :: after) =
      procedureSentences (before ++ line :: next :: after) := by
  have hsentences := Sentence.sentences_joined hline hbody next
  have hopens := opensProcedure_joined hline next
  rw [procedureSentences_append, procedureSentences_append]
  cases hheader : opensProcedure line with
  | true =>
    have hnext : opensProcedure next = true := h.procedure ▸ hheader
    simp [procedureSentences, hopens, hheader, hnext]
  | false =>
    have hnext : opensProcedure next = false := h.procedure ▸ hheader
    simp [procedureSentences, hopens, hheader, hnext, hsentences]

/-- **Joining does not change the declarations**, under the condition on data parts: what is dropped
or added behind a header holds no picture. -/
theorem dataTexts_joined :
    (dataTexts false (before ++ Sentence.joined line next :: after)).filter Declaration.hasPicture =
      (dataTexts false (before ++ line :: next :: after)).filter Declaration.hasPicture := by
  have hsentences := Sentence.sentences_joined hline hbody next
  have hopens := opensProcedure_joined hline next
  have hmarks := opensData_joined hline next
  rw [dataTexts_append, dataTexts_append]
  split
  · rfl
  · rename_i hbefore
    rw [List.filter_append, List.filter_append, Bool.false_or]
    congr 1
    -- what is left is what the two lines do in the part that is open behind the lines before them
    cases hheader : opensProcedure line with
    | true => simp [dataTexts, hopens, hheader]
    | false =>
      have hnext : opensProcedure next = false := h.procedure ▸ hheader
      rcases h.data.resolve_left hbefore with hsame | ⟨hnone, hpart⟩
      · -- two headers are read as one, and two other lines as their sentences
        cases hmark : opensData line with
        | true =>
          have hnextMark : opensData next = true := hsame ▸ hmark
          simp [dataTexts, hopens, hmarks, hheader, hnext, hmark, hnextMark]
        | false =>
          have hnextMark : opensData next = false := hsame ▸ hmark
          cases before.any opensData <;>
            simp [dataTexts, hopens, hmarks, hheader, hnext, hmark, hnextMark, hsentences]
      · -- what a header in front drops, and what a header behind adds, has no picture
        have hfilter : (Sentence.sentences next).filter Declaration.hasPicture = [] := by
          rw [List.filter_eq_nil_iff]
          intro t ht
          simp [hnone t ht]
        cases hmark : opensData line with
        | true =>
          cases hnextMark : opensData next <;>
            simp [dataTexts, hopens, hmarks, hheader, hnext, hmark, hnextMark, hfilter]
        | false =>
          have hopen : before.any opensData = true :=
            hpart.resolve_left (by rw [hmark]; exact Bool.false_ne_true)
          cases hnextMark : opensData next <;>
            simp [dataTexts, hopens, hmarks, hheader, hnext, hmark, hnextMark, hopen, hsentences,
              hfilter]

end

/-- A program is read from its name, the sentences with a picture and those of the procedure, up to
the numbers of lines. -/
theorem map_unnumbered_ofContents (lines : List Text) :
    (ofContents lines).map unnumbered =
      (declare {} (((dataTexts false lines).filter Declaration.hasPicture).map fun t ↦ (0, t))).map
        fun declarations ↦
          { name := findName lines
            declarations := declarations
            paragraphs := Table.ofList (sections (procedureSentences lines)).2
            procedure := procedureSentences lines } := by
  have hdeclare := map_unnumbered_declare {} (dataSentences 1 false lines)
  rw [pictured, map_dataSentences] at hdeclare
  rw [show (Table.map Declaration.unnumbered {} : Table Declaration) = {} from rfl] at hdeclare
  rw [← hdeclare, ofContents]
  cases declare {} (dataSentences 1 false lines) <;> rfl

/-- The sentences that are passed over are read from the sentences with a picture. -/
theorem namelessSentences_eq (lines : List Text) :
    namelessSentences lines = nameless (((dataTexts false (Sentence.normalize lines)).filter
      Declaration.hasPicture).map fun t ↦ (0, t)) := by
  rw [← map_dataSentences 1]
  exact nameless_eq _

end Program

/-! ### Runs -/

/-- Slots do not depend on the numbers of lines. -/
theorem State.declareAll_unnumbered (store : Store) (declarations : List Declaration) :
    declareAll store (declarations.map Declaration.unnumbered) = declareAll store declarations := by
  induction declarations generalizing store with
  | nil => rfl
  | cons d rest ih =>
    rw [List.map_cons, declareAll, declareAll, Declaration.unnumbered]
    cases store.declare d.name d.picture d.value with
    | mk declared fault =>
      cases fault with
      | none => exact ih declared
      | some fault => rfl

/-- The start of a program does not depend on the numbers of lines. -/
theorem State.start_unnumbered (p : Program) (input : Option Input) :
    State.start p.unnumbered input = State.start p input := by
  unfold State.start
  rw [← State.declareAll_unnumbered {} (p.declarations.entries.map (·.2)), Program.unnumbered,
    Table.map, List.map_map, List.map_map]
  rfl

/-- A run does not see the numbers of lines. -/
theorem Session.run_congr {lines lines' : List Text}
    (hparse : (Program.parse lines).map Program.unnumbered =
      (Program.parse lines').map Program.unnumbered)
    (hnameless : Program.namelessSentences lines = Program.namelessSentences lines')
    (limits : Limits) (session : Session) :
    Session.run limits lines session = Session.run limits lines' session := by
  have hsize (p : Program) : p.unnumbered.declarations.size = p.declarations.size :=
    List.length_map _
  have hrun (p : Program) : p.unnumbered.execute limits = p.execute limits := rfl
  unfold Session.run
  rw [hnameless]
  cases hp : Program.parse lines with
  | error fault =>
    rw [hp] at hparse
    cases hq : Program.parse lines' with
    | error fault' =>
      rw [hq] at hparse
      cases hparse
      rfl
    | ok q =>
      rw [hq] at hparse
      cases hparse
  | ok p =>
    rw [hp] at hparse
    cases hq : Program.parse lines' with
    | error fault' =>
      rw [hq] at hparse
      cases hparse
    | ok q =>
      rw [hq] at hparse
      -- a session looks at every field of the program but the line numbers
      have hpq : p.unnumbered = q.unnumbered := Except.ok.inj hparse
      have hname : p.name = q.name := (congrArg Program.name hpq :)
      have hparagraphs : p.paragraphs = q.paragraphs := (congrArg Program.paragraphs hpq :)
      have hprocedure : p.procedure = q.procedure := (congrArg Program.procedure hpq :)
      dsimp only
      rw [← State.start_unnumbered p, ← State.start_unnumbered q, ← hsize p, ← hsize q, ← hrun p,
        ← hrun q, hpq, hname, hparagraphs, hprocedure]

/-- **Joining two lines changes nothing** where it may be done: for lines that read as two adjacent
ones, the first of which ends in a period outside literals, the joined line leaves the program as it
was, up to the numbers of lines, and every run. -/
theorem Session.run_joined {lines before after : List Text} {line next body : Text}
    (hlines : Sentence.normalize lines = before ++ line :: next :: after)
    (hline : line = body ++ ['.']) (hbody : Sentence.openLiteral body = none)
    (h : Program.Joinable before line next) :
    (Program.parse (before ++ Sentence.joined line next :: after)).map Program.unnumbered =
        (Program.parse lines).map Program.unnumbered ∧
      ∀ limits session,
        Session.run limits (before ++ Sentence.joined line next :: after) session =
          Session.run limits lines session := by
  have hcontents : ∀ l ∈ before ++ line :: next :: after, Sentence.IsContent l := fun l hl ↦
    Sentence.isContent_of_mem_normalize (hlines ▸ hl)
  have hnext : Sentence.IsContent next := hcontents next (by simp)
  have hjoined : Sentence.normalize (before ++ Sentence.joined line next :: after) =
      before ++ Sentence.joined line next :: after := by
    refine Sentence.normalize_eq_self fun l hl ↦ ?_
    rcases List.mem_append.1 hl with hl | hl
    · exact hcontents l (by simp [hl])
    · rcases List.mem_cons.1 hl with rfl | hl
      · exact (hcontents line (by simp)).joined hnext hline hbody
      · exact hcontents l (by simp [hl])
  -- a session reads the data part, the name and the procedure, and each is the same
  have hdata := Program.dataTexts_joined h hline after hbody
  have hparse : (Program.parse (before ++ Sentence.joined line next :: after)).map
      Program.unnumbered = (Program.parse lines).map Program.unnumbered := by
    rw [Program.parse, Program.parse, hjoined, hlines, Program.map_unnumbered_ofContents,
      Program.map_unnumbered_ofContents, hdata,
      Program.findName_joined h hline after hnext.trimLeft_eq,
      Program.procedureSentences_joined h hline after hbody]
  have hnameless : Program.namelessSentences (before ++ Sentence.joined line next :: after) =
      Program.namelessSentences lines := by
    rw [Program.namelessSentences_eq, Program.namelessSentences_eq, hjoined, hlines, hdata]
  exact ⟨hparse, Session.run_congr hparse hnameless⟩

/-- Two declarations may be joined, also where a value holds a period. -/
theorem Session.run_joined_declarations :
    let before := ["PROGRAM-ID. A.", "DATA DIVISION."].map String.toList
    let line := "01 X PIC X(4) VALUE 'A. B'.".toList
    let next := "01 Y PIC 9.".toList
    let after := ["PROCEDURE DIVISION.", "DISPLAY X.", "DISPLAY Y."].map String.toList
    (Program.parse (before ++ Sentence.joined line next :: after)).map Program.unnumbered =
        (Program.parse (before ++ line :: next :: after)).map Program.unnumbered ∧
      ∀ limits session,
        Session.run limits (before ++ Sentence.joined line next :: after) session =
          Session.run limits (before ++ line :: next :: after) session := by
  intro before line next after
  have hlines : Sentence.normalize (before ++ line :: next :: after) =
      before ++ line :: next :: after := by decide +kernel
  have hline : line = "01 X PIC X(4) VALUE 'A. B'".toList ++ ['.'] := by decide
  have hname : ∃ l ∈ before, (Program.nameOf? l).isSome = true := by decide +kernel
  exact Session.run_joined hlines hline (by decide)
    ⟨by decide +kernel, .inr (.inl (by decide +kernel)), .inl hname⟩

/-- Adjacent lines that must stay apart, between the lines around them: a header of the procedure
first and second, a header of a part with declarations first, second and second in an open part, and
a name on the second line, all of it and its text alone. -/
def separate : List (List Text × Text × Text × List Text) :=
  [([], "PROCEDURE DIVISION.", "DISPLAY 'A'.", []),
   ([], "ENVIRONMENT DIVISION.", "PROCEDURE DIVISION.", ["DISPLAY 'A'."]),
   ([], "DATA DIVISION.", "01 X PIC 9.", []),
   ([], "ENVIRONMENT DIVISION.", "DATA DIVISION.", ["01 X PIC 9."]),
   (["DATA DIVISION."], "01 X PIC 9.", "LOCAL-STORAGE SECTION. 01 Y PIC 9.", []),
   ([], "IDENTIFICATION DIVISION.", "PROGRAM-ID. A.", []),
   ([], "PROGRAM-ID.", "A.", [])].map fun (before, line, next, after) ↦
    (before.map String.toList, line.toList, next.toList, after.map String.toList)

/-- Joined, each of them is another program. -/
theorem parse_separate_ne : ∀ e ∈ separate,
    let (before, line, next, after) := e
    (Program.parse (before ++ Sentence.joined line next :: after)).map Program.unnumbered ≠
      (Program.parse (before ++ line :: next :: after)).map Program.unnumbered := by
  decide +kernel

end Cobol
