import Cobol.Path
import Cobol.Text.Digit
import Cobol.Text.Shown

/-!
# Arguments

The arguments of the command: one optional source path and the options. An option is given by its
short form, by its long form or by an unambiguous beginning of that; a value follows as the next
argument, behind an equals sign, or directly behind a short form. Short forms without a value may be
joined, also behind an equals sign. Behind a double dash everything is a path.

## Shape decisions

* Arguments are first sorted into options, plain arguments and the double dash (`classify`), one by
  one; an ambiguous option is found here, before anything else.
* The sorted arguments are then consumed from the left (`consume`). What nothing takes is collected,
  and an error if it is not empty.
* `--help` and `--version` end the reading where they stand.
* A double dash is no value: an option with one as its value is given, but names no file
  (`FileOption.unnamed`).
-/

namespace Cobol.CommandLine

open Text

/-- The options. -/
inductive Flag
  /-- Shows a help text. -/
  | help
  /-- Shows the version. -/
  | version
  /-- A file with input. -/
  | input
  /-- The file for the output. -/
  | output
  /-- Output as a document. -/
  | json
  /-- A document tells where the program came from. -/
  | includeSourceInfo
  /-- A settings file. -/
  | config
  /-- All notes are shown. -/
  | verbose
  /-- Only errors are shown. -/
  | quiet
  deriving DecidableEq, Repr

namespace Flag

/-- The forms of the options, in the order in which they are searched. -/
def forms : List (Text × Flag) :=
  [("-h".toList, help), ("--help".toList, help), ("--version".toList, version),
   ("--input".toList, input), ("-o".toList, output), ("--output".toList, output),
   ("--json".toList, json), ("--include-source-info".toList, includeSourceInfo),
   ("--config".toList, config), ("-v".toList, verbose), ("--verbose".toList, verbose),
   ("-q".toList, quiet), ("--quiet".toList, quiet)]

/-- The option takes a value. -/
def takesValue : Flag → Bool
  | input | output | config => true
  | _ => false

/-- The name of an option in messages: its forms, divided by slashes. -/
def name (f : Flag) : Text :=
  ['/'].intercalate ((forms.filter fun e ↦ e.2 == f).map (·.1))

end Flag

/-! ### Results -/

/-- What is said about a file that an option can name. -/
inductive FileOption
  /-- The option is not given. -/
  | absent
  /-- The option is given and names no file. -/
  | unnamed
  /-- The option names a file. -/
  | file (p : Path)
  deriving DecidableEq, Repr

namespace FileOption

/-- What the value of an option says. -/
def ofValue (value : Text) : FileOption :=
  if value = ['-', '-'] then .unnamed else .file (Path.ofText value)

/-- The file that is named. -/
def path? : FileOption → Option Path
  | .file p => some p
  | _ => none

end FileOption

/-- What the arguments ask for. -/
structure Arguments where
  /-- The source file. -/
  source : Option Path := none
  /-- The file with input. -/
  input : FileOption := .absent
  /-- The file for the output. -/
  output : FileOption := .absent
  /-- The settings file. -/
  config : FileOption := .absent
  /-- Output as a document. -/
  json : Bool := false
  /-- A document tells where the program came from. -/
  includeSourceInfo : Bool := false
  /-- All notes are shown. -/
  verbose : Bool := false
  /-- Only errors are shown. -/
  quiet : Bool := false
  deriving DecidableEq, Repr

/-- Why the reading of arguments ends early. -/
inductive Early
  /-- The help text was asked for. -/
  | help
  /-- The version was asked for. -/
  | version
  /-- An option that is the beginning of several. -/
  | ambiguous (argument : Text) (forms : List Text)
  /-- An option without the value it takes. -/
  | valueNeeded (flag : Flag)
  /-- An option with a value it does not take. -/
  | valueIgnored (flag : Flag) (value : Text)
  /-- Arguments that nothing takes. -/
  | unrecognized (arguments : List Text)
  /-- Options that exclude each other. -/
  | excluded
  deriving DecidableEq, Repr

/-- The wording of an error in the arguments; help and version are none. -/
def Early.message? : Early → Option Text
  | .help | .version => none
  | .ambiguous argument forms =>
    some ("ambiguous option: ".toList ++ argument ++ " could match ".toList ++
      ", ".toList.intercalate forms)
  | .valueNeeded flag =>
    some ("argument ".toList ++ flag.name ++ ": expected one argument".toList)
  | .valueIgnored flag value =>
    some ("argument ".toList ++ flag.name ++ ": ignored explicit argument ".toList ++ shown value)
  | .unrecognized arguments =>
    some ("unrecognized arguments: ".toList ++ [' '].intercalate arguments)
  | .excluded => some "--verbose and --quiet cannot be used together".toList

/-! ### Sorting -/

/-- An option as it was found: the option, its form, and a value given with it. -/
structure Found where
  /-- The option. -/
  flag : Flag
  /-- It was given by a short form. -/
  short : Bool
  /-- The value given with it. -/
  value? : Option Text := none
  deriving DecidableEq, Repr

/-- What an argument is. -/
inductive Token
  /-- A plain argument. -/
  | plain (argument : Text)
  /-- The double dash. -/
  | dashes
  /-- An option. -/
  | option (found : Found)
  /-- An option that there is not. -/
  | noOption (argument : Text)
  deriving DecidableEq, Repr

/-- The argument as it was given, if it is no option. -/
def Token.argument : Token → Text
  | .plain a | .noOption a => a
  | .dashes => ['-', '-']
  | .option _ => []

/-- A form of one dash. -/
def isShort (form : Text) : Bool :=
  match form with
  | '-' :: c :: _ => c != '-'
  | _ => false

/-- A negative number: a dash before digits that may have a point before the last of them. -/
def isNegativeNumber (t : Text) : Bool :=
  let t := if t.getLast? == some '\n' then t.dropLast else t
  match t with
  | '-' :: rest =>
    match rest.dropWhile isDecimal with
    | [] => !rest.isEmpty
    | '.' :: places => !places.isEmpty && places.all isDecimal
    | _ => false
  | _ => false

/-- The options of which an argument with two dashes is a beginning. -/
def longMatches (argument : Text) : List (Text × Found) :=
  let (lead, value?) := match cutAt? '=' argument with
    | some (lead, value) => (lead, some value)
    | none => (argument, none)
  (Flag.forms.filter fun e ↦ lead.isPrefixOf e.1).map fun e ↦
    (e.1, ⟨e.2, isShort e.1, value?⟩)

/-- The options whose short form an argument with one dash starts with. -/
def shortMatches (argument : Text) : List (Text × Found) :=
  (Flag.forms.filter fun e ↦ e.1 == argument.take 2).map fun e ↦
    (e.1, ⟨e.2, true, some (argument.drop 2)⟩)

/-- Sorts one argument before the double dash. -/
def classify (argument : Text) : Except Early Token :=
  if argument.head? ≠ some '-' then .ok (.plain argument)
  else
    match Flag.forms.lookup argument, cutAt? '=' argument with
    | some flag, _ => .ok (.option ⟨flag, isShort argument, none⟩)
    | none, split =>
      if argument.length = 1 then .ok (.plain argument)
      else
        match split.bind fun (form, value) ↦
            (Flag.forms.lookup form).map fun flag ↦ Found.mk flag (isShort form) (some value) with
        | some found => .ok (.option found)
        | none =>
          match if isShort argument then shortMatches argument else longMatches argument with
          | [(_, found)] => .ok (.option found)
          | found :: more => .error (.ambiguous argument ((found :: more).map (·.1)))
          | [] =>
            if isNegativeNumber argument || argument.contains ' ' then .ok (.plain argument)
            else .ok (.noOption argument)

/-- Sorts the arguments. -/
def classifyAll : List Text → Except Early (List Token)
  | [] => .ok []
  | argument :: rest =>
    if argument = ['-', '-'] then .ok (.dashes :: rest.map .plain)
    else do return (← classify argument) :: (← classifyAll rest)

/-! ### Consuming -/

/-- What has been read so far. -/
structure Progress where
  /-- What is asked for. -/
  arguments : Arguments := {}
  /-- The source path has been looked for. -/
  sourceRead : Bool := false
  /-- The arguments that nothing took. -/
  extras : List Text := []

/-- Takes an option without a value. -/
def takeFlag (flag : Flag) (a : Arguments) : Except Early Arguments :=
  match flag with
  | .help => .error .help
  | .version => .error .version
  | .json => .ok { a with json := true }
  | .includeSourceInfo => .ok { a with includeSourceInfo := true }
  | .verbose => .ok { a with verbose := true }
  | .quiet => .ok { a with quiet := true }
  | .input | .output | .config => .ok a

/-- Takes an option with its value. -/
def takeValue (flag : Flag) (value : Text) (a : Arguments) : Arguments :=
  match flag with
  | .input => { a with input := FileOption.ofValue value }
  | .output => { a with output := FileOption.ofValue value }
  | .config => { a with config := FileOption.ofValue value }
  | _ => a

/-- An argument read as options that stand together: the options without value, and how the last of
them ends. -/
inductive Joined
  /-- All are options without value. -/
  | flags (flags : List Flag)
  /-- The last takes the value that is given with it. -/
  | value (flags : List Flag) (last : Flag) (value : Text)
  /-- The last takes the next argument. -/
  | needsValue (flags : List Flag) (last : Flag)

/-- Puts an option in front. -/
def Joined.push (first : Flag) : Joined → Joined
  | .flags more => .flags (first :: more)
  | .value more last v => .value (first :: more) last v
  | .needsValue more last => .needsValue (first :: more) last

/-- Reads an option and the value given with it. Behind a short form that takes no value, the first
character of the value is another short form. -/
def join (flag : Flag) (short : Bool) (value : Text) : Except Early Joined :=
  if flag.takesValue then .ok (.value [] flag value)
  else
    match value with
    | [] => .error (.valueIgnored flag value)
    | c :: rest =>
      match if short then Flag.forms.lookup ['-', c] else none, rest with
      | none, _ => .error (.valueIgnored flag value)
      | some next, [] =>
        .ok (if next.takesValue then .needsValue [flag] next else .flags [flag, next])
      | some next, _ :: _ => (join next true rest).map (·.push flag)

/-- The options that one argument gives. -/
def Found.joined (found : Found) : Except Early Joined :=
  match found.value? with
  | none => .ok (if found.flag.takesValue then .needsValue [] found.flag else .flags [found.flag])
  | some value => join found.flag found.short value

/-- Takes options without value in order. -/
def takeFlags (flags : List Flag) (a : Arguments) : Except Early Arguments :=
  flags.foldlM (fun a f ↦ takeFlag f a) a

/-- The number of arguments the source path takes: dashes around at most one plain argument. -/
def sourceSpan (tokens : List Token) : List Token × List Token :=
  let isDashes (t : Token) : Bool := t == .dashes
  let before := tokens.takeWhile isDashes
  let rest := tokens.dropWhile isDashes
  match rest with
  | .plain a :: rest =>
    (before ++ .plain a :: rest.takeWhile isDashes, rest.dropWhile isDashes)
  | _ => (before, rest)

/-- Takes the source path from the arguments. -/
def takeSource (tokens : List Token) (p : Progress) : Progress :=
  let path := tokens.findSome? fun t ↦
    match t with
    | .plain a => some (Path.ofText a)
    | _ => none
  { p with arguments := { p.arguments with source := path }, sourceRead := true }

/-- The argument is an option, known or not. -/
def Token.isOption : Token → Bool
  | .option _ | .noOption _ => true
  | _ => false

/-- Takes the options that one argument gives, with the value that the next argument may be, and
returns what is left. -/
def takeOption (found : Found) (rest : List Token) (p : Progress) :
    Except Early (Progress × List Token) := do
  match ← found.joined with
  | .flags flags => return ({ p with arguments := ← takeFlags flags p.arguments }, rest)
  | .value flags last value =>
    return ({ p with arguments := takeValue last value (← takeFlags flags p.arguments) }, rest)
  | .needsValue flags last =>
    match rest with
    | .plain a :: rest =>
      return ({ p with arguments := takeValue last a (← takeFlags flags p.arguments) }, rest)
    | _ => throw (.valueNeeded last)

/-- Consumes the sorted arguments from the left. -/
def consume : Nat → List Token → Progress → Except Early Progress
  | 0, _, p => .ok p
  | fuel + 1, tokens, p =>
    match tokens with
    | .option found :: rest => do
      let (p, rest) ← takeOption found rest p
      consume fuel rest p
    | .noOption a :: rest => consume fuel rest { p with extras := p.extras ++ [a] }
    | _ =>
      if p.sourceRead then
        let more := tokens.dropWhile fun t ↦ !t.isOption
        let extras := p.extras ++ (tokens.takeWhile fun t ↦ !t.isOption).map Token.argument
        if more.isEmpty then .ok { p with extras := extras }
        else consume fuel more { p with extras := extras }
      else
        let (span, rest) := sourceSpan tokens
        consume fuel rest (takeSource span p)

/-- Reads the arguments. -/
def Arguments.parse (arguments : List Text) : Except Early Arguments := do
  let tokens ← classifyAll arguments
  let p ← consume (2 * tokens.length + 2) tokens {}
  if p.extras.isEmpty then return p.arguments else throw (.unrecognized p.extras)

end Cobol.CommandLine
