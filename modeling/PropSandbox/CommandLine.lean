import PropSandbox.Command
import PropSandbox.Document.Numeral
import PropSandbox.Settings

/-!
# Command lines

A command line gives options of the program, then a command, then the options and arguments of that
command. An option is written with its value in the same word or in the next one, and `--` ends the
options. Words are taken one after another. A value that was given in a word of its own is looked at
only when the next option or argument begins, so of two mistakes a later one may be found first; the
words of the command are all taken before the last option of the program is looked at.
-/

namespace PropSandbox

/-- What is wrong with a command line, or what it asks for instead of a command. -/
inductive UsageFault where
  /-- Nothing was given. -/
  | nothingGiven
  | noCommand
  | unknownCommand
  | missingArgument
  | invalidNumber
  /-- A value is missing or not one of those allowed. -/
  | invalidValue
  | unknownArgument
  | givenTwice
  /-- A value for an option that takes none. -/
  | unexpectedValue
  | helpRequested
  | versionRequested
  deriving DecidableEq, Repr

/-- What can be given on a command line. -/
inductive Parameter where
  | config | componentsDir | fixturesDir | policy | seed
  | component | count | save | index
  | help | version
  deriving DecidableEq, Repr

/-- What a command line asks for. -/
structure Invocation where
  config : String
  componentsDir : Option String
  fixturesDir : Option String
  policy : Option PolicyName
  seed : Option Nat
  command : Command
  deriving DecidableEq, Repr

/-- The commands by name. -/
inductive Verb where
  | list | infer | generate | check | display | form
  deriving DecidableEq, Repr

namespace Verb

def ofWord? (word : String) : Option Verb :=
  [("list", .list), ("infer", .infer), ("generate", .generate), ("check", .check),
   ("show", .display), ("form", .form)].lookup word

/-- The arguments of a command, in order. -/
def arguments : Verb → List Parameter
  | .list => []
  | .form => [.component, .index]
  | _ => [.component]

end Verb

namespace Parameter

/-- Whether an option comes with a value. -/
def takesValue : Parameter → Bool
  | .save | .help | .version => false
  | _ => true

/-- The number of 64 bits that a word writes, with or without a plus sign. -/
def natural? (word : String) : Option Nat :=
  let digits := match word.toList with
    | '+' :: rest => rest
    | cs => cs
  (naturalOfDigits? 10 digits).filter (· < 0x10000000000000000)

def fault? (value : String) : Parameter → Option UsageFault
  | .config | .componentsDir | .fixturesDir => if value.isEmpty then some .invalidValue else none
  | .policy => if (PolicyName.ofText? value).isSome then none else some .invalidValue
  | .seed | .count | .index => if (natural? value).isSome then none else some .invalidNumber
  | _ => none

end Parameter

/-- The options that may stand at a place of the command line. -/
structure OptionNames where
  long : List (String × Parameter)
  short : List (Char × Parameter)

namespace OptionNames

def program : OptionNames where
  long :=
    [("config", .config), ("components-dir", .componentsDir), ("fixtures-dir", .fixturesDir),
     ("policy", .policy), ("seed", .seed), ("help", .help), ("version", .version)]
  short := [('c', .config), ('h', .help), ('V', .version)]

def ofVerb : Verb → OptionNames
  | .generate =>
    { long := [("count", .count), ("save", .save), ("help", .help)]
      short := [('n', .count), ('h', .help)] }
  | _ => { long := [("help", .help)], short := [('h', .help)] }

end OptionNames

/-- What has been given so far. -/
structure Given where
  values : List (Parameter × String)
  /-- What was begun last and not yet looked at, with its value if that was there. -/
  pending : Option (Parameter × Option String)

namespace Given

def nothing : Given := ⟨[], none⟩

def value? (given : Given) (p : Parameter) : Option String :=
  given.values.lookup p

/-- Takes a value, which is given once and has to be allowed. -/
def take (given : Given) (p : Parameter) (value : String) : Except UsageFault Given :=
  if (given.value? p).isSome then throw .givenTwice
  else
    match p.fault? value with
    | some fault => throw fault
    | none => pure { given with values := (p, value) :: given.values }

/-- Looks at what was begun last. -/
def settle (given : Given) : Except UsageFault Given :=
  match given.pending with
  | none => pure given
  | some (_, none) => throw .invalidValue
  | some (p, some value) => { given with pending := none }.take p value

/-- Whether the next word is the value of an option. -/
def awaits (given : Given) : Bool :=
  match given.pending with
  | some (_, none) => true
  | _ => false

/-- Begins an option or argument, with its value if that is there. -/
def begin (given : Given) (p : Parameter) (value : Option String) : Except UsageFault Given := do
  return { ← given.settle with pending := some (p, value) }

def flag (given : Given) (p : Parameter) : Except UsageFault Given := do
  let given ← given.settle
  if p = .help then throw .helpRequested
  else if p = .version then throw .versionRequested
  else given.take p ""

/-- Takes a long option: its name, and the value behind an equals sign. -/
def long (names : OptionNames) (given : Given) (text : List Char) : Except UsageFault Given :=
  let name := text.takeWhile (· != '=')
  let attached := text.drop name.length
  match names.long.lookup (String.ofList name) with
  | none => throw .unknownArgument
  | some p =>
    match p.takesValue, attached with
    | true, [] => given.begin p none
    | true, _ :: value => do (← given.settle).take p (String.ofList value)
    | false, [] => given.flag p
    | false, _ => throw .unexpectedValue

/-- Takes short options that stand together; the value of one is the rest of the word, perhaps
behind an equals sign. -/
def short (names : OptionNames) (given : Given) : List Char → Except UsageFault Given
  | [] => pure given
  | c :: rest =>
    match names.short.lookup c with
    | none => throw .unknownArgument
    | some p =>
      if p.takesValue then
        match rest with
        | [] => given.begin p none
        | '=' :: value | value => do (← given.settle).take p (String.ofList value)
      else do (← given.flag p).short names rest

/-- Takes a word as an option, if it is one. -/
def option? (names : OptionNames) (given : Given) (word : String) :
    Option (Except UsageFault Given) :=
  match word.toList with
  | '-' :: '-' :: c :: rest => some (given.long names (c :: rest))
  | '-' :: '-' :: [] => none
  | '-' :: c :: rest => some (given.short names (c :: rest))
  | _ => none

/-- Takes a word as the value of the option begun last. -/
def supply (given : Given) (word : String) : Given :=
  { given with pending := given.pending.map fun (p, _) => (p, some word) }

/-- Takes a word as the next argument, and answers the arguments that are left. -/
def argument (given : Given) (word : String) :
    List Parameter → Except UsageFault (Given × List Parameter)
  | [] => throw .unknownArgument
  | p :: left => do return (← given.begin p (some word), left)

end Given

namespace Verb

/-- Takes the words of a command, given the arguments that are left. -/
def given (verb : Verb) : (optionsEnded : Bool) → List Parameter → Given → List String →
    Except UsageFault Given
  | _, _, given, [] => given.settle
  | true, left, taken, word :: rest => do
    let (taken, left) ← taken.argument word left
    verb.given true left taken rest
  | false, left, taken, word :: rest =>
    if word = "--" then verb.given true left taken rest
    else
      match taken.option? (.ofVerb verb) word with
      | some read => do verb.given false left (← read) rest
      | none =>
        if taken.awaits then verb.given false left (taken.supply word) rest
        else do
          let (taken, left) ← taken.argument word left
          verb.given false left taken rest

/-- The command with what was given for it. -/
def command (verb : Verb) (given : Given) : Except UsageFault Command :=
  let number (p : Parameter) (default : Nat) :=
    ((given.value? p).bind Parameter.natural?).getD default
  match verb, given.value? .component with
  | .list, _ => pure .list
  | _, none => throw .missingArgument
  | .infer, some component => pure (.infer component)
  | .generate, some component =>
    pure (.generate component (number .count 1) (given.value? .save).isSome)
  | .check, some component => pure (.check component)
  | .display, some component => pure (.display component)
  | .form, some component => pure (.form component (number .index 0))

def read (verb : Verb) (words : List String) : Except UsageFault Command := do
  verb.command (← verb.given false verb.arguments .nothing words)

end Verb

namespace Invocation

/-- The file that settings are read from if no other is given. -/
def defaultConfig : String := "eidos.toml"

/-- What the words after `help` ask for: the help of the program or of one command. -/
def helpFault : List String → UsageFault
  | [] => .helpRequested
  | [word] =>
    if word = "help" ∨ (Verb.ofWord? word).isSome then .helpRequested else .unknownCommand
  | _ => .unknownCommand

/-- The invocation with the options that were given for the program. -/
def ofGiven (given : Given) (command : Command) : Invocation where
  config := (given.value? .config).getD defaultConfig
  componentsDir := given.value? .componentsDir
  fixturesDir := given.value? .fixturesDir
  policy := (given.value? .policy).bind PolicyName.ofText?
  seed := (given.value? .seed).bind Parameter.natural?
  command := command

def isCommand (word : String) : Bool :=
  word == "help" || (Verb.ofWord? word).isSome

/-- Takes the words of a command line. -/
def read (given : Given) : List String → Except UsageFault Invocation
  | [] => do
    let given ← given.settle
    throw (if given.values.isEmpty then .nothingGiven else .noCommand)
  | word :: rest =>
    if !given.awaits && word == "help" then throw (helpFault rest)
    else
      match if given.awaits then none else Verb.ofWord? word with
      | some verb => do
        let command ← verb.read rest
        return ofGiven (← given.settle) command
      | none =>
        if word = "--" then
          match rest with
          | [] => read given []
          | word :: _ => throw (if isCommand word then .unknownArgument else .unknownCommand)
        else
          match given.option? .program word with
          | some taken => do read (← taken) rest
          | none => if given.awaits then read (given.supply word) rest else throw .unknownCommand

/-- Reads a command line, given without the name of the program. -/
def ofWords (words : List String) : Except UsageFault Invocation :=
  read .nothing words

end Invocation

end PropSandbox
