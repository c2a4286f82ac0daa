import Sparkboard.Chart.Svg
import Sparkboard.Decimal.Parse
/-!
# The command line

A command line names a command and its options.  A long option takes its value behind `=` or as the
next argument, a short one attached, behind `=` or as the next argument.  An option is given at most
once, under its full name.
-/

namespace Sparkboard.Command

/-- What `render` is asked to do. -/
structure RenderOptions where
  input : String
  outDir : String
  config : Option String
  scale : Nat
  refresh : Bool
  snapshot : Option String
  deriving DecidableEq, Repr

/-- What `loader` is asked to do. -/
structure LoaderOptions where
  steps : Nat
  finish : Bool
  deriving DecidableEq, Repr

/-- What `activity` is asked to do. -/
structure ActivityOptions where
  input : String
  now : Option String
  deriving DecidableEq, Repr

/-- What a command line asks for. -/
inductive Request where
  | render (options : RenderOptions)
  | loader (options : LoaderOptions)
  | activity (options : ActivityOptions)
  | version
  | help
  deriving DecidableEq, Repr

/-- Why a command line is refused. -/
inductive UsageError where
  | missingCommand
  | unknownCommand (name : String)
  | unknownOption (name : String)
  | unexpectedArgument (text : String)
  | missingValue (name : String)
  | unexpectedValue (name : String)
  | invalidValue (name text : String)
  | repeatedOption (name : String)
  | missingOption (name : String)
  deriving DecidableEq, Repr

def UsageError.message : UsageError → String
  | missingCommand => "a command is required"
  | unknownCommand name => s!"unknown command `{name}`"
  | unknownOption name => s!"unknown option `{name}`"
  | unexpectedArgument text => s!"unexpected argument `{text}`"
  | missingValue name => s!"option `{name}` needs a value"
  | unexpectedValue name => s!"option `{name}` takes no value"
  | invalidValue name text => s!"invalid value `{text}` for option `{name}`"
  | repeatedOption name => s!"option `{name}` is given twice"
  | missingOption name => s!"option `{name}` is required"

/-- What the value of an option must be. -/
inductive ValueKind where
  /-- A path, which is never empty. -/
  | path
  | text
  /-- A whole number in a range. -/
  | number (least greatest : Nat)
  deriving DecidableEq, Repr

/-- The value of an option that was given. -/
inductive Setting where
  /-- The option takes no value. -/
  | present
  | text (value : String)
  | number (value : Nat)
  deriving DecidableEq, Repr

def ValueKind.read? : ValueKind → String → Option Setting
  | path, value => if value = "" then none else some (.text value)
  | text, value => some (.text value)
  | number least greatest, value =>
    match Decimal.parseInteger 10 value.toList with
    | .ok n => if (least : Int) ≤ n ∧ n ≤ greatest then some (.number n.toNat) else none
    | .error _ => none

/-- An option that a command knows. -/
inductive OptionSpec where
  /-- An option that takes no value. -/
  | flag (long : String)
  /-- An option with a value, which may have a short name as well. -/
  | valued (long : String) (short : Option Char) (kind : ValueKind)
  deriving DecidableEq, Repr

def OptionSpec.long : OptionSpec → String
  | flag long | valued long _ _ => long

/-- The full name of the option with a short name, and the kind of its value. -/
def OptionSpec.ofShort? (c : Char) : OptionSpec → Option (String × ValueKind)
  | flag _ => none
  | valued long short kind => if short = some c then some (long, kind) else none

/-- The options given so far, each with its value. -/
abbrev Settings := List (String × Setting)

/-- What came of reading options. -/
inductive Parsed where
  | settings (given : Settings)
  | help
  deriving DecidableEq, Repr

/-- Can the argument be the value of the option before it?  What looks like an option cannot. -/
def isValue (arg : String) : Bool :=
  match arg.toList with
  | ['-'] => true
  | '-' :: _ => false
  | _ => true

/-- Splits a long option at its first `=`. -/
def splitAtEquals (s : List Char) : String × Option String :=
  let name := s.takeWhile (· ≠ '=')
  match s.dropWhile (· ≠ '=') with
  | [] => (String.ofList name, none)
  | _ :: value => (String.ofList name, some (String.ofList value))

/-- Notes an option, unless it was given before. -/
def note (given : Settings) (name : String) (setting : Setting) : Except UsageError Settings :=
  if (given.lookup name).isSome then .error (.repeatedOption name)
  else .ok (given ++ [(name, setting)])

def noteValue (given : Settings) (name : String) (kind : ValueKind) (value : String) :
    Except UsageError Settings :=
  match kind.read? value with
  | none => .error (.invalidValue name value)
  | some setting => note given name setting

/-- Reads the options of a command, each with its value, so that a request for help is heard only
behind options that can be used.  `pending` is an option that waits for its value. -/
def readOptions (specs : List OptionSpec) (pending : Option (String × ValueKind))
    (given : Settings) : List String → Except UsageError Parsed
  | [] =>
    match pending with
    | some (name, _) => .error (.missingValue name)
    | none => .ok (.settings given)
  | arg :: rest =>
    match pending with
    | some (name, kind) =>
      if isValue arg then do
        let given ← noteValue given name kind arg
        readOptions specs none given rest
      else .error (.missingValue name)
    | none =>
      match arg.toList with
      | ['-', '-'] =>
        match rest with
        | [] => .ok (.settings given)
        | extra :: _ => .error (.unexpectedArgument extra)
      | '-' :: '-' :: long =>
        let (name, value) := splitAtEquals long
        match specs.find? fun s => s.long == name, value with
        | none, none => if name = "help" then .ok .help else .error (.unknownOption name)
        | none, some _ => .error (.unknownOption name)
        | some (.flag _), none => do
          let given ← note given name .present
          readOptions specs none given rest
        | some (.flag _), some _ => .error (.unexpectedValue name)
        | some (.valued _ _ kind), none => readOptions specs (some (name, kind)) given rest
        | some (.valued _ _ kind), some value => do
          let given ← noteValue given name kind value
          readOptions specs none given rest
      | '-' :: short :: attached =>
        match specs.findSome? (OptionSpec.ofShort? short), attached with
        | none, _ =>
          if short = 'h' then .ok .help else .error (.unknownOption (String.ofList [short]))
        | some pending, [] => readOptions specs (some pending) given rest
        | some (name, kind), '=' :: value => do
          let given ← noteValue given name kind (String.ofList value)
          readOptions specs none given rest
        | some (name, kind), value => do
          let given ← noteValue given name kind (String.ofList value)
          readOptions specs none given rest
      | _ => .error (.unexpectedArgument arg)

/-- The text that an option was given, if it was given one. -/
def textOf? (given : Settings) (name : String) : Option String :=
  match given.lookup name with
  | some (.text value) => some value
  | _ => none

def requiredText (given : Settings) (name : String) : Except UsageError String :=
  match textOf? given name with
  | none => .error (.missingOption name)
  | some value => .ok value

/-- The number that an option was given, if it was given one. -/
def numberOf? (given : Settings) (name : String) : Option Nat :=
  match given.lookup name with
  | some (.number value) => some value
  | _ => none

/-- Was the option given? -/
def flag (given : Settings) (name : String) : Bool :=
  (given.lookup name).isSome

/-- The options of `render`. -/
def renderSpecs : List OptionSpec := [
  .valued "input" (some 'i') .path, .valued "out-dir" (some 'o') .path,
  .valued "config" none .path, .valued "scale" none (.number 1 ScaleTooLarge.limit),
  .flag "refresh", .valued "snapshot" none .path]

/-- The options of `loader`. -/
def loaderSpecs : List OptionSpec := [
  .valued "steps" none (.number 0 (Nat.pow 2 32 - 1)), .flag "finish"]

/-- The options of `activity`. -/
def activitySpecs : List OptionSpec := [.valued "input" (some 'i') .path, .valued "now" none .text]

/-- The options of `render` from what was given. -/
def RenderOptions.ofSettings (given : Settings) : Except UsageError RenderOptions := do
  return {
    input := ← requiredText given "input"
    outDir := ← requiredText given "out-dir"
    config := textOf? given "config"
    scale := (numberOf? given "scale").getD 4
    refresh := flag given "refresh"
    snapshot := textOf? given "snapshot" }

/-- The options of `loader` from what was given. -/
def LoaderOptions.ofSettings (given : Settings) : Except UsageError LoaderOptions := do
  return {
    steps := (numberOf? given "steps").getD 4
    finish := flag given "finish" }

/-- The options of `activity` from what was given. -/
def ActivityOptions.ofSettings (given : Settings) : Except UsageError ActivityOptions := do
  return {
    input := ← requiredText given "input"
    now := textOf? given "now" }

def parseCommand {α : Type} (specs : List OptionSpec)
    (ofSettings : Settings → Except UsageError α) (request : α → Request) (args : List String) :
    Except UsageError Request := do
  match ← readOptions specs none [] args with
  | .help => return .help
  | .settings given => return request (← ofSettings given)

def commandNames : List String := ["render", "loader", "activity", "help"]

def Request.parse : List String → Except UsageError Request
  | [] => .error .missingCommand
  | "render" :: args => parseCommand renderSpecs RenderOptions.ofSettings .render args
  | "loader" :: args => parseCommand loaderSpecs LoaderOptions.ofSettings .loader args
  | "activity" :: args => parseCommand activitySpecs ActivityOptions.ofSettings .activity args
  | ["help"] => .ok .help
  | ["help", command] =>
    if command ∈ commandNames then .ok .help else .error (.unknownCommand command)
  | "help" :: _ :: extra :: _ => .error (.unexpectedArgument extra)
  | arg :: _ =>
    match arg.toList with
    | '-' :: 'V' :: _ => .ok .version
    | '-' :: 'h' :: _ => .ok .help
    | _ =>
      if arg = "--version" then .ok .version
      else if arg = "--help" then .ok .help
      else if isValue arg then .error (.unknownCommand arg)
      else .error (.unknownOption arg)

end Sparkboard.Command
