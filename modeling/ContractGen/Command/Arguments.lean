import ContractGen.Command.Inspect
import ContractGen.Domain.Configuration

/-!
# Command-line arguments

A command comes after the flags that all commands share, and its own options and arguments after
it. Options have a long name after two dashes and perhaps a letter after one; letters can be
written together. The value of an option follows as the next argument, after an equals sign, or
directly after the letter. After two dashes alone everything is an argument.
-/

namespace ContractGen
namespace Command

open Domain

/-- What a value of an option has to be. -/
inductive ValueKind
  | text
  /-- A path, which is not empty. -/
  | path
  | oneOf (words : List String)
deriving DecidableEq, Repr, Inhabited

/-- What an option does. -/
inductive OptionKind
  /-- It is counted. -/
  | counter
  /-- It is set, once at most. -/
  | switch
  /-- It takes a value, once at most. -/
  | valued (kind : ValueKind)
  /-- It asks for help. -/
  | help
  /-- It asks for the version. -/
  | version
deriving DecidableEq, Repr, Inhabited

/-- An option. -/
structure OptionSpec where
  long : String
  short : Option Char := none
  kind : OptionKind
deriving DecidableEq, Repr, Inhabited

/-- Why no command is run. -/
inductive Stop
  | usage (message : String)
  | help
  | version
deriving DecidableEq, Repr, Inhabited

/-- The arguments read so far. -/
structure Given where
  /-- How often the counters were given. -/
  count : Nat := 0
  /-- Options with their values; that of a switch is empty. -/
  options : List (String × String) := []
  positionals : List String := []
deriving DecidableEq, Repr, Inhabited

namespace Given

/-- The value of an option. -/
def value? (g : Given) (long : String) : Option String :=
  (g.options.find? fun o => o.1 = long).map Prod.snd

/-- Whether an option is given. -/
def has (g : Given) (long : String) : Bool :=
  (g.value? long).isSome

/-- Give an option a value, unless it has one. -/
def set (g : Given) (long value : String) : Except Stop Given :=
  if g.has long then
    .error (.usage ("the argument '--" ++ long ++ "' cannot be used multiple times"))
  else
    .ok { g with options := g.options ++ [(long, value)] }

end Given

/-- Whether a value is what an option requires. -/
def ValueKind.accepts : ValueKind → String → Bool
  | text, _ => true
  | path, value => !value.isEmpty
  | oneOf words, value => value ∈ words

/-- Give a valued option its value. -/
def setValue (spec : OptionSpec) (kind : ValueKind) (value : String) (g : Given) :
    Except Stop Given :=
  if kind.accepts value then
    g.set spec.long value
  else
    .error (.usage ("invalid value '" ++ value ++ "' for '--" ++ spec.long ++ "'"))

/-- Apply an option that takes no value. -/
def applyPlain (spec : OptionSpec) (g : Given) : Except Stop Given :=
  match spec.kind with
  | .counter => .ok { g with count := g.count + 1 }
  | .switch => g.set spec.long ""
  | .help => .error .help
  | .version => .error .version
  | .valued _ => .error (.usage ("a value is required for '--" ++ spec.long ++ "'"))

/-- Whether an argument can be the value of the option before it. -/
def isValueToken (token : String) : Bool :=
  token.toList.head? ≠ some '-' || token = "-"

/-- What is left to do after the letters of one argument. -/
inductive Pending
  | done (g : Given)
  /-- The last option takes the next argument as its value. -/
  | needsValue (spec : OptionSpec) (kind : ValueKind) (g : Given)

/-- A value directly after a letter, without the equals sign in front of it. -/
def attachedValue : List Char → String
  | '=' :: value => String.ofList value
  | value => String.ofList value

/-- Apply options written as letters. -/
def applyLetters (specs : List OptionSpec) (g : Given) : List Char → Except Stop Pending
  | [] => .ok (.done g)
  | c :: cs =>
    match specs.find? fun s => s.short = some c with
    | none => .error (.usage ("unexpected argument '-" ++ c.toString ++ "'"))
    | some spec =>
      match spec.kind, cs with
      | .valued kind, [] => .ok (.needsValue spec kind g)
      | .valued kind, value => (setValue spec kind (attachedValue value) g).map .done
      | _, _ => do
        let g ← applyPlain spec g
        applyLetters specs g cs

/-- Apply an option written with its long name, and perhaps a value. -/
def applyLong (specs : List OptionSpec) (g : Given) (text : List Char) : Except Stop Pending :=
  let name := String.ofList (text.takeWhile (· ≠ '='))
  match specs.find? fun s => s.long = name with
  | none => .error (.usage ("unexpected argument '--" ++ name ++ "'"))
  | some spec =>
    match spec.kind, text.dropWhile (· ≠ '=') with
    | .valued kind, [] => .ok (.needsValue spec kind g)
    | .valued kind, _ :: value => (setValue spec kind (String.ofList value) g).map .done
    | _, [] => (applyPlain spec g).map .done
    | _, _ :: _ => .error (.usage ("unexpected value for '--" ++ name ++ "'"))

/-- An argument as the user wrote it. -/
inductive Argument
  /-- Two dashes alone. -/
  | escape
  | long (text : List Char)
  | letters (text : List Char)
  | plain (text : String)
deriving DecidableEq, Repr, Inhabited

/-- What kind of argument a text is. -/
def Argument.ofText (token : String) : Argument :=
  match token.toList with
  | ['-', '-'] => .escape
  | '-' :: '-' :: text => .long text
  | '-' :: c :: cs => .letters (c :: cs)
  | _ => .plain token

/-- Apply an argument that is an option. -/
def applyOption (specs : List OptionSpec) (g : Given) : Argument → Except Stop Pending
  | .long text => applyLong specs g text
  | .letters text => applyLetters specs g text
  | .escape => .ok (.done g)
  | .plain _ => .ok (.done g)

/-- Add an argument that is no option. -/
def Given.addPositional (g : Given) (token : String) : Given :=
  { g with positionals := g.positionals ++ [token] }

/-- Read the arguments after a command. -/
def readArguments (specs : List OptionSpec) (g : Given) : List String → Except Stop Given
  | [] => .ok g
  | token :: rest =>
    match Argument.ofText token with
    | .escape => .ok { g with positionals := g.positionals ++ rest }
    | .plain token => readArguments specs (g.addPositional token) rest
    | option =>
      match applyOption specs g option with
      | .error stop => .error stop
      | .ok (.done g) => readArguments specs g rest
      | .ok (.needsValue spec kind g) =>
        match rest with
        | [] => .error (.usage ("a value is required for '--" ++ spec.long ++ "'"))
        | value :: rest =>
          if isValueToken value then
            match setValue spec kind value g with
            | .error stop => .error stop
            | .ok g => readArguments specs g rest
          else
            .error (.usage ("a value is required for '--" ++ spec.long ++ "'"))

/-! ## The commands -/

/-- What the program is asked to do. -/
inductive Request
  | generate (model : String) (config : Option String) (overrides : Overrides) (dryRun : Bool)
  | check (model : String) (config : Option String)
  | inspect (model : String) (config : Option String) (format : InspectFormat)
deriving DecidableEq, Repr, Inhabited

/-- The commands. -/
inductive CommandName
  | generate
  | check
  | inspect
deriving DecidableEq, Repr, Inhabited

/-- The command with a given name. -/
def CommandName.ofText? (text : String) : Option CommandName :=
  if text = "generate" then some generate
  else if text = "check" then some check
  else if text = "inspect" then some inspect
  else none

/-- The flag that every command takes. -/
def verboseOption : OptionSpec := { long := "verbose", short := some 'v', kind := .counter }

/-- The option that asks for help. -/
def helpOption : OptionSpec := { long := "help", short := some 'h', kind := .help }

/-- The option that asks for the version. -/
def versionOption : OptionSpec := { long := "version", short := some 'V', kind := .version }

/-- The option that names the configuration file. -/
def configOption : OptionSpec := { long := "config", short := some 'c', kind := .valued .path }

/-- The options of a command. -/
def CommandName.options : CommandName → List OptionSpec
  | generate =>
    [{ long := "output", short := some 'o', kind := .valued .path }, configOption,
      { long := "license", kind := .valued .text }, { long := "pragma", kind := .valued .text },
      { long := "serializer", short := some 's', kind := .valued .text },
      { long := "dry-run", kind := .switch }, verboseOption, helpOption]
  | check => [configOption, verboseOption, helpOption]
  | inspect =>
    [{ long := "format", short := some 'f', kind := .valued (.oneOf ["text", "json"]) },
      configOption, verboseOption, helpOption]

/-- The one path that every command requires. -/
def Given.model (g : Given) : Except Stop String :=
  match g.positionals with
  | [] => .error (.usage "the following required arguments were not provided: <MODEL>")
  | [model] =>
    if model.isEmpty then .error (.usage "a value is required for '<MODEL>'") else .ok model
  | _ :: extra :: _ => .error (.usage ("unexpected argument '" ++ extra ++ "'"))

/-- What a command is asked to do. -/
def CommandName.request (name : CommandName) (g : Given) : Except Stop Request := do
  let model ← g.model
  let config := g.value? "config"
  match name with
  | generate =>
    let overrides : Overrides :=
      { license := g.value? "license"
        pragma := g.value? "pragma"
        serializer := g.value? "serializer"
        output := g.value? "output" }
    return .generate model config overrides (g.has "dry-run")
  | check => return .check model config
  | inspect =>
    return .inspect model config (((g.value? "format").bind InspectFormat.ofName?).getD .text)

/-- What the program is asked to do, and how much it should tell. -/
structure Invocation where
  verbosity : Nat
  request : Request
deriving DecidableEq, Repr, Inhabited

/-- What comes of asking for help by name: there is help for the program and for each command. -/
def helpOn : List String → Stop
  | [] => .help
  | [name] =>
    if (CommandName.ofText? name).isSome || name = "help" then .help
    else .usage ("unrecognized command '" ++ name ++ "'")
  | _ :: name :: _ => .usage ("unrecognized command '" ++ name ++ "'")

/-- Read the arguments of the program. -/
def readInvocation (g : Given) : List String → Except Stop Invocation
  | [] => .error (.usage "a command is required: generate, check or inspect")
  | token :: rest =>
    match Argument.ofText token with
    | .escape => .error (.usage "a command is required: generate, check or inspect")
    | .plain token =>
      match CommandName.ofText? token with
      | none =>
        if token = "help" then .error (helpOn rest)
        else .error (.usage ("unrecognized command '" ++ token ++ "'"))
      | some name => do
        let g ← readArguments name.options g rest
        let request ← name.request g
        return { verbosity := g.count, request }
    | option =>
      match applyOption [verboseOption, helpOption, versionOption] g option with
      | .error stop => .error stop
      | .ok (.done g) => readInvocation g rest
      | .ok (.needsValue spec _ _) =>
        .error (.usage ("a value is required for '--" ++ spec.long ++ "'"))

/-! ## Log levels -/

/-- How much is logged. -/
inductive LogLevel
  | warn
  | info
  | debug
deriving DecidableEq, Repr, Inhabited

namespace LogLevel

/-- The name of a level. -/
def name : LogLevel → String
  | warn => "warn"
  | info => "info"
  | debug => "debug"

/-- The level for a number of verbose flags. -/
def ofVerbosity : Nat → LogLevel
  | 0 => warn
  | 1 => info
  | _ => debug

end LogLevel
end Command
end ContractGen
