import ContractGen.Behavior.Compiled
import ContractGen.Behavior.Dispatch
import ContractGen.Files.Disk

/-!
# State diagrams

A diagram is the first block between a line `@startuml` and a line `@enduml`. A line
`A --> B : trigger [guard] / action` is a transition, and `[*] --> A` names the initial state;
lines of any other form are ignored. A diagram is compiled into a contract that keeps the state as
a string and has a branch for each transition.
-/

namespace ContractGen
namespace Behavior

open Target
open Text (isBlank isLetter isDigit)

/-- A state diagram. -/
structure Statechart where
  initial : Option String := none
  transitions : List Transition := []
deriving DecidableEq, Repr, Inhabited

/-- What can be wrong with a diagram. -/
inductive StatechartError
  | missingStart
  /-- The block that starts at a line, counted from one, has no end. -/
  | missingEnd (line : Nat)
  | empty
deriving DecidableEq, Repr, Inhabited

/-- The name of the kind of error. -/
def StatechartError.kind : StatechartError → String
  | missingStart => "MissingStart"
  | missingEnd _ => "MissingEnd"
  | empty => "Empty"

/-- The message for the user. -/
def StatechartError.message : StatechartError → String
  | missingStart => "missing @startuml"
  | missingEnd line => "line " ++ toString line ++ ": @startuml is never closed by @enduml"
  | empty => "diagram declares no states"

/-! ## Reading lines -/

/-- An end of an arrow: the mark for start and end, or a state. -/
inductive Endpoint
  | mark
  | state (name : String)
deriving DecidableEq, Repr, Inhabited

/-- An arrow between two endpoints with its label. -/
structure Arrow where
  source : Endpoint
  target : Endpoint
  label : List Char
deriving DecidableEq, Repr, Inhabited

/-- Whether the name of a state can start with a character. -/
def isStateStart (c : Char) : Bool :=
  isLetter c || c = '_'

/-- Whether the name of a state can go on with a character. -/
def isStatePart (c : Char) : Bool :=
  isLetter c || isDigit c || c = '_'

/-- The endpoint at the front of a text, and what follows it. -/
def readEndpoint? : List Char → Option (Endpoint × List Char)
  | '[' :: '*' :: ']' :: rest => some (.mark, rest)
  | c :: cs =>
    if isStateStart c then
      some (.state (String.ofList (c :: cs.takeWhile isStatePart)), cs.dropWhile isStatePart)
    else
      none
  | [] => none

/-- What follows an arrow of one or two dashes. -/
def readArrow? : List Char → Option (List Char)
  | '-' :: '>' :: rest => some rest
  | '-' :: '-' :: '>' :: rest => some rest
  | _ => none

/-- The label that ends a line: nothing, or a colon and a text. -/
def readLabel? : List Char → Option (List Char)
  | [] => some []
  | ':' :: rest => some (Text.trim rest)
  | _ => none

/-- The arrow that a trimmed line is. -/
def readLine? (line : List Char) : Option Arrow := do
  let (source, rest) ← readEndpoint? line
  let rest ← readArrow? (rest.dropWhile isBlank)
  let (target, rest) ← readEndpoint? (rest.dropWhile isBlank)
  let label ← readLabel? (rest.dropWhile isBlank)
  some { source, target, label }

/-! ## Reading labels -/

/-- The parts of a label. -/
structure Label where
  trigger : String
  guard : Option String := none
  action : Option String := none
deriving DecidableEq, Repr, Inhabited

/-- A text, unless it is empty. -/
def unlessEmpty (text : List Char) : Option String :=
  if text.isEmpty then none else some (String.ofList text)

/-- A guard in brackets at the front of a text, and what follows it. -/
def readGuard? : List Char → Option (Option String × List Char)
  | '[' :: rest =>
    match Text.splitOnce? [']'] rest with
    | some (guard, after) => some (unlessEmpty (Text.trim guard), after)
    | none => none
  | text => some (none, text)

/-- An action after a slash, up to the end of a text. Semicolons at its end are dropped. -/
def readAction? (text : List Char) : Option (Option String) :=
  match text.dropWhile isBlank with
  | [] => some none
  | '/' :: rest => some (unlessEmpty (Text.dropEndWhile (· = ';') (Text.trim rest)))
  | _ => none

/-- Whether a character ends a trigger. -/
def endsTrigger (c : Char) : Bool :=
  c = '[' || c = '/'

/-- The parts of a label; nothing if it has no trigger or does not have the right form. -/
def parseLabel? (label : List Char) : Option Label := do
  let trigger := Text.trim (label.takeWhile fun c => !endsTrigger c)
  let (guard, rest) ← readGuard? (label.dropWhile fun c => !endsTrigger c)
  let action ← readAction? rest
  if trigger.isEmpty then
    none
  else
    some { trigger := String.ofList trigger, guard, action }

/-! ## Reading diagrams -/

/-- The state that an arrow makes the initial one. -/
def Arrow.entry? (a : Arrow) : Option String :=
  match a.source, a.target with
  | .mark, .state name => some name
  | _, _ => none

/-- The transition that an arrow is. -/
def Arrow.transition? (a : Arrow) : Option Transition :=
  match a.source, a.target with
  | .state source, .state target =>
    (parseLabel? a.label).map fun l =>
      { source, target, trigger := l.trigger, guard := l.guard, action := l.action }
  | _, _ => none

/-- The arrow of a line, unless the line is a comment. -/
def arrowOf? (line : List Char) : Option Arrow :=
  if line.head? = some '\'' then none else readLine? line

/-- Whether a line starts a block. -/
def startsBlock (line : List Char) : Bool :=
  Text.startsWith "@startuml".toList (Text.trimStart line)

/-- Whether a line ends a block. -/
def endsBlock (line : List Char) : Bool :=
  Text.startsWith "@enduml".toList (Text.trim line)

/-- The diagram of the lines inside a block. -/
def Statechart.ofLines (lines : List (List Char)) : Statechart :=
  let arrows := lines.filterMap fun line => arrowOf? (Text.trim line)
  { initial := arrows.findSome? Arrow.entry?
    transitions := arrows.filterMap Arrow.transition? }

/-- The diagram in a text. -/
def Statechart.parse (text : String) : Except StatechartError Statechart :=
  let lines := Text.lines text.toList
  match lines.dropWhile fun line => !startsBlock line with
  | [] => .error .missingStart
  | _ :: rest =>
    if rest.any endsBlock then
      let chart := ofLines (rest.takeWhile fun line => !endsBlock line)
      if chart.initial.isNone && chart.transitions.isEmpty then .error .empty else .ok chart
    else
      .error (.missingEnd (lines.takeWhile fun line => !startsBlock line).length.succ)

/-- The state in which a contract starts: the initial one, or else the source of the first
transition. -/
def Statechart.initialState? (chart : Statechart) : Option String :=
  chart.initial.or (chart.transitions.head?.map Transition.source)

/-! ## Compiling -/

/-- The field that holds the current state. -/
def stateField : String := "currentState"

/-- The reason given when no transition applies. -/
def invalidTransition : String := "INVALID TRANSITION"

/-- The name of the function that compares strings. -/
def comparisonName : String := "isEqual"

/-- A text in quotes. -/
def quoted (text : String) : String :=
  "\"" ++ text ++ "\""

/-- A call of the function that compares strings. -/
def comparison (value text : String) : String :=
  comparisonName ++ "(" ++ value ++ ", " ++ quoted text ++ ")"

/-- The condition under which a transition is taken. -/
def Transition.condition (t : Transition) : String :=
  comparison stateField t.source ++ " && " ++ comparison "input" t.trigger ++
    (match t.guard with
      | none => ""
      | some guard => " && (" ++ guard ++ ")")

/-- What a transition does: its action, and then the change of state. -/
def Transition.body (t : Transition) : List Statement :=
  t.action.toList.map .expression ++ [.expression (stateField ++ " = " ++ quoted t.target)]

/-- A string parameter in memory. -/
def stringParameter (name : String) : Parameter :=
  { name, type := .named "string", location := some .memory }

/-- The dispatcher of a diagram. -/
def Statechart.dispatcher (chart : Statechart) : Function :=
  { name := dispatcherName
    parameters := [stringParameter "input"]
    statements :=
      [.conditional (chart.transitions.map fun t => ⟨t.condition, t.body⟩)
        (some [.revert invalidTransition])] }

/-- The function that compares strings by their hashes. -/
def comparisonFunction : Function :=
  { name := comparisonName
    visibility := .privately
    mutability := some .pure
    parameters := [stringParameter "a", stringParameter "b"]
    returns := [.named "bool"]
    statements :=
      [.ret (some "keccak256(abi.encodePacked(a)) == keccak256(abi.encodePacked(b))")] }

/-- The field of a diagram that holds the current state. -/
def Statechart.field (chart : Statechart) : Field :=
  { name := stateField
    type := .named "string"
    visibility := .internally
    initializer := chart.initialState?.map quoted }

/-- The fragment of a diagram for a contract. -/
def Statechart.compile (chart : Statechart) (contract : String) : Compiled :=
  { fragment :=
      { name := contract
        license := ""
        pragma := ""
        definitions :=
          { contracts :=
              [{ name := contract
                 fields := [chart.field]
                 definitions := { functions := [chart.dispatcher, comparisonFunction] } }] } }
    transitions := chart.transitions }

/-- Compile the diagram in a file, if it is one. -/
def compileFile (d : Files.Disk) (path contract : String) : Except Failure (Option Compiled) :=
  if d.isFile path then
    match d.read path with
    | .error e => .error ((Failure.because e.message).within ("Failed to read " ++ path))
    | .ok text =>
      match Statechart.parse text with
      | .error e => .error ((Failure.because e.message).within ("Failed to compile " ++ path))
      | .ok chart => .ok (some (chart.compile contract))
  else
    .ok none

/-- The compiler for the diagrams on a disk. -/
def Compiler.onDisk (d : Files.Disk) : Compiler where
  name := "plantuml"
  compile := compileFile d

end Behavior
end ContractGen
