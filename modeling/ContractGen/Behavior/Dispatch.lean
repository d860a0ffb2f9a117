import ContractGen.Source.Lexer
import ContractGen.Target.SourceUnit

/-!
# Forwarding from the dispatcher

A compiled fragment handles every input in one function, the dispatcher: a conditional with a
branch for each transition. Where the condition of a branch names an operation of the contract, the
statements of the branch move to the end of that operation and the branch calls it instead. The
other branches stay as they are.
-/

namespace ContractGen
namespace Behavior

open Target

/-- The name of the dispatcher. -/
def dispatcherName : String := "handle"

/-- Conditions with this text look at the input. -/
def inputMark : String := "isEqual(input"

/-! ## Conditions that name an operation -/

/-- The operation that a condition names. -/
structure DispatchTarget where
  name : String
  /-- The arguments with their parentheses, if there are any. -/
  arguments : Option String := none
deriving DecidableEq, Repr, Inhabited

/-- What stands in front of the name of an operation. -/
def targetOpening : List Char := "isEqual(input, \"".toList

/-- What stands behind an operation. -/
def targetClosing : List Char := "\")".toList

/-- Whether a text has the form of arguments: parentheses around something. -/
def isParenthesized (text : List Char) : Bool :=
  match text with
  | '(' :: rest => rest.getLast? = some ')'
  | _ => false

/-- The target that follows an opening: a name and perhaps arguments, up to the quote. -/
def readTarget? (text : List Char) : Option DispatchTarget :=
  let name := text.takeWhile Source.isIdentifierPart
  let rest := text.dropWhile Source.isIdentifierPart
  let arguments := rest.takeWhile (· ≠ '"')
  let after := rest.dropWhile (· ≠ '"')
  if !(name.head?.any Source.isIdentifierStart) || !Text.startsWith targetClosing after then
    none
  else if arguments.isEmpty then
    some { name := String.ofList name }
  else if isParenthesized arguments then
    some { name := String.ofList name, arguments := some (String.ofList arguments) }
  else
    none

/-- The target at the front of a text. -/
def targetAt? (text : List Char) : Option DispatchTarget :=
  (Text.dropStart? targetOpening text).bind readTarget?

/-- The last target in a text. -/
def lastTarget? : List Char → Option DispatchTarget
  | [] => none
  | c :: cs =>
    match lastTarget? cs with
    | some t => some t
    | none => targetAt? (c :: cs)

/-- The operation that a condition names; the last one counts. -/
def dispatchTarget? (condition : String) : Option DispatchTarget :=
  lastTarget? condition.toList

/-! ## Moving branches -/

/-- Why a branch that looks at the input stays as it is. -/
inductive StayReason
  /-- The condition does not have the required form. -/
  | patternMismatch
  /-- The contract has no such operation. -/
  | unknownOperation (name : String)
deriving DecidableEq, Repr, Inhabited

/-- The name of the kind of reason. -/
def StayReason.kind : StayReason → String
  | patternMismatch => "PatternMismatch"
  | unknownOperation _ => "UnknownOperation"

/-- The operation that is missing, if that is the reason. -/
def StayReason.operation? : StayReason → Option String
  | patternMismatch => none
  | unknownOperation name => some name

/-- The reason in words. -/
def StayReason.text : StayReason → String
  | patternMismatch => "condition does not match the dispatch pattern"
  | unknownOperation name => "no function named '" ++ name ++ "'"

/-- A branch that looks at the input and stays as it is. -/
structure StayingBranch where
  /-- The position in the conditional. -/
  index : Nat
  condition : String
  reason : StayReason
deriving DecidableEq, Repr, Inhabited

/-- What became of the branches of a dispatcher. -/
structure DispatchReport where
  /-- Whether the contract has a dispatcher. -/
  dispatcherFound : Bool := false
  /-- The operations that received a branch, in the order of branches. -/
  forwarded : List String := []
  staying : List StayingBranch := []
deriving DecidableEq, Repr, Inhabited

/-- What a branch asks for. -/
inductive Route
  /-- It does not look at the input. -/
  | unrelated
  /-- It looks at the input but names no operation. -/
  | nameless
  | towards (target : DispatchTarget)
deriving DecidableEq, Repr, Inhabited

/-- What a condition asks for. -/
def routeOf (condition : String) : Route :=
  if Text.occursIn inputMark condition then
    match dispatchTarget? condition with
    | some target => .towards target
    | none => .nameless
  else
    .unrelated

/-- Add statements to the first function with a given name. -/
def appendTo? (name : String) (statements : List Statement) :
    List Function → Option (List Function)
  | [] => none
  | f :: fs =>
    if f.name = name then
      some ({ f with statements := f.statements ++ statements } :: fs)
    else
      (appendTo? name statements fs).map (f :: ·)

/-- Operations and branches after statements have moved, and what became of the branches. -/
structure Forwarding where
  operations : List Function
  branches : List Branch := []
  forwarded : List String := []
  staying : List StayingBranch := []
deriving DecidableEq, Inhabited

/-- Move the statements of branches to the operations that they name; `index` counts branches. -/
def forwardBranches (operations : List Function) (index : Nat) : List Branch → Forwarding
  | [] => { operations }
  | b :: bs =>
    match routeOf b.condition with
    | .unrelated =>
      let later := forwardBranches operations (index + 1) bs
      { later with branches := b :: later.branches }
    | .nameless =>
      let later := forwardBranches operations (index + 1) bs
      { later with
        branches := b :: later.branches
        staying := ⟨index, b.condition, .patternMismatch⟩ :: later.staying }
    | .towards target =>
      match appendTo? target.name b.statements operations with
      | some operations' =>
        let later := forwardBranches operations' (index + 1) bs
        { later with
          branches :=
            ⟨b.condition, [.callWith target.name target.arguments]⟩ :: later.branches
          forwarded := target.name :: later.forwarded }
      | none =>
        let later := forwardBranches operations (index + 1) bs
        { later with
          branches := b :: later.branches
          staying := ⟨index, b.condition, .unknownOperation target.name⟩ :: later.staying }

/-- Functions around the dispatcher. -/
structure AroundDispatcher where
  before : List Function
  dispatcher : Function
  after : List Function
deriving DecidableEq, Inhabited

/-- Set the first function with the dispatcher's name apart. -/
def splitAtDispatcher? : List Function → Option AroundDispatcher
  | [] => none
  | f :: fs =>
    if f.name = dispatcherName then
      some { before := [], dispatcher := f, after := fs }
    else
      (splitAtDispatcher? fs).map fun s => { s with before := f :: s.before }

/-- Let the dispatcher among some functions call the operations that its branches name. -/
def forwardFunctions (functions : List Function) : List Function × DispatchReport :=
  match splitAtDispatcher? functions with
  | none => (functions, {})
  | some { before, dispatcher, after } =>
    match dispatcher.statements with
    | [.conditional branches otherwise] =>
      let moved := forwardBranches (before ++ after) 0 branches
      let dispatcher :=
        { dispatcher with statements := [.conditional moved.branches otherwise] }
      (moved.operations.take before.length ++ dispatcher :: moved.operations.drop before.length,
        { dispatcherFound := true, forwarded := moved.forwarded, staying := moved.staying })
    | _ => (functions, { dispatcherFound := true })

/-- Let the dispatcher of a contract call the operations that its branches name. -/
def forwardDispatch (c : Contract) : Contract × DispatchReport :=
  let (functions, report) := forwardFunctions c.definitions.functions
  ({ c with definitions := { c.definitions with functions } }, report)

end Behavior
end ContractGen
