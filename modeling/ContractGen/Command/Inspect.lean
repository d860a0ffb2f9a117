import ContractGen.Command.Check
import ContractGen.Lowering.Codec

/-!
# Inspecting lowered models

What models are lowered to, as a summary with a line for each definition or as JSON.
-/

namespace ContractGen
namespace Command

open Behavior Data Domain Files Lowering Pipeline Target

/-- How lowered models are shown. -/
inductive InspectFormat
  | text
  | json
deriving DecidableEq, Repr, Inhabited

/-- The format with a given name. -/
def InspectFormat.ofName? (name : String) : Option InspectFormat :=
  if name = "text" then some text else if name = "json" then some json else none

/-- A number of members in words; nothing if there are none. -/
def memberCount (n : Nat) (word : String) : List String :=
  if n = 0 then [] else [counted n word]

/-- The members of a contract or interface in words. -/
def memberSummary (d : Definitions) (fields : Nat) : String :=
  let parts :=
    memberCount fields "field" ++ memberCount d.structures.length "struct" ++
      memberCount d.enumerations.length "enum" ++ memberCount d.events.length "event" ++
      memberCount d.errors.length "error" ++ memberCount d.modifiers.length "modifier" ++
      memberCount d.functions.length "function"
  if parts.isEmpty then "empty" else String.intercalate ", " parts

/-- A line for a contract. -/
def contractLine (c : Contract) : String :=
  (if c.isAbstract then "abstract contract " else "contract ") ++ c.name ++ ": " ++
    memberSummary c.definitions c.fields.length

/-- A line for an interface. -/
def interfaceLine (i : Interface) : String :=
  "interface " ++ i.name ++ ": " ++ memberSummary i.definitions 0

/-- A line for each definition of a file. -/
def definitionLines (d : Definitions) : List String :=
  d.enumerations.map (fun e => "enum " ++ e.name) ++
    d.structures.map (fun s => "struct " ++ s.name) ++
    d.events.map (fun e => "event " ++ e.name) ++
    d.errors.map (fun e => "error " ++ e.name) ++
    d.interfaces.map interfaceLine ++
    d.contracts.map contractLine ++
    d.functions.map (fun f => "function " ++ f.name) ++
    d.modifiers.map (fun m => "modifier " ++ m.name)

/-- What a merge came to, in words. -/
def outcomeText : MergeOutcome → String
  | .merged transitions dispatch =>
    toString transitions.length ++ " transitions, " ++ toString dispatch.forwarded.length ++
      " dispatched"
  | .diagramMissing => "diagram not found"
  | .noMatchingContract => "no matching contract"

/-- A line for a merge. -/
def mergeLine (r : MergeReport) : String :=
  "behavior " ++ r.contract ++ " <- " ++ r.diagram ++ ": " ++ outcomeText r.outcome

/-- The part of the summary for a unit. -/
def unitSummary (merges : List MergeReport) (u : LoweredUnit) : Report :=
  let behaviors := merges.filter fun r =>
    u.unit.definitions.contracts.any fun c => c.name = r.contract
  .heading (u.unit.name ++ " (" ++ u.origin ++ ")") ::
    (definitionLines u.unit.definitions ++ behaviors.map mergeLine).map .listItem

/-- The summaries of units with empty lines between them. -/
def summary (merges : List MergeReport) : List LoweredUnit → Report
  | [] => []
  | [u] => unitSummary merges u
  | u :: us => unitSummary merges u ++ .newline :: summary merges us

/-- Show what models are lowered to. -/
def inspect (d : Disk) (sources : List ModelSource) (c : Configuration) (format : InspectFormat) :
    Except Failure Report := do
  let context ← inContext "Pipeline failed" ((plan d).run sources (.ofConfiguration c))
  match format with
  | .json => return [.preformatted (Json.pretty (.list (context.units.map LoweredUnit.toValue)))]
  | .text => return summary context.merges context.units

end Command
end ContractGen
