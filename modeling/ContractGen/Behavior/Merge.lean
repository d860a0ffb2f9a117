import ContractGen.Behavior.Compiled
import ContractGen.Behavior.Dispatch

/-!
# Merging behaviour into a contract

The fields and functions of a compiled fragment are added after those of the contract, and the
dispatcher that came with them forwards to the operations of the contract.
-/

namespace ContractGen
namespace Behavior

open Target

/-- Add the fields and functions of the fragment's contract of the same name; nothing if none. -/
def splice? (c : Contract) (fragment : SourceUnit) : Option Contract :=
  (fragment.definitions.contracts.find? fun s => s.name = c.name).map fun s =>
    { c with
      fields := c.fields ++ s.fields
      definitions :=
        { c.definitions with functions := c.definitions.functions ++ s.definitions.functions } }

/-- What merging a diagram into a contract came to. -/
inductive MergeOutcome
  /-- There is no such diagram. -/
  | diagramMissing
  /-- The fragment has no contract with the name of the target. -/
  | noMatchingContract
  | merged (transitions : List Transition) (dispatch : DispatchReport)
deriving DecidableEq, Repr, Inhabited

/-- The record of a merge. -/
structure MergeReport where
  contract : String
  diagram : String
  outcome : MergeOutcome
deriving DecidableEq, Repr, Inhabited

/-- Merge a fragment, if there is one, into a contract. -/
def mergeCompiled (c : Contract) : Option Compiled → Contract × MergeOutcome
  | none => (c, .diagramMissing)
  | some compiled =>
    match splice? c compiled.fragment with
    | none => (c, .noMatchingContract)
    | some spliced =>
      let (c', report) := forwardDispatch spliced
      (c', .merged compiled.transitions report)

/-- Merge the behaviour of a diagram into a contract. Only the compiler can fail. -/
def mergeBehavior (compiler : Compiler) (c : Contract) (diagram : String) :
    Except Failure (Contract × MergeReport) := do
  let compiled ← compiler.compile diagram c.name
  let (c', outcome) := mergeCompiled c compiled
  return (c', { contract := c.name, diagram, outcome })

end Behavior
end ContractGen
