import ContractGen.Behavior.Statechart
import ContractGen.Command.Output
import ContractGen.Pipeline.Run

/-!
# Checking a model

The lints are run on a model and all that it imports; nothing is generated.
-/

namespace ContractGen
namespace Command

open Behavior Domain Files Pipeline

/-- What every command runs: the usual lints, and the diagrams on the disk. -/
def plan (d : Disk) : Plan (Except Failure) :=
  { lowerer := { compiler := some (.onDisk d) } }

/-- What checking a model came to. -/
structure CheckReport where
  /-- The root model file. -/
  path : String
  /-- How many files were loaded. -/
  models : Nat
  diagnostics : List Diagnostic
deriving DecidableEq, Repr, Inhabited

/-- Check models. -/
def check (d : Disk) (sources : List ModelSource) (c : Configuration) (path : String) :
    CheckReport :=
  { path
    models := sources.length
    diagnostics := ((plan d).check sources (.ofConfiguration c)).diagnostics }

namespace CheckReport

/-- Whether there are no errors. -/
def isValid (r : CheckReport) : Bool :=
  !r.diagnostics.any Diagnostic.isError

/-- The report for the user. -/
def render (r : CheckReport) : Report :=
  r.diagnostics.map diagnosticPart ++
    (if r.diagnostics.isEmpty then [] else [.newline]) ++
    (if r.isValid then
      [.preformatted ("✓ " ++ r.path ++ " is valid (" ++ counted r.models "model" ++ ")")]
    else
      [])

end CheckReport
end Command
end ContractGen
