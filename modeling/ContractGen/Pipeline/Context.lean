import ContractGen.Lowering.Lower

/-!
# The state of a run

What the phases of a run work on: the models, the units made from them, and what has been said.
-/

namespace ContractGen
namespace Pipeline

open Behavior Lowering

/-- The state of a run. -/
structure Context where
  /-- The root model and then those that it imports. -/
  models : List Domain.ModelSource
  header : Header := default
  /-- A unit for each model, once they are lowered. -/
  units : List LoweredUnit := []
  merges : List MergeReport := []
  diagnostics : List Diagnostic := []
deriving DecidableEq, Inhabited

namespace Context

/-- Add diagnostics. -/
def report (c : Context) (ds : List Diagnostic) : Context :=
  { c with diagnostics := c.diagnostics ++ ds }

/-- The errors so far. -/
def errors (c : Context) : List Diagnostic :=
  c.diagnostics.filter Diagnostic.isError

/-- The warnings so far. -/
def warnings (c : Context) : List Diagnostic :=
  c.diagnostics.filter Diagnostic.isWarning

/-- Whether there are errors. -/
def hasErrors (c : Context) : Bool :=
  c.diagnostics.any Diagnostic.isError

/-- Whether there are warnings. -/
def hasWarnings (c : Context) : Bool :=
  c.diagnostics.any Diagnostic.isWarning

end Context
end Pipeline
end ContractGen
