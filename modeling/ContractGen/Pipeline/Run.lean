import ContractGen.Failure
import ContractGen.Pipeline.Context
import ContractGen.Pipeline.Lint

/-!
# Running the phases

A run validates the models, lowers them, and then goes through further phases. Plugins are called
before and after each phase. Phases and plugins may have effects of their own, so a plan is
written for any monad in which a failure can be thrown.
-/

namespace ContractGen
namespace Pipeline

open Behavior Lowering

variable {m : Type → Type}

/-- A step of a run. -/
structure Phase (m : Type → Type) where
  name : String
  description : String
  run : Context → m Context

/-- Something that is called around every phase. -/
structure Plugin (m : Type → Type) where
  name : String
  /-- Called with the name of the phase that comes next. -/
  before : String → Context → m Context
  /-- Called with the name of the phase that has just run. -/
  after : String → Context → m Context

/-- The phases and plugins of a run. -/
structure Plan (m : Type → Type) where
  lints : List Lint := Lint.standard
  lowerer : Lowerer := {}
  /-- The phases after validation and lowering. -/
  phases : List (Phase m) := []
  plugins : List (Plugin m) := []

/-- Refuse to go on with errors. -/
def requireValid (c : Context) : Except Failure Unit :=
  if c.hasErrors then
    .error (.because ("Validation failed with " ++ toString c.errors.length ++ " error(s)"))
  else
    .ok ()

/-- Add the findings of some lints. -/
def lint (lints : List Lint) (c : Context) : Context :=
  c.report (lintModels lints c.models)

/-- Run some lints and refuse to go on with errors. -/
def validate (lints : List Lint) (c : Context) : Except Failure Context := do
  let c := lint lints c
  requireValid c
  return c

/-- Lower the models. -/
def lower (l : Lowerer) (c : Context) : Context :=
  let p := l.lowerModels c.header c.models
  { c with
    units := resolveUnits p.placement.units
    merges := c.merges ++ p.merges
    diagnostics := c.diagnostics ++ p.diagnostics }

variable [Monad m] [MonadExceptOf Failure m]

/-- The phase that validates the models. -/
def Phase.validate (lints : List Lint) : Phase m where
  name := lintPhase
  description := "Check model integrity and collect diagnostics"
  run := fun c => MonadExcept.ofExcept (Pipeline.validate lints c)

/-- The phase that lowers the models. -/
def Phase.lower (l : Lowerer) : Phase m where
  name := phaseName
  description := "Map domain elements to contracts, structs, events, errors and enums"
  run := fun c => pure (Pipeline.lower l c)

/-- Run a phase between the calls of the plugins. -/
def Phase.runWith (plugins : List (Plugin m)) (p : Phase m) (c : Context) : m Context := do
  let c ← plugins.foldlM (fun c plugin => plugin.before p.name c) c
  let c ← p.run c
  plugins.foldlM (fun c plugin => plugin.after p.name c) c

/-- The phases that follow validation. -/
def Plan.laterPhases (p : Plan m) : List (Phase m) :=
  .lower p.lowerer :: p.phases

/-- All phases in order. -/
def Plan.allPhases (p : Plan m) : List (Phase m) :=
  .validate p.lints :: p.laterPhases

/-- Run some phases in order. -/
def Plan.runPhases (p : Plan m) (phases : List (Phase m)) (c : Context) : m Context :=
  phases.foldlM (fun c phase => phase.runWith p.plugins c) c

/-- Run every phase on some models. -/
def Plan.run (p : Plan m) (models : List Domain.ModelSource) (header : Header) :
    m Context :=
  p.runPhases p.allPhases { models, header }

omit [Monad m] [MonadExceptOf Failure m] in
/-- Only run the lints, and keep everything that they find. -/
def Plan.check (p : Plan m) (models : List Domain.ModelSource) (header : Header) :
    Context :=
  lint p.lints { models, header }

/-- Run the phases after validation on a context that has been checked. -/
def Plan.runChecked (p : Plan m) (c : Context) : m Context := do
  MonadExcept.ofExcept (requireValid c)
  p.runPhases p.laterPhases c

end Pipeline
end ContractGen
