import ContractGen.Lowering.Placement

/-!
# Lowering models

Every element of every model is given to the handlers for its kind, and what they produce is put
where it belongs. At the end the types that name an enumeration of some unit are marked as such,
since a model may use an enumeration that another one declares.
-/

namespace ContractGen
namespace Lowering

open Behavior

/-- How models are lowered. -/
structure Lowerer where
  handlers : List Handler := Handler.builtin
  compiler : Option Compiler := none

/-- A lowering under way: where things are, and what has been said. -/
structure Progress where
  placement : Placement := {}
  diagnostics : List Diagnostic := []
  merges : List MergeReport := []
deriving DecidableEq, Inhabited

namespace Progress

/-- Take in what a handler says about an element of a file. -/
def take (p : Progress) (origin : String) (r : Response) : Progress :=
  match r.output with
  | none =>
    { p with diagnostics := p.diagnostics ++ r.diagnostics, merges := p.merges ++ r.merges }
  | some output =>
    let (placement, dropped) := p.placement.absorb origin output
    { placement
      diagnostics := p.diagnostics ++ r.diagnostics ++ dropped
      merges := p.merges ++ r.merges }

end Progress

namespace Lowerer

/-- Give an element to the handlers for its kind. -/
def visit (l : Lowerer) (around : Surroundings) (p : Progress) (e : Element) : Progress :=
  (handlersFor l.handlers e.kind).foldl (fun p h => p.take around.source.path (h.run around e)) p

/-- Lower one model. -/
def lowerModel (l : Lowerer) (header : Header) (p : Progress) (source : Domain.ModelSource) :
    Progress :=
  let around : Surroundings := { header, source, compiler := l.compiler }
  (Element.preOrder source.model).foldl (l.visit around) p

/-- Lower models, one after the other. -/
def lowerModels (l : Lowerer) (header : Header) (sources : List Domain.ModelSource) : Progress :=
  sources.foldl (l.lowerModel header) {}

end Lowerer

/-- Mark the types in some units that name an enumeration of any of them. -/
def resolveUnits (units : List LoweredUnit) : List LoweredUnit :=
  let enums := units.flatMap fun u => u.unit.enumerationNames
  units.map fun u => { u with unit := u.unit.resolveEnumerations enums }

end Lowering
end ContractGen
