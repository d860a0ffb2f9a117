import ContractGen.Lowering.Handler

/-!
# Where declarations go

Declarations arrive one after the other. A source unit opens a new unit. A contract goes to the
last unit and becomes the current contract. Structs, events and errors go to the current contract;
without one they are dropped, and a warning says so. Enumerations go to the current contract or
else to the last unit.
-/

namespace ContractGen
namespace Lowering

open Target

/-- A source unit made from a model. -/
structure LoweredUnit where
  unit : SourceUnit
  /-- The model file. -/
  origin : String
  /-- The file for definitions outside contracts. -/
  outputPath : Option String := none
deriving DecidableEq, Inhabited

/-- The units so far, and the index of the current contract in the last one. -/
structure Placement where
  units : List LoweredUnit := []
  current : Option Nat := none
deriving DecidableEq, Inhabited

/-- Change the last element of a list. -/
def modifyLast {α : Type} (f : α → α) : List α → List α
  | [] => []
  | [a] => [f a]
  | a :: as => a :: modifyLast f as

/-- Change the definitions of a lowered unit. -/
def LoweredUnit.modify (f : Definitions → Definitions) (u : LoweredUnit) : LoweredUnit :=
  { u with unit := { u.unit with definitions := f u.unit.definitions } }

/-- Change the definitions of a contract. -/
def modifyContract (f : Definitions → Definitions) (c : Contract) : Contract :=
  { c with definitions := f c.definitions }

namespace Placement

/-- The contract that members go to. -/
def currentContract? (p : Placement) : Option Contract := do
  let last ← p.units.getLast?
  let index ← p.current
  last.unit.definitions.contracts[index]?

/-- Change the definitions of the last unit. -/
def modifyUnit (p : Placement) (f : Definitions → Definitions) : Placement :=
  { p with units := modifyLast (LoweredUnit.modify f) p.units }

/-- Change the definitions of the current contract. -/
def modifyCurrent (p : Placement) (f : Definitions → Definitions) : Placement :=
  match p.current with
  | none => p
  | some index =>
    p.modifyUnit fun d => { d with contracts := d.contracts.modify index (modifyContract f) }

/-- The name of the last unit. -/
def unitName (p : Placement) : String :=
  match p.units.getLast? with
  | some u => u.unit.name
  | none => ""

/-- The warning for a declaration that has no place. -/
def dropped (p : Placement) (kind name : String) : Diagnostic :=
  warning (kind ++ " '" ++ name ++ "' dropped: no contract to attach it to")
    (p.unitName ++ "." ++ name)

/-- Put a member into the current contract, or drop it. -/
def addMember (p : Placement) (kind name : String) (f : Definitions → Definitions) :
    Placement × List Diagnostic :=
  match p.currentContract? with
  | some _ => (p.modifyCurrent f, [])
  | none => (p, [p.dropped kind name])

/-- Put a contract into the last unit and make it the current one. -/
def addContract (p : Placement) (c : Contract) : Placement × List Diagnostic :=
  match p.units.getLast? with
  | some u =>
    ({ p.modifyUnit fun d => { d with contracts := d.contracts ++ [c] } with
        current := some u.unit.definitions.contracts.length }, [])
  | none => (p, [p.dropped "contract" c.name])

/-- Put an enumeration into the current contract or else into the last unit. -/
def addEnumeration (p : Placement) (e : Enumeration) : Placement × List Diagnostic :=
  let add : Definitions → Definitions := fun d => { d with enumerations := d.enumerations ++ [e] }
  match p.currentContract?, p.units.getLast? with
  | some _, _ => (p.modifyCurrent add, [])
  | none, some _ => (p.modifyUnit add, [])
  | none, none => (p, [p.dropped "enum" e.name])

/-- Put what a handler produced for a model file where it belongs. -/
def absorb (p : Placement) (origin : String) (output : Output) : Placement × List Diagnostic :=
  match output.node with
  | .unit u =>
    ({ units := p.units ++ [{ unit := u, origin, outputPath := output.path }], current := none },
      [])
  | .contract c => p.addContract c
  | .struct s => p.addMember "struct" s.name fun d => { d with structures := d.structures ++ [s] }
  | .event e => p.addMember "event" e.name fun d => { d with events := d.events ++ [e] }
  | .error e => p.addMember "error" e.name fun d => { d with errors := d.errors ++ [e] }
  | .enumeration e => p.addEnumeration e

end Placement
end Lowering
end ContractGen
