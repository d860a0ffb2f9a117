import ContractGen.Proofs.EnumTypes
import Mathlib.Data.List.Forall2

/-!
# Resolving enums in a whole unit

Types occur at many places of a unit: in state variables, struct members, arguments of events and
errors, parameters and returns, at file level and in contracts and interfaces at any depth.
Resolving some enums marks their names at all of these places and touches nothing else.

**Definitions.**
* `TypeExpr.Marks`: a type in which the names of some enums are marked.
* `SourceUnit.types`: every type of a unit.
* `SourceUnit.Retyped`: two units that differ at most in their types.
* `SourceUnit.IsResolved`: what resolving some enums makes of a unit.

**Results.**
* `TypeExpr.resolve_resolve`: resolving twice is resolving the enums of both.
* `Definitions.types_mapTypes`: every type is reached when types are changed.
* `Definitions.retyped_mapTypes`: and nothing but types is changed.
* `SourceUnit.resolveEnumerations_marks`: what resolving does to a unit.
-/

namespace ContractGen
namespace Target

/-! ## Types with some enums marked -/

namespace TypeExpr

/-- A type in which the names of some enums are marked and everything else is as before. -/
inductive Marks (enums : List String) : TypeExpr → TypeExpr → Prop
  | enum {name : String} (h : name ∈ enums) : Marks enums (named name) (enumeration name)
  | other {name : String} (h : name ∉ enums) : Marks enums (named name) (named name)
  | marked (name : String) : Marks enums (enumeration name) (enumeration name)
  | mapping {key key' value value' : TypeExpr}
      (hkey : Marks enums key key')
      (hvalue : Marks enums value value') :
      Marks enums (mapping key value) (mapping key' value')
  | array {element element' : TypeExpr}
      (h : Marks enums element element') :
      Marks enums (array element) (array element')

/-- Resolving marks the names of the given enumerations and keeps the rest of a type. -/
theorem marks_resolve
    (enums : List String)
    (t : TypeExpr) :
    Marks enums t (t.resolve enums) := by
  induction t with
  | named name =>
      by_cases h : name ∈ enums
      · rw [resolve, if_pos h]
        exact .enum h
      · rw [resolve, if_neg h]
        exact .other h
  | enumeration name =>
      exact .marked name
  | mapping key value ihKey ihValue =>
      exact .mapping ihKey ihValue
  | array element ih =>
      exact .array ih

/-- Resolving does not change what a type prints. -/
@[simp] theorem text_resolve
    (enums : List String)
    (t : TypeExpr) :
    (t.resolve enums).text = t.text := by
  induction t with
  | named name =>
      by_cases h : name ∈ enums <;> simp [resolve, text, h]
  | enumeration name =>
      rfl
  | mapping key value ihKey ihValue =>
      simp [resolve, text, ihKey, ihValue]
  | array element ih =>
      simp [resolve, text, ih]

/-- Resolving some enums and then others is resolving all of them at once. -/
theorem resolve_resolve
    {enums more all : List String}
    (hall : ∀ n, n ∈ all ↔ n ∈ enums ∨ n ∈ more)
    (t : TypeExpr) :
    (t.resolve enums).resolve more = t.resolve all := by
  induction t with
  | named name =>
      by_cases henums : name ∈ enums
      · simp [resolve, henums, hall]
      · simp [resolve, henums, hall]
  | enumeration name =>
      rfl
  | mapping key value ihKey ihValue =>
      simp [resolve, ihKey, ihValue]
  | array element ih =>
      simp [resolve, ih]

end TypeExpr

/-! ## Every type of a unit -/

section Types

/-- The types of the parameters and returns of a function. -/
def Function.types (f : Function) : List TypeExpr :=
  f.parameters.map Parameter.type ++ f.returns

mutual

/-- Every type in some definitions, nested ones included. -/
def Definitions.types : Definitions → List TypeExpr
  | { contracts, interfaces, structures, events, errors, functions, modifiers, .. } =>
    (structures.flatMap Structure.fields ++ events.flatMap Event.parameters ++
        errors.flatMap ErrorDefinition.parameters).map LocalField.type ++
      functions.flatMap Function.types ++
      (modifiers.flatMap Modifier.parameters).map Parameter.type ++
      (Contract.listTypes contracts ++ Interface.listTypes interfaces)

/-- Every type in some contracts, those of their state variables included. -/
def Contract.listTypes : List Contract → List TypeExpr
  | [] => []
  | { fields, definitions, .. } :: cs =>
    fields.map Field.type ++ definitions.types ++ Contract.listTypes cs

/-- Every type in some interfaces. -/
def Interface.listTypes : List Interface → List TypeExpr
  | [] => []
  | { definitions, .. } :: is => definitions.types ++ Interface.listTypes is

end

/-- Every type in a unit. -/
def SourceUnit.types (unit : SourceUnit) : List TypeExpr :=
  unit.definitions.types

@[simp] theorem Function.types_mapTypes
    (f : TypeExpr → TypeExpr)
    (g : Function) :
    (g.mapTypes f).types = g.types.map f := by
  simp [Function.types, Function.mapTypes, Parameter.mapType]

mutual

/-- Every type is reached when types are changed. -/
theorem Definitions.types_mapTypes
    (f : TypeExpr → TypeExpr) :
    ∀ d : Definitions, (d.mapTypes f).types = d.types.map f
  | ⟨contracts, interfaces, _, _, _, _, _, _⟩ => by
      simp [Definitions.mapTypes, Definitions.types, List.flatMap_map, List.map_flatMap,
        Structure.mapTypes, Event.mapTypes, ErrorDefinition.mapTypes, Modifier.mapTypes,
        LocalField.mapType, Parameter.mapType, Function.comp_def,
        Contract.listTypes_mapTypes f contracts, Interface.listTypes_mapTypes f interfaces]

theorem Contract.listTypes_mapTypes
    (f : TypeExpr → TypeExpr) :
    ∀ cs : List Contract,
      Contract.listTypes (Contract.listMapTypes f cs) = (Contract.listTypes cs).map f
  | [] => rfl
  | ⟨_, _, _, _, _, definitions⟩ :: cs => by
      simp [Contract.listMapTypes, Contract.mapTypes, Contract.listTypes, Field.mapType,
        Definitions.types_mapTypes f definitions, Contract.listTypes_mapTypes f cs]

theorem Interface.listTypes_mapTypes
    (f : TypeExpr → TypeExpr) :
    ∀ is : List Interface,
      Interface.listTypes (Interface.listMapTypes f is) = (Interface.listTypes is).map f
  | [] => rfl
  | ⟨_, _, definitions⟩ :: is => by
      simp [Interface.listMapTypes, Interface.mapTypes, Interface.listTypes,
        Definitions.types_mapTypes f definitions, Interface.listTypes_mapTypes f is]

end

end Types

/-! ## Units that differ at most in their types -/

section Retyped

variable (R : TypeExpr → TypeExpr → Prop)

/-- A state variable and itself with a related type. -/
structure Field.Retyped (x y : Field) : Prop where
  type : R x.type y.type
  rest : y = { x with type := y.type }

/-- A member or argument and itself with a related type. -/
structure LocalField.Retyped (x y : LocalField) : Prop where
  type : R x.type y.type
  rest : y = { x with type := y.type }

/-- A parameter and itself with a related type. -/
structure Parameter.Retyped (p q : Parameter) : Prop where
  type : R p.type q.type
  rest : q = { p with type := q.type }

/-- A struct and itself with related types. -/
structure Structure.Retyped (s t : Structure) : Prop where
  fields : List.Forall₂ (LocalField.Retyped R) s.fields t.fields
  rest : t = { s with fields := t.fields }

/-- An event and itself with related types. -/
structure Event.Retyped (e e' : Event) : Prop where
  parameters : List.Forall₂ (LocalField.Retyped R) e.parameters e'.parameters
  rest : e' = { e with parameters := e'.parameters }

/-- A custom error and itself with related types. -/
structure ErrorDefinition.Retyped (e e' : ErrorDefinition) : Prop where
  parameters : List.Forall₂ (LocalField.Retyped R) e.parameters e'.parameters
  rest : e' = { e with parameters := e'.parameters }

/-- A function and itself with related types. -/
structure Function.Retyped (f g : Function) : Prop where
  parameters : List.Forall₂ (Parameter.Retyped R) f.parameters g.parameters
  returns : List.Forall₂ R f.returns g.returns
  rest : g = { f with parameters := g.parameters, returns := g.returns }

/-- A modifier and itself with related types. -/
structure Modifier.Retyped (m n : Modifier) : Prop where
  parameters : List.Forall₂ (Parameter.Retyped R) m.parameters n.parameters
  rest : n = { m with parameters := n.parameters }

mutual

/-- Definitions and the same ones with related types, at any depth. -/
inductive Definitions.Retyped : Definitions → Definitions → Prop
  | intro {d e : Definitions}
      (contracts : List.Forall₂ Contract.Retyped d.contracts e.contracts)
      (interfaces : List.Forall₂ Interface.Retyped d.interfaces e.interfaces)
      (structures : List.Forall₂ (Structure.Retyped R) d.structures e.structures)
      (enumerations : e.enumerations = d.enumerations)
      (events : List.Forall₂ (Event.Retyped R) d.events e.events)
      (errors : List.Forall₂ (ErrorDefinition.Retyped R) d.errors e.errors)
      (functions : List.Forall₂ (Function.Retyped R) d.functions e.functions)
      (modifiers : List.Forall₂ (Modifier.Retyped R) d.modifiers e.modifiers) :
      Definitions.Retyped d e

/-- A contract and itself with related types. -/
inductive Contract.Retyped : Contract → Contract → Prop
  | intro {c c' : Contract}
      (fields : List.Forall₂ (Field.Retyped R) c.fields c'.fields)
      (definitions : Definitions.Retyped c.definitions c'.definitions)
      (rest : c' = { c with fields := c'.fields, definitions := c'.definitions }) :
      Contract.Retyped c c'

/-- An interface and itself with related types. -/
inductive Interface.Retyped : Interface → Interface → Prop
  | intro {i i' : Interface}
      (definitions : Definitions.Retyped i.definitions i'.definitions)
      (rest : i' = { i with definitions := i'.definitions }) :
      Interface.Retyped i i'

end

/-- A unit and itself with related types. -/
structure SourceUnit.Retyped (unit other : SourceUnit) : Prop where
  definitions : unit.definitions.Retyped R other.definitions
  rest : other = { unit with definitions := other.definitions }

variable {R}
variable {f : TypeExpr → TypeExpr}

theorem forall₂_map
    {α : Type} {S : α → α → Prop} {g : α → α}
    (h : ∀ a, S a (g a))
    (as : List α) :
    List.Forall₂ S as (as.map g) :=
  List.forall₂_map_right_iff.mpr (List.forall₂_same.mpr fun a _ => h a)

mutual

/-- When types are changed, nothing else is. -/
theorem Definitions.retyped_mapTypes
    (h : ∀ t, R t (f t)) :
    ∀ d : Definitions, d.Retyped R (d.mapTypes f)
  | ⟨contracts, interfaces, structures, _, events, errors, functions, modifiers⟩ => by
      have hlocal : ∀ fields : List LocalField,
          List.Forall₂ (LocalField.Retyped R) fields (fields.map (LocalField.mapType f)) :=
        forall₂_map fun x => ⟨h x.type, rfl⟩
      have hparameters : ∀ parameters : List Parameter,
          List.Forall₂ (Parameter.Retyped R) parameters
            (parameters.map (Parameter.mapType f)) :=
        forall₂_map fun p => ⟨h p.type, rfl⟩
      refine .intro (Contract.listRetyped_mapTypes h contracts)
        (Interface.listRetyped_mapTypes h interfaces) ?_ rfl ?_ ?_ ?_ ?_
      · exact forall₂_map (fun s => ⟨hlocal s.fields, rfl⟩) structures
      · exact forall₂_map (fun e => ⟨hlocal e.parameters, rfl⟩) events
      · exact forall₂_map (fun e => ⟨hlocal e.parameters, rfl⟩) errors
      · exact forall₂_map (fun g => ⟨hparameters g.parameters, forall₂_map h g.returns, rfl⟩)
          functions
      · exact forall₂_map (fun m => ⟨hparameters m.parameters, rfl⟩) modifiers

theorem Contract.listRetyped_mapTypes
    (h : ∀ t, R t (f t)) :
    ∀ cs : List Contract, List.Forall₂ (Contract.Retyped R) cs (Contract.listMapTypes f cs)
  | [] => .nil
  | ⟨_, _, _, _, fields, definitions⟩ :: cs =>
    .cons
      (.intro (forall₂_map (fun x => ⟨h x.type, rfl⟩) fields)
        (Definitions.retyped_mapTypes h definitions) rfl)
      (Contract.listRetyped_mapTypes h cs)

theorem Interface.listRetyped_mapTypes
    (h : ∀ t, R t (f t)) :
    ∀ is : List Interface, List.Forall₂ (Interface.Retyped R) is (Interface.listMapTypes f is)
  | [] => .nil
  | ⟨_, _, definitions⟩ :: is =>
    .cons (.intro (Definitions.retyped_mapTypes h definitions) rfl)
      (Interface.listRetyped_mapTypes h is)

end

end Retyped

/-! ## Resolving -/

namespace SourceUnit

section Resolving

variable {enums more all : List String}

theorem types_resolveEnumerations
    (enums : List String)
    (unit : SourceUnit) :
    (unit.resolveEnumerations enums).types = unit.types.map (.resolve enums) :=
  Definitions.types_mapTypes _ _

/-- Resolving twice is resolving once with all the enumerations. -/
theorem resolveEnumerations_resolveEnumerations
    (hall : ∀ n, n ∈ all ↔ n ∈ enums ∨ n ∈ more)
    (unit : SourceUnit) :
    (unit.resolveEnumerations enums).resolveEnumerations more = unit.resolveEnumerations all := by
  have htwice : TypeExpr.resolve more ∘ TypeExpr.resolve enums = TypeExpr.resolve all :=
    funext (TypeExpr.resolve_resolve hall)
  simp only [resolveEnumerations, Definitions.mapTypes_mapTypes, htwice]

/-- What resolving some enums makes of a unit. -/
structure IsResolved (enums : List String) (unit resolved : SourceUnit) : Prop where
  /-- No type is or contains the unmarked name of one of the enums. -/
  marked : ∀ t ∈ resolved.types, ∀ n ∈ enums, n ∉ t.plainNames
  /-- Nothing is changed but such names in types. -/
  retyped : unit.Retyped (TypeExpr.Marks enums) resolved
  enumerationNames : resolved.enumerationNames = unit.enumerationNames
  texts : resolved.types.map TypeExpr.text = unit.types.map TypeExpr.text

theorem isResolved_resolveEnumerations
    (enums : List String)
    (unit : SourceUnit) :
    IsResolved enums unit (unit.resolveEnumerations enums) where
  marked := by
    intro t ht n hn hplain
    rw [types_resolveEnumerations] at ht
    obtain ⟨u, -, rfl⟩ := List.mem_map.mp ht
    rw [TypeExpr.plainNames_resolve, List.mem_filter] at hplain
    exact of_decide_eq_true hplain.2 hn
  retyped := ⟨Definitions.retyped_mapTypes (TypeExpr.marks_resolve enums) unit.definitions, rfl⟩
  enumerationNames := enumerationNames_resolveEnumerations enums unit
  texts := by
    rw [types_resolveEnumerations, List.map_map]
    exact List.map_congr_left fun t _ => TypeExpr.text_resolve enums t

/--
Resolving some enums marks their names in every type of a unit and changes nothing else. A second
time it changes nothing, resolving other enums afterwards is resolving the union, and the order does
not matter.
-/
theorem resolveEnumerations_marks
    (unit : SourceUnit)
    (hall : ∀ n, n ∈ all ↔ n ∈ enums ∨ n ∈ more) :
    IsResolved enums unit (unit.resolveEnumerations enums) ∧
      (unit.resolveEnumerations enums).resolveEnumerations enums =
        unit.resolveEnumerations enums ∧
      (unit.resolveEnumerations enums).resolveEnumerations more = unit.resolveEnumerations all ∧
      (unit.resolveEnumerations enums).resolveEnumerations more =
        (unit.resolveEnumerations more).resolveEnumerations enums := by
  have hunion := resolveEnumerations_resolveEnumerations hall unit
  have hother := resolveEnumerations_resolveEnumerations (fun n => (hall n).trans or_comm) unit
  exact ⟨isResolved_resolveEnumerations enums unit,
    resolveEnumerations_resolveEnumerations (by simp) unit, hunion, hunion.trans hother.symm⟩

/-- A unit that uses an enum in an event, and with another one in a contract inside an interface. -/
def auction : SourceUnit where
  name := "Auction"
  license := "MIT"
  pragma := "^0.8.20"
  definitions :=
    { enumerations := [{ name := "Phase", values := ["Open", "Closed"] }]
      events := [{ name := "Moved", parameters := [{ name := "to", type := .named "Phase" }] }]
      interfaces :=
        [{ name := "House"
           definitions :=
            { contracts :=
                [{ name := "Lot"
                   fields :=
                    [{ name := "bids"
                       type := .mapping (.named "Side") (.array (.named "Phase")) }]
                   definitions :=
                    { modifiers :=
                        [{ name := "on", parameters := [{ name := "s", type := .named "Side" }] }]
                      functions := [{ name := "bid", returns := [.named "Bid"] }] } }] } }] }

theorem resolveEnumerations_marks_auction :
    (∀ n, n ∈ ["Side", "Phase"] ↔ n ∈ ["Phase"] ∨ n ∈ ["Side"]) ∧
      auction.types =
        [.named "Phase", .mapping (.named "Side") (.array (.named "Phase")), .named "Bid",
          .named "Side"] ∧
      (auction.resolveEnumerations ["Phase"]).types =
        [.enumeration "Phase", .mapping (.named "Side") (.array (.enumeration "Phase")),
          .named "Bid", .named "Side"] ∧
      IsResolved ["Phase"] auction (auction.resolveEnumerations ["Phase"]) ∧
      (auction.resolveEnumerations ["Phase"]).resolveEnumerations ["Phase"] =
        auction.resolveEnumerations ["Phase"] ∧
      (auction.resolveEnumerations ["Phase"]).resolveEnumerations ["Side"] =
        auction.resolveEnumerations ["Side", "Phase"] ∧
      (auction.resolveEnumerations ["Phase"]).resolveEnumerations ["Side"] =
        (auction.resolveEnumerations ["Side"]).resolveEnumerations ["Phase"] := by
  have hall : ∀ n, n ∈ ["Side", "Phase"] ↔ n ∈ ["Phase"] ∨ n ∈ ["Side"] := by
    intro n
    simp [or_comm]
  exact ⟨hall, by decide, by decide, resolveEnumerations_marks auction hall⟩

end Resolving

end SourceUnit

end Target
end ContractGen
