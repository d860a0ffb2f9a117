import ContractGen.Target.Declaration

/-!
# Contracts, interfaces and source units

A source unit is one file: a header, imports and definitions. Contracts and interfaces hold
definitions of their own, so the three notions are mutually recursive.

* `Definitions.enumerationNames` lists every enum declared in some definitions, nested ones
  included.
* `SourceUnit.resolveEnumerations` retypes the names of enums wherever a type can occur.
-/

namespace ContractGen
namespace Target

mutual

/-- A contract. -/
structure Contract where
  name : String
  isAbstract : Bool := false
  /-- Base contracts, printed first in the list of bases. -/
  parents : List String := []
  /-- Implemented interfaces, printed after the base contracts. -/
  implements : List String := []
  fields : List Field := []
  definitions : Definitions

/-- An interface. -/
structure Interface where
  name : String
  parents : List String := []
  definitions : Definitions

/-- Ordered definitions of a source unit, a contract or an interface. -/
structure Definitions where
  contracts : List Contract := []
  interfaces : List Interface := []
  structures : List Structure := []
  enumerations : List Enumeration := []
  events : List Event := []
  errors : List ErrorDefinition := []
  functions : List Function := []
  modifiers : List Modifier := []

end

/-- No definitions at all. -/
def Definitions.empty : Definitions := {}

instance : Inhabited Definitions := ⟨.empty⟩
instance : Inhabited Contract := ⟨{ name := "", definitions := {} }⟩
instance : Inhabited Interface := ⟨{ name := "", definitions := {} }⟩

mutual

/-- Decides equality of contracts. -/
def Contract.decEq : (a b : Contract) → Decidable (a = b)
  | ⟨n, a, e, i, f, d⟩, ⟨n', a', e', i', f', d'⟩ =>
    if h : n = n' ∧ a = a' ∧ e = e' ∧ i = i' ∧ f = f' then
      match d.decEq d' with
      | .isTrue k => .isTrue (by simp [h, k])
      | .isFalse k => .isFalse (by simp [k])
    else
      .isFalse (by simp; intros; simp_all)

/-- Decides equality of contract lists. -/
def Contract.listDecEq : (as bs : List Contract) → Decidable (as = bs)
  | [], [] => .isTrue rfl
  | [], _ :: _ => .isFalse (by simp)
  | _ :: _, [] => .isFalse (by simp)
  | a :: as, b :: bs =>
    match a.decEq b, Contract.listDecEq as bs with
    | .isTrue h, .isTrue k => .isTrue (by simp [h, k])
    | .isFalse h, _ => .isFalse (by simp [h])
    | _, .isFalse k => .isFalse (by simp [k])

/-- Decides equality of interfaces. -/
def Interface.decEq : (a b : Interface) → Decidable (a = b)
  | ⟨n, e, d⟩, ⟨n', e', d'⟩ =>
    if h : n = n' ∧ e = e' then
      match d.decEq d' with
      | .isTrue k => .isTrue (by simp [h, k])
      | .isFalse k => .isFalse (by simp [k])
    else
      .isFalse (by simp; intros; simp_all)

/-- Decides equality of interface lists. -/
def Interface.listDecEq : (as bs : List Interface) → Decidable (as = bs)
  | [], [] => .isTrue rfl
  | [], _ :: _ => .isFalse (by simp)
  | _ :: _, [] => .isFalse (by simp)
  | a :: as, b :: bs =>
    match a.decEq b, Interface.listDecEq as bs with
    | .isTrue h, .isTrue k => .isTrue (by simp [h, k])
    | .isFalse h, _ => .isFalse (by simp [h])
    | _, .isFalse k => .isFalse (by simp [k])

/-- Decides equality of definitions. -/
def Definitions.decEq : (a b : Definitions) → Decidable (a = b)
  | ⟨c, i, s, en, ev, er, f, m⟩, ⟨c', i', s', en', ev', er', f', m'⟩ =>
    if h : s = s' ∧ en = en' ∧ ev = ev' ∧ er = er' ∧ f = f' ∧ m = m' then
      match Contract.listDecEq c c', Interface.listDecEq i i' with
      | .isTrue k, .isTrue l => .isTrue (by simp [h, k, l])
      | .isFalse k, _ => .isFalse (by simp [k])
      | _, .isFalse l => .isFalse (by simp [l])
    else
      .isFalse (by simp; intros; simp_all)

end

instance : DecidableEq Contract := Contract.decEq
instance : DecidableEq Interface := Interface.decEq
instance : DecidableEq Definitions := Definitions.decEq

/-- The comment tag in front of a license identifier. -/
def licenseTag : String := "SPDX-License-Identifier:"

/-- One source file: header, imports and top-level definitions. -/
structure SourceUnit where
  name : String
  license : String
  pragma : String
  /-- The paths of the imported files. -/
  imports : List String := []
  definitions : Definitions := {}
deriving DecidableEq, Inhabited

/-- An empty unit with the license and pragma of another. -/
def SourceUnit.sibling (unit : SourceUnit) (name : String) : SourceUnit :=
  { name, license := unit.license, pragma := unit.pragma }

namespace Contract

/-- The functions of a contract. -/
def functions (c : Contract) : List Function :=
  c.definitions.functions

/-- The names in the list of bases: base contracts, then interfaces. -/
def bases (c : Contract) : List String :=
  c.parents ++ c.implements

/-- The first function with a given name. -/
def findFunction? (c : Contract) (name : String) : Option Function :=
  c.functions.find? fun f => f.name = name

/-- Change the first function with a given name. -/
def modifyFunction (c : Contract) (name : String) (f : Function → Function) : Contract :=
  { c with definitions :=
    { c.definitions with functions := go c.definitions.functions } }
where
  /-- Change the first match in a list. -/
  go : List Function → List Function
    | [] => []
    | g :: gs => if g.name = name then f g :: gs else g :: go gs

end Contract

namespace Definitions

/-- Whether there are no definitions. -/
def isEmpty (d : Definitions) : Bool :=
  d.contracts.isEmpty && d.interfaces.isEmpty && d.structures.isEmpty &&
    d.enumerations.isEmpty && d.events.isEmpty && d.errors.isEmpty &&
    d.functions.isEmpty && d.modifiers.isEmpty

end Definitions

mutual

/-- The names of every enum declared in some definitions, nested ones included. -/
def Definitions.enumerationNames : Definitions → List String
  | { contracts, interfaces, enumerations, .. } =>
    enumerations.map Enumeration.name ++
      (Contract.listEnumerationNames contracts ++ Interface.listEnumerationNames interfaces)

/-- The names of every enum declared in some contract of a list. -/
def Contract.listEnumerationNames : List Contract → List String
  | [] => []
  | c :: cs => c.enumerationNames ++ Contract.listEnumerationNames cs

/-- The names of every enum declared in a contract. -/
def Contract.enumerationNames : Contract → List String
  | { definitions, .. } => definitions.enumerationNames

/-- The names of every enum declared in some interface of a list. -/
def Interface.listEnumerationNames : List Interface → List String
  | [] => []
  | i :: is => i.enumerationNames ++ Interface.listEnumerationNames is

/-- The names of every enum declared in an interface. -/
def Interface.enumerationNames : Interface → List String
  | { definitions, .. } => definitions.enumerationNames

end

mutual

/-- Apply a function to every type that occurs in some definitions. -/
def Definitions.mapTypes (f : TypeExpr → TypeExpr) : Definitions → Definitions
  | { contracts, interfaces, structures, enumerations, events, errors, functions, modifiers } =>
    { contracts := Contract.listMapTypes f contracts
      interfaces := Interface.listMapTypes f interfaces
      structures := structures.map (Structure.mapTypes f)
      enumerations
      events := events.map (Event.mapTypes f)
      errors := errors.map (ErrorDefinition.mapTypes f)
      functions := functions.map (Function.mapTypes f)
      modifiers := modifiers.map (Modifier.mapTypes f) }

/-- Apply a function to every type that occurs in a contract. -/
def Contract.mapTypes (f : TypeExpr → TypeExpr) : Contract → Contract
  | { name, isAbstract, parents, implements, fields, definitions } =>
    { name, isAbstract, parents, implements
      fields := fields.map (Field.mapType f)
      definitions := definitions.mapTypes f }

/-- Apply a function to every type that occurs in some contracts. -/
def Contract.listMapTypes (f : TypeExpr → TypeExpr) : List Contract → List Contract
  | [] => []
  | c :: cs => c.mapTypes f :: Contract.listMapTypes f cs

/-- Apply a function to every type that occurs in an interface. -/
def Interface.mapTypes (f : TypeExpr → TypeExpr) : Interface → Interface
  | { name, parents, definitions } =>
    { name, parents, definitions := definitions.mapTypes f }

/-- Apply a function to every type that occurs in some interfaces. -/
def Interface.listMapTypes (f : TypeExpr → TypeExpr) : List Interface → List Interface
  | [] => []
  | i :: is => i.mapTypes f :: Interface.listMapTypes f is

end

namespace SourceUnit

/-- The names of every enum declared in a unit, nested ones included. -/
def enumerationNames (unit : SourceUnit) : List String :=
  unit.definitions.enumerationNames

/-- Retype every reference to one of `enums` as an enum. -/
def resolveEnumerations (enums : List String) (unit : SourceUnit) : SourceUnit :=
  { unit with definitions := unit.definitions.mapTypes (TypeExpr.resolve enums) }

/-- Retype every reference to an enum that the unit itself declares. -/
def resolveOwnEnumerations (unit : SourceUnit) : SourceUnit :=
  unit.resolveEnumerations unit.enumerationNames

end SourceUnit

end Target
end ContractGen
