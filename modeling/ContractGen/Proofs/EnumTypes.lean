import ContractGen.Proofs.RoundTrip
import ContractGen.Target.Printer

/-!
# Types that name an enum

Resolving enums marks the names of enums in every type. A name that is marked is printed without a
data location, so what matters for a parameter or a return type is that no enum is left unmarked.

* `TypeExpr.names`, `TypeExpr.plainNames`: all names in a type, and those that are not marked.
* `Definitions.parameters`, `Definitions.returns`: what the functions and modifiers in some
  definitions pass, at any depth.
* `PassesByValue`: given enums are never passed with a data location.
* `passesByValue_resolve_iff`: resolving makes it so.
-/

namespace ContractGen
namespace Target

/-! ## Names in types -/

namespace TypeExpr

/-- Every name in a type. -/
def names : TypeExpr → List String
  | named name => [name]
  | enumeration name => [name]
  | mapping key value => key.names ++ value.names
  | array element => element.names

/-- The names in a type that are not marked as enums. -/
def plainNames : TypeExpr → List String
  | named name => [name]
  | enumeration _ => []
  | mapping key value => key.plainNames ++ value.plainNames
  | array element => element.plainNames

@[simp] theorem names_resolve
    (enums : List String)
    (t : TypeExpr) :
    (t.resolve enums).names = t.names := by
  induction t with
  | named name =>
      by_cases h : name ∈ enums <;> simp [resolve, names, h]
  | enumeration name =>
      rfl
  | mapping key value ihKey ihValue =>
      simp [resolve, names, ihKey, ihValue]
  | array element ih =>
      simp [resolve, names, ih]

/-- Resolving leaves the names that are no enums. -/
theorem plainNames_resolve
    (enums : List String)
    (t : TypeExpr) :
    (t.resolve enums).plainNames = t.plainNames.filter (· ∉ enums) := by
  induction t with
  | named name =>
      by_cases h : name ∈ enums <;> simp [resolve, plainNames, h]
  | enumeration name =>
      rfl
  | mapping key value ihKey ihValue =>
      simp [resolve, plainNames, ihKey, ihValue]
  | array element ih =>
      simp [resolve, plainNames, ih]

theorem eq_enumeration_of_name?
    {t : TypeExpr} {name : String}
    (h : t.name? = some name)
    (hplain : name ∉ t.plainNames) :
    t = enumeration name := by
  cases t with
  | named other =>
      cases h
      simp [plainNames] at hplain
  | enumeration other =>
      cases h
      rfl
  | mapping key value =>
      cases h
  | array element =>
      cases h

end TypeExpr

/-! ## Enums and headers at any depth -/

theorem Definitions.interfaces_mapTypes
    (f : TypeExpr → TypeExpr)
    (d : Definitions) :
    (d.mapTypes f).interfaces = d.interfaces.map (Interface.mapTypes f) := by
  cases d
  exact Interface.listMapTypes_eq _ _

mutual

/-- Mapping types keeps the enumeration names at every depth. -/
theorem Definitions.enumerationNames_mapTypes
    (f : TypeExpr → TypeExpr) :
    ∀ d : Definitions, (d.mapTypes f).enumerationNames = d.enumerationNames
  | ⟨contracts, interfaces, _, _, _, _, _, _⟩ => by
      simp [Definitions.mapTypes, Definitions.enumerationNames,
        Contract.listEnumerationNames_mapTypes f contracts,
        Interface.listEnumerationNames_mapTypes f interfaces]

theorem Contract.listEnumerationNames_mapTypes
    (f : TypeExpr → TypeExpr) :
    ∀ cs : List Contract,
      Contract.listEnumerationNames (Contract.listMapTypes f cs) =
        Contract.listEnumerationNames cs
  | [] => rfl
  | ⟨_, _, _, _, _, definitions⟩ :: cs => by
      simp [Contract.listMapTypes, Contract.mapTypes, Contract.listEnumerationNames,
        Contract.enumerationNames, Definitions.enumerationNames_mapTypes f definitions,
        Contract.listEnumerationNames_mapTypes f cs]

theorem Interface.listEnumerationNames_mapTypes
    (f : TypeExpr → TypeExpr) :
    ∀ is : List Interface,
      Interface.listEnumerationNames (Interface.listMapTypes f is) =
        Interface.listEnumerationNames is
  | [] => rfl
  | ⟨_, _, definitions⟩ :: is => by
      simp [Interface.listMapTypes, Interface.mapTypes, Interface.listEnumerationNames,
        Interface.enumerationNames, Definitions.enumerationNames_mapTypes f definitions,
        Interface.listEnumerationNames_mapTypes f is]

end

mutual

/-- Mapping types twice is mapping them once with the composed function. -/
theorem Definitions.mapTypes_mapTypes
    (f g : TypeExpr → TypeExpr) :
    ∀ d : Definitions, (d.mapTypes f).mapTypes g = d.mapTypes (g ∘ f)
  | ⟨contracts, interfaces, _, _, _, _, _, _⟩ => by
      simp [Definitions.mapTypes, Contract.listMapTypes_listMapTypes f g contracts,
        Interface.listMapTypes_listMapTypes f g interfaces, Function.comp_def,
        Structure.mapTypes, Event.mapTypes, ErrorDefinition.mapTypes, Target.Function.mapTypes,
        Modifier.mapTypes, LocalField.mapType, Parameter.mapType]

theorem Contract.listMapTypes_listMapTypes
    (f g : TypeExpr → TypeExpr) :
    ∀ cs : List Contract, Contract.listMapTypes g (Contract.listMapTypes f cs) =
      Contract.listMapTypes (g ∘ f) cs
  | [] => rfl
  | ⟨_, _, _, _, _, definitions⟩ :: cs => by
      simp [Contract.listMapTypes, Contract.mapTypes, Field.mapType, Function.comp_def,
        Definitions.mapTypes_mapTypes f g definitions, Contract.listMapTypes_listMapTypes f g cs]

theorem Interface.listMapTypes_listMapTypes
    (f g : TypeExpr → TypeExpr) :
    ∀ is : List Interface, Interface.listMapTypes g (Interface.listMapTypes f is) =
      Interface.listMapTypes (g ∘ f) is
  | [] => rfl
  | ⟨_, _, definitions⟩ :: is => by
      simp [Interface.listMapTypes, Interface.mapTypes,
        Definitions.mapTypes_mapTypes f g definitions, Interface.listMapTypes_listMapTypes f g is]

end

@[simp] theorem SourceUnit.enumerationNames_resolveEnumerations
    (enums : List String)
    (unit : SourceUnit) :
    (unit.resolveEnumerations enums).enumerationNames = unit.enumerationNames :=
  Definitions.enumerationNames_mapTypes _ _

section Headers

variable {α : Type} (f : Function → List α) (g : Modifier → List α)

mutual

/-- What is said of the functions and modifiers in some definitions, nested ones included. -/
def Definitions.gather : Definitions → List α
  | { contracts, interfaces, functions, modifiers, .. } =>
    functions.flatMap f ++ modifiers.flatMap g ++
      (Contract.listGather contracts ++ Interface.listGather interfaces)

/-- What is said of the functions and modifiers in some contracts. -/
def Contract.listGather : List Contract → List α
  | [] => []
  | { definitions, .. } :: cs => definitions.gather ++ Contract.listGather cs

/-- What is said of the functions and modifiers in some interfaces. -/
def Interface.listGather : List Interface → List α
  | [] => []
  | { definitions, .. } :: is => definitions.gather ++ Interface.listGather is

end

variable {f g} in
mutual

/-- Every function and modifier is reached when types are changed. -/
theorem Definitions.gather_mapTypes
    {t : TypeExpr → TypeExpr} {h : α → α}
    (hf : ∀ x : Function, f (x.mapTypes t) = (f x).map h)
    (hg : ∀ x : Modifier, g (x.mapTypes t) = (g x).map h) :
    ∀ d : Definitions, (d.mapTypes t).gather f g = (d.gather f g).map h
  | ⟨contracts, interfaces, _, _, _, _, _, _⟩ => by
      simp [Definitions.mapTypes, Definitions.gather, List.flatMap_map, List.map_flatMap, hf, hg,
        Contract.listGather_mapTypes hf hg contracts,
        Interface.listGather_mapTypes hf hg interfaces]

theorem Contract.listGather_mapTypes
    {t : TypeExpr → TypeExpr} {h : α → α}
    (hf : ∀ x : Function, f (x.mapTypes t) = (f x).map h)
    (hg : ∀ x : Modifier, g (x.mapTypes t) = (g x).map h) :
    ∀ cs : List Contract,
      Contract.listGather f g (Contract.listMapTypes t cs) = (Contract.listGather f g cs).map h
  | [] => rfl
  | ⟨_, _, _, _, _, definitions⟩ :: cs => by
      simp [Contract.listMapTypes, Contract.mapTypes, Contract.listGather,
        Definitions.gather_mapTypes hf hg definitions, Contract.listGather_mapTypes hf hg cs]

theorem Interface.listGather_mapTypes
    {t : TypeExpr → TypeExpr} {h : α → α}
    (hf : ∀ x : Function, f (x.mapTypes t) = (f x).map h)
    (hg : ∀ x : Modifier, g (x.mapTypes t) = (g x).map h) :
    ∀ is : List Interface,
      Interface.listGather f g (Interface.listMapTypes t is) = (Interface.listGather f g is).map h
  | [] => rfl
  | ⟨_, _, definitions⟩ :: is => by
      simp [Interface.listMapTypes, Interface.mapTypes, Interface.listGather,
        Definitions.gather_mapTypes hf hg definitions, Interface.listGather_mapTypes hf hg is]

end

theorem mem_gather_contract
    {x : α} {cs : List Contract} :
    x ∈ Contract.listGather f g cs ↔ ∃ c ∈ cs, x ∈ c.definitions.gather f g := by
  induction cs with
  | nil =>
      simp [Contract.listGather]
  | cons c cs ih =>
      obtain ⟨name, isAbstract, parents, implements, fields, definitions⟩ := c
      simp [Contract.listGather, ih]

theorem mem_gather_interface
    {x : α} {is : List Interface} :
    x ∈ Interface.listGather f g is ↔ ∃ i ∈ is, x ∈ i.definitions.gather f g := by
  induction is with
  | nil =>
      simp [Interface.listGather]
  | cons i is ih =>
      obtain ⟨name, parents, definitions⟩ := i
      simp [Interface.listGather, ih]

/--
What is gathered comes from a function or modifier at the definitions' own level or inside one of
their contracts or interfaces.
-/
theorem mem_gather_iff
    {x : α} {d : Definitions} :
    x ∈ d.gather f g ↔
      (∃ y ∈ d.functions, x ∈ f y) ∨
      (∃ y ∈ d.modifiers, x ∈ g y) ∨
      (∃ c ∈ d.contracts, x ∈ c.definitions.gather f g) ∨
      ∃ i ∈ d.interfaces, x ∈ i.definitions.gather f g := by
  obtain ⟨contracts, interfaces, structures, enumerations, events, errors, functions, modifiers⟩ := d
  simp only [Definitions.gather, List.mem_append, List.mem_flatMap, mem_gather_contract,
    mem_gather_interface, or_assoc]

end Headers

/-- The parameters of every function and modifier in some definitions. -/
def Definitions.parameters (d : Definitions) : List Parameter :=
  d.gather Function.parameters Modifier.parameters

/-- The return types of every function in some definitions. -/
def Definitions.returns (d : Definitions) : List TypeExpr :=
  d.gather Function.returns fun _ => []

/-! ## Passing enums by value -/

/-- Some enums are never passed with a data location. -/
structure PassesByValue (enums : List String) (d : Definitions) : Prop where
  parameters : ∀ p ∈ d.parameters, ∀ n ∈ enums, n ∉ p.type.plainNames
  returns : ∀ t ∈ d.returns, ∀ n ∈ enums, n ∉ t.plainNames
  parameterText : ∀ p ∈ d.parameters, ∀ n ∈ enums, p.type.name? = some n →
    p.text = withName n p.name
  returnText : ∀ t ∈ d.returns, ∀ n ∈ enums, t.name? = some n → Target.returnText t = n

theorem Parameter.text_enumeration
    {p : Parameter} {name : String}
    (h : p.type = .enumeration name) :
    p.text = withName name p.name := by
  cases hlocation : p.location <;>
    simp [Parameter.text, hlocation, h, TypeExpr.isReference, TypeExpr.text]

/-- If no enum is left unmarked, none is printed with a data location. -/
theorem passesByValue_of_plainNames
    {enums : List String} {d : Definitions}
    (hparameters : ∀ p ∈ d.parameters, ∀ n ∈ enums, n ∉ p.type.plainNames)
    (hreturns : ∀ t ∈ d.returns, ∀ n ∈ enums, n ∉ t.plainNames) :
    PassesByValue enums d := by
  refine ⟨hparameters, hreturns, ?_, ?_⟩
  · intro p hp n hn hname
    exact Parameter.text_enumeration
      (TypeExpr.eq_enumeration_of_name? hname (hparameters p hp n hn))
  · intro t ht n hn hname
    rw [TypeExpr.eq_enumeration_of_name? hname (hreturns t ht n hn)]
    rfl

/-- Definitions that pass no more than others pass enums by value if these do. -/
theorem PassesByValue.mono
    {enums enums' : List String} {d d' : Definitions}
    (h : PassesByValue enums d)
    (henums : enums' ⊆ enums)
    (hparameters : d'.parameters ⊆ d.parameters)
    (hreturns : d'.returns ⊆ d.returns) :
    PassesByValue enums' d' :=
  passesByValue_of_plainNames
    (fun p hp n hn => h.parameters p (hparameters hp) n (henums hn))
    (fun t ht n hn => h.returns t (hreturns ht) n (henums hn))

theorem passesByValue_congr
    {enums : List String} {d d' : Definitions}
    (hparameters : d.parameters = d'.parameters)
    (hreturns : d.returns = d'.returns) :
    PassesByValue enums d ↔ PassesByValue enums d' := by
  constructor
  · intro h
    exact h.mono (fun _ => id) (by simp [hparameters]) (by simp [hreturns])
  · intro h
    exact h.mono (fun _ => id) (by simp [hparameters]) (by simp [hreturns])

theorem Definitions.parameters_mapTypes
    (f : TypeExpr → TypeExpr)
    (d : Definitions) :
    (d.mapTypes f).parameters = d.parameters.map (Parameter.mapType f) :=
  Definitions.gather_mapTypes (fun _ => rfl) (fun _ => rfl) d

theorem Definitions.returns_mapTypes
    (f : TypeExpr → TypeExpr)
    (d : Definitions) :
    (d.mapTypes f).returns = d.returns.map f :=
  Definitions.gather_mapTypes (fun _ => rfl) (fun _ => rfl) d

/-- After some enums have been resolved, those are passed by value and any other one as before. -/
theorem passesByValue_resolve_iff
    {enums more : List String} {d : Definitions} :
    PassesByValue enums (d.mapTypes (.resolve more)) ↔
      PassesByValue (enums.filter (· ∉ more)) d := by
  have hresolve : ∀ t : TypeExpr,
      (∀ n ∈ enums, n ∉ (t.resolve more).plainNames) ↔
        ∀ n ∈ enums.filter (· ∉ more), n ∉ t.plainNames := by
    intro t
    simp only [TypeExpr.plainNames_resolve, List.mem_filter, decide_eq_true_eq]
    exact ⟨fun h n hn hplain => h n hn.1 ⟨hplain, hn.2⟩,
      fun h n hn hplain => h n ⟨hn, hplain.2⟩ hplain.1⟩
  constructor
  · intro h
    refine passesByValue_of_plainNames ?_ ?_
    · intro p hp
      refine (hresolve p.type).mp (h.parameters (p.mapType _) ?_)
      rw [Definitions.parameters_mapTypes]
      exact List.mem_map_of_mem hp
    · intro t ht
      refine (hresolve t).mp (h.returns (t.resolve more) ?_)
      rw [Definitions.returns_mapTypes]
      exact List.mem_map_of_mem ht
  · intro h
    refine passesByValue_of_plainNames ?_ ?_
    · intro p hp
      rw [Definitions.parameters_mapTypes] at hp
      obtain ⟨q, hq, rfl⟩ := List.mem_map.mp hp
      exact (hresolve q.type).mpr (h.parameters q hq)
    · intro t ht
      rw [Definitions.returns_mapTypes] at ht
      obtain ⟨r, hr, rfl⟩ := List.mem_map.mp ht
      exact (hresolve r).mpr (h.returns r hr)

/-- Resolving enums makes sure that they are passed by value; those that were before still are. -/
theorem passesByValue_resolve
    {enums : List String} {d : Definitions}
    (h : PassesByValue enums d)
    (more : List String) :
    PassesByValue (more ++ enums) (d.mapTypes (.resolve more)) := by
  refine passesByValue_resolve_iff.mpr (h.mono ?_ (fun _ => id) (fun _ => id))
  intro n hn
  simp only [List.mem_filter, List.mem_append, decide_eq_true_eq] at hn
  exact hn.1.resolve_left hn.2

theorem passesByValue_nil
    (d : Definitions) :
    PassesByValue [] d :=
  passesByValue_of_plainNames (fun _ _ _ => nofun) (fun _ _ _ => nofun)

/-- A unit resolved with given enumerations passes each of them by value. -/
theorem SourceUnit.passesByValue_resolveEnumerations
    (enums : List String)
    (unit : SourceUnit) :
    PassesByValue enums (unit.resolveEnumerations enums).definitions := by
  have h := passesByValue_resolve (passesByValue_nil unit.definitions) enums
  rwa [List.append_nil] at h

end Target
end ContractGen
