import ContractGen.Proofs.LoweredUnits
import ContractGen.Proofs.MergedHeads
import Mathlib.Data.List.Forall2

/-!
# Mappings are never lost

A mapping aspect that lacks its key or its value type is passed over when types are converted, and
the element gets its plain type. A lint refuses such aspects beforehand. Together they make sure
that a run that succeeds has a mapping wherever a model asks for one, and nowhere else.

**Definitions.**
* `MappingKept`: a type is a mapping exactly if some aspects ask for one, and then this one.
* `ContractKept`, `UnitKept`: this holds of all in a contract or unit that comes from a model.

**Results.**
* `Pipeline.structureComplete_of_lintModels`: without errors every mapping aspect is complete.
* `Pipeline.run_keeps_mappings`: a run that succeeds keeps all mappings.
-/

namespace ContractGen
namespace Lowering

open Behavior Target
open Domain (Aspect ComplexType ModelSource findAspect? hasAspect)

/-! ## Types -/

/-- Whether a type is a mapping. -/
def IsMapping (type : TypeExpr) : Prop :=
  ∃ key value, type = .mapping key value

/-- A type is a mapping exactly if aspects ask for one, and then the one that the first asks for. -/
structure MappingKept (enums : List String) (aspects : List Aspect) (type : TypeExpr) : Prop where
  isMapping_iff : IsMapping type ↔ hasAspect aspects Domain.Vocabulary.mapping = true
  eq_mapping : ∀ aspect, findAspect? aspects Domain.Vocabulary.mapping = some aspect →
    ∃ key value,
      aspect.getText? Domain.Vocabulary.key = some key ∧
      aspect.getText? Domain.Vocabulary.value = some value ∧
      type = .mapping ((TypeExpr.named key).resolve enums) ((TypeExpr.named value).resolve enums)

/-- The mapping aspect, if there is one, gives a key and a value type. -/
def MappingComplete (aspects : List Aspect) : Prop :=
  ∀ aspect, findAspect? aspects Domain.Vocabulary.mapping = some aspect →
    ∃ key value,
      aspect.getText? Domain.Vocabulary.key = some key ∧
      aspect.getText? Domain.Vocabulary.value = some value

theorem isMapping_resolve_iff
    {enums : List String} {type : TypeExpr} :
    IsMapping (type.resolve enums) ↔ IsMapping type := by
  cases type with
  | named name =>
      by_cases h : name ∈ enums <;> simp [IsMapping, TypeExpr.resolve, h]
  | enumeration name =>
      simp [IsMapping, TypeExpr.resolve]
  | mapping key value =>
      simp [IsMapping, TypeExpr.resolve]
  | array element =>
      simp [IsMapping, TypeExpr.resolve]

theorem not_isMapping_plainType
    (type : Domain.TypeRef) :
    ¬ IsMapping (plainType type) := by
  rintro ⟨key, value, h⟩
  unfold plainType at h
  split at h <;> cases h

/-- A complete mapping aspect is kept, whatever the type would be without it. -/
theorem mappingKept_resolve
    {aspects : List Aspect} {plain : TypeExpr}
    (hcomplete : MappingComplete aspects)
    (hplain : ¬ IsMapping plain)
    (enums : List String) :
    MappingKept enums aspects (((mappingType? aspects).getD plain).resolve enums) := by
  cases hfind : findAspect? aspects Domain.Vocabulary.mapping with
  | none =>
      have htype : mappingType? aspects = none := by
        simp [mappingType?, hfind]
      refine ⟨?_, ?_⟩
      · simp [htype, isMapping_resolve_iff, hplain, hasAspect, hfind]
      · intro aspect haspect
        rw [hfind] at haspect
        cases haspect
  | some aspect =>
      obtain ⟨key, value, hkey, hvalue⟩ := hcomplete aspect hfind
      have htype : mappingType? aspects = some (.mapping (.named key) (.named value)) := by
        simp [mappingType?, hfind, hkey, hvalue]
      rw [htype]
      refine ⟨?_, ?_⟩
      · simp [IsMapping, TypeExpr.resolve, hasAspect, hfind]
      · intro other hother
        obtain rfl : aspect = other := Option.some.inj (hfind.symm.trans hother)
        exact ⟨key, value, hkey, hvalue, rfl⟩

/-! ## Declarations -/

section Kept

variable (enums : List String)

/-- A state variable comes from a field. -/
def VariableKept (f : Domain.Field) (v : Field) : Prop :=
  v.name = f.name ∧ MappingKept enums f.aspects v.type

/-- A member of a struct, event or error comes from a field. -/
def MemberKept (f : Domain.Field) (m : LocalField) : Prop :=
  m.name = f.name ∧ MappingKept enums f.aspects m.type

/-- A parameter comes from one of an operation. -/
def ParameterKept (p : Domain.Parameter) (q : Parameter) : Prop :=
  q.name = p.name ∧ MappingKept enums p.aspects q.type

/-- A struct, event or error, given by its name and its members, comes from a structure. -/
def MembersKept (s : Domain.Structure) (name : String) (members : List LocalField) : Prop :=
  name = s.name ∧ List.Forall₂ (MemberKept enums) s.fields members

/-- A function or modifier, given by its name and its parameters, comes from an operation. -/
def OperationKept (o : Domain.Operation) (name : String) (parameters : List Parameter) : Prop :=
  name = o.name ∧ List.Forall₂ (ParameterKept enums) o.parameters parameters

end Kept

/-- Whether an operation becomes a modifier. -/
def isModifier (o : Domain.Operation) : Bool :=
  hasAspect o.aspects Domain.Vocabulary.modifier

/--
A contract comes from a section of a model. Its state variables and functions are those of the
section, followed by what a diagram has added; all else that it declares is of the section.
-/
structure ContractKept (enums : List String) (added : Option Contract)
    (x : Domain.Structure × List ComplexType) (c : Contract) : Prop where
  name : c.name = x.1.name
  stateVariables : ∃ own,
    c.fields = own ++ (added.toList.flatMap Contract.fields).map (Field.mapType (.resolve enums)) ∧
    List.Forall₂ (VariableKept enums) x.1.fields own
  functions : ∃ own more,
    c.functions = own ++ more ∧
    List.Forall₂ (fun o f => OperationKept enums o f.name f.parameters)
      (x.1.operations.filter fun o => !isModifier o) own ∧
    more.map head = ((added.toList.flatMap Contract.functions).map
      (Function.mapTypes (.resolve enums))).map head
  modifiers : List.Forall₂ (fun o m => OperationKept enums o m.name m.parameters)
    (x.1.operations.filter isModifier) c.definitions.modifiers
  structures : List.Forall₂ (fun s d => MembersKept enums s d.name d.fields)
    (structuresOf .struct x.2) c.definitions.structures
  events : List.Forall₂ (fun s d => MembersKept enums s d.name d.parameters)
    (structuresOf .event x.2) c.definitions.events
  errors : List.Forall₂ (fun s d => MembersKept enums s d.name d.parameters)
    (structuresOf .error x.2) c.definitions.errors
  contracts : c.definitions.contracts = []
  interfaces : c.definitions.interfaces = []

/-- The unit of a model: its contracts come from the sections, and it has no members of its own. -/
structure UnitKept (enums : List String) (around : Surroundings) (u : LoweredUnit) : Prop where
  contracts : List.Forall₂ (fun x c => ContractKept enums (diagramContract? around x.1) x c)
    (sections around.source.model.types) u.unit.definitions.contracts
  interfaces : u.unit.definitions.interfaces = []
  structures : u.unit.definitions.structures = []
  events : u.unit.definitions.events = []
  errors : u.unit.definitions.errors = []
  functions : u.unit.definitions.functions = []
  modifiers : u.unit.definitions.modifiers = []

/-- Every mapping aspect in a structure is complete. -/
structure StructureComplete (s : Domain.Structure) : Prop where
  fields : ∀ f ∈ s.fields, MappingComplete f.aspects
  parameters : ∀ o ∈ s.operations, ∀ p ∈ o.parameters, MappingComplete p.aspects

theorem fieldType_kept
    {f : Domain.Field}
    (h : MappingComplete f.aspects)
    (enums : List String) :
    MappingKept enums f.aspects ((fieldType f).resolve enums) := by
  refine mappingKept_resolve h ?_ enums
  split
  · rintro ⟨key, value, h⟩
    cases h
  · exact not_isMapping_plainType f.type

theorem localFields_kept
    {s : Domain.Structure}
    (h : StructureComplete s)
    (enums : List String) :
    List.Forall₂ (MemberKept enums) s.fields
      ((s.fields.map localField).map (LocalField.mapType (.resolve enums))) := by
  rw [List.map_map, List.forall₂_map_right_iff, List.forall₂_same]
  intro f hf
  exact ⟨rfl, fieldType_kept (h.fields f hf) enums⟩

theorem stateVariables_kept
    {s : Domain.Structure}
    (h : StructureComplete s)
    (enums : List String) :
    List.Forall₂ (VariableKept enums) s.fields
      ((s.fields.map stateVariable).map (Field.mapType (.resolve enums))) := by
  rw [List.map_map, List.forall₂_map_right_iff, List.forall₂_same]
  intro f hf
  exact ⟨rfl, fieldType_kept (h.fields f hf) enums⟩

theorem parameters_kept
    {o : Domain.Operation}
    (h : ∀ p ∈ o.parameters, MappingComplete p.aspects)
    (enums : List String) :
    List.Forall₂ (ParameterKept enums) o.parameters
      ((o.parameters.map parameter).map (Parameter.mapType (.resolve enums))) := by
  rw [List.map_map, List.forall₂_map_right_iff, List.forall₂_same]
  intro p hp
  exact ⟨rfl, mappingKept_resolve (h p hp) (not_isMapping_plainType p.type) enums⟩

/-- What a choice makes of the elements that it is made for. -/
theorem forall₂_filter_filterMap
    {α β : Type} {R : α → β → Prop} {p : α → Bool} {f : α → Option β} {xs : List α}
    (hsome : ∀ x ∈ xs, p x = true → ∃ y, f x = some y ∧ R x y)
    (hnone : ∀ x ∈ xs, p x = false → f x = none) :
    List.Forall₂ R (xs.filter p) (xs.filterMap f) := by
  induction xs with
  | nil =>
      exact .nil
  | cons x xs ih =>
      have hrest := ih (fun y hy => hsome y (List.mem_cons_of_mem x hy))
        (fun y hy => hnone y (List.mem_cons_of_mem x hy))
      cases hp : p x with
      | true =>
          obtain ⟨y, hy, hR⟩ := hsome x List.mem_cons_self hp
          rw [List.filter_cons_of_pos hp, List.filterMap_cons_some hy]
          exact .cons hR hrest
      | false =>
          rw [List.filter_cons_of_neg (by simp [hp]),
            List.filterMap_cons_none (hnone x List.mem_cons_self hp)]
          exact hrest

theorem callable_of_modifier
    {o : Domain.Operation}
    (h : isModifier o = true) :
    callable o = .modifier { name := o.name, parameters := o.parameters.map parameter } :=
  if_pos h

theorem callable_of_not_modifier
    {o : Domain.Operation}
    (h : isModifier o = false) :
    callable o =
      .function
        { name := o.name
          visibility := memberVisibility o.hidden
          parameters := o.parameters.map parameter
          returns := o.returns.toList.map plainType } :=
  if_neg (Bool.not_eq_true _ ▸ h)

/-- Functions with the heads of those of a structure keep the mappings of its operations. -/
theorem functions_kept
    {s : Domain.Structure} {functions : List Function}
    (h : StructureComplete s)
    (hheads : functions.map head = (contract s).functions.map head)
    (enums : List String) :
    List.Forall₂ (fun o f => OperationKept enums o f.name f.parameters)
      (s.operations.filter fun o => !isModifier o)
      (functions.map (Function.mapTypes (.resolve enums))) := by
  have hkept : List.Forall₂
      (fun o f =>
        OperationKept enums o f.name (f.parameters.map (Parameter.mapType (.resolve enums))))
      (s.operations.filter fun o => !isModifier o) ((contract s).functions.map head) := by
    rw [List.forall₂_map_right_iff]
    refine forall₂_filter_filterMap ?_ ?_
    · intro o ho hmodifier
      refine ⟨_, by rw [callable_of_not_modifier (by simpa using hmodifier)]; rfl, rfl, ?_⟩
      exact parameters_kept (h.parameters o ho) enums
    · intro o _ hmodifier
      rw [callable_of_modifier (by simpa using hmodifier)]
      rfl
  rw [← hheads, List.forall₂_map_right_iff] at hkept
  rw [List.forall₂_map_right_iff]
  exact hkept

theorem modifiers_kept
    {s : Domain.Structure}
    (h : StructureComplete s)
    (enums : List String) :
    List.Forall₂ (fun o m => OperationKept enums o m.name m.parameters)
      (s.operations.filter isModifier)
      ((contract s).definitions.modifiers.map (Modifier.mapTypes (.resolve enums))) := by
  rw [List.forall₂_map_right_iff]
  refine forall₂_filter_filterMap ?_ ?_
  · intro o ho hmodifier
    refine ⟨_, by rw [callable_of_modifier hmodifier]; rfl, rfl, ?_⟩
    exact parameters_kept (h.parameters o ho) enums
  · intro o _ hmodifier
    rw [callable_of_not_modifier hmodifier]
    rfl

/-! ## Contracts and units -/

theorem sectionContract_kept
    (enums : List String)
    (around : Surroundings)
    {x : Domain.Structure × List ComplexType}
    (hs : StructureComplete x.1)
    (htypes : ∀ s ∈ x.2.filterMap ComplexType.structure?, StructureComplete s) :
    ContractKept enums (diagramContract? around x.1) x
      ((sectionContract around x).mapTypes (.resolve enums)) := by
  obtain ⟨-, fields, functions, hcontract⟩ := contractResponse_output around x.1
  obtain ⟨hfields, hfunctions⟩ := contractOf_adds around x.1
  rw [hcontract] at hfields hfunctions
  obtain ⟨own, more, rfl, hown, hmore⟩ := List.map_eq_append_iff.mp hfunctions
  obtain rfl : fields = _ := hfields
  have hmembers : ∀ kind, ∀ s ∈ structuresOf kind x.2,
      List.Forall₂ (MemberKept enums) s.fields
        ((s.fields.map localField).map (LocalField.mapType (.resolve enums))) := by
    intro kind s hs
    exact localFields_kept (htypes s (List.mem_of_mem_filter hs)) enums
  rw [sectionContract, hcontract]
  refine
    { name := rfl
      stateVariables := ⟨_, List.map_append, stateVariables_kept hs enums⟩
      functions := ⟨_, _, List.map_append, functions_kept hs hown enums, ?_⟩
      modifiers := modifiers_kept hs enums
      structures := ?_
      events := ?_
      errors := ?_
      contracts := rfl
      interfaces := rfl }
  · have hcomm : head ∘ Function.mapTypes (.resolve enums) =
        Function.mapTypes (.resolve enums) ∘ head := rfl
    rw [List.map_map, List.map_map, hcomm, ← List.map_map, ← List.map_map, hmore]
  · show List.Forall₂ _ _ (([] ++ (structuresOf .struct x.2).map struct).map _)
    rw [List.nil_append, List.map_map, List.forall₂_map_right_iff, List.forall₂_same]
    exact fun s hs => ⟨rfl, hmembers .struct s hs⟩
  · show List.Forall₂ _ _ (([] ++ (structuresOf .event x.2).map event).map _)
    rw [List.nil_append, List.map_map, List.forall₂_map_right_iff, List.forall₂_same]
    exact fun s hs => ⟨rfl, hmembers .event s hs⟩
  · show List.Forall₂ _ _ (([] ++ (structuresOf .error x.2).map errorDefinition).map _)
    rw [List.nil_append, List.map_map, List.forall₂_map_right_iff, List.forall₂_same]
    exact fun s hs => ⟨rfl, hmembers .error s hs⟩

end Lowering

namespace Pipeline

open Behavior Lowering
open Domain (Aspect ComplexType ModelSource)

/-! ## What the lints exclude -/

/-- An incomplete mapping aspect is an error. -/
theorem mappingComplete_of_mappingFindings
    {aspects : List Aspect}
    (location : String)
    (h : ∀ d ∈ mappingFindings aspects location, d.isError = false) :
    MappingComplete aspects := by
  intro aspect hfind
  have hmissing : missingProperties aspect = [] := by
    cases hmissing : missingProperties aspect with
    | nil =>
        rfl
    | cons key keys =>
        simp [mappingFindings, hfind, hmissing, finding, Diagnostic.isError] at h
  have hpresent : ∀ key ∈ [Domain.Vocabulary.key, Domain.Vocabulary.value],
      ∃ text, aspect.getText? key = some text := by
    intro key hkey
    have hnot := List.filter_eq_nil_iff.mp hmissing key hkey
    exact Option.ne_none_iff_exists'.mp (by simpa using hnot)
  obtain ⟨key, hkey⟩ := hpresent Domain.Vocabulary.key (by simp)
  obtain ⟨value, hvalue⟩ := hpresent Domain.Vocabulary.value (by simp)
  exact ⟨key, value, hkey, hvalue⟩

theorem structureComplete_of_lintModels
    {models : List ModelSource}
    (h : ∀ d ∈ lintModels Lint.standard models, d.isError = false)
    {source : ModelSource}
    (hsource : source ∈ models)
    {s : Domain.Structure}
    (hs : s ∈ source.model.structures) :
    StructureComplete s := by
  have hfindings : ∀ d ∈ structureMappingFindings s, d.isError = false := by
    intro d hd
    refine h d (List.mem_flatMap.mpr ⟨source, hsource, List.mem_flatMap.mpr
      ⟨.mappingAspect, by simp [Lint.standard], List.mem_flatMap.mpr ⟨s, hs, hd⟩⟩⟩)
  refine ⟨?_, ?_⟩
  · intro f hf
    refine mappingComplete_of_mappingFindings (s.name ++ "." ++ f.name) ?_
    intro d hd
    exact hfindings d (List.mem_append_left _ (List.mem_flatMap.mpr ⟨f, hf, hd⟩))
  · intro o ho p hp
    refine mappingComplete_of_mappingFindings (s.name ++ "." ++ o.name ++ "." ++ p.name) ?_
    intro d hd
    exact hfindings d (List.mem_append_right _
      (List.mem_flatMap.mpr ⟨o, ho, List.mem_flatMap.mpr ⟨p, hp, hd⟩⟩))

/-! ## Runs -/

theorem ofExcept_eq
    {α : Type}
    (x : Except Failure α) :
    MonadExcept.ofExcept x = x := by
  cases x with
  | error f =>
      rfl
  | ok a =>
      rfl

/-- Without plugins a phase is only run. -/
theorem runWith_nil
    (p : Phase (Except Failure))
    (c : Context) :
    p.runWith [] c = p.run c := by
  simp [Phase.runWith]

/-- Validation adds what the lints find, and succeeds only if there is no error. -/
theorem validate_eq_ok
    {lints : List Lint} {c c' : Context}
    (h : validate lints c = .ok c') :
    c' = lint lints c ∧ c'.hasErrors = false := by
  obtain ⟨_, hvalid, hresult⟩ := bind_eq_ok_iff.mp h
  obtain rfl : lint lints c = c' := Except.ok.inj hresult
  refine ⟨rfl, ?_⟩
  unfold requireValid at hvalid
  split at hvalid
  · cases hvalid
  · rename_i hnone
    simpa using hnone

/-- A run without further phases lowers its models if the lints find no error in them. -/
theorem eq_lower_of_run
    {lowerer : Lowerer} {models : List ModelSource} {header : Header} {c : Context}
    (h : ({ lowerer } : Plan (Except Failure)).run models header = .ok c) :
    c = lower lowerer (lint Lint.standard { models, header }) ∧
      ∀ d ∈ lintModels Lint.standard models, d.isError = false := by
  obtain ⟨checked, hchecked, hlowered⟩ := bind_eq_ok_iff.mp h
  have hvalidate : validate Lint.standard { models, header } = .ok checked := by
    rw [← ofExcept_eq (validate _ _)]
    exact (runWith_nil (.validate Lint.standard) _).symm.trans hchecked
  obtain ⟨rfl, hnone⟩ := validate_eq_ok hvalidate
  refine ⟨(Except.ok.inj hlowered).symm, ?_⟩
  simpa [Context.hasErrors, lint, Context.report] using hnone

theorem unitOf_kept
    {compiler : Option Compiler} {c : Context} {source : ModelSource}
    (h : ∀ s ∈ source.model.structures, StructureComplete s) :
    UnitKept (runEnums compiler c) (aroundSource compiler c source) (unitOf compiler c source) := by
  refine
    { contracts := ?_
      interfaces := rfl
      structures := rfl
      events := rfl
      errors := rfl
      functions := rfl
      modifiers := rfl }
  rw [contracts_unitOf, List.forall₂_map_right_iff]
  refine List.forall₂_same.mpr ?_
  intro x hx
  have hmem : ∀ t ∈ ComplexType.struct x.1 :: x.2, t ∈ source.model.types := by
    intro t ht
    rw [eq_leading_append_sections source.model.types]
    exact List.mem_append_right _ (List.mem_flatMap.mpr ⟨x, hx, ht⟩)
  refine sectionContract_kept _ _ ?_ ?_
  · exact h x.1 (List.mem_filterMap.mpr ⟨_, hmem _ List.mem_cons_self, rfl⟩)
  · intro s hs
    obtain ⟨t, ht, hstructure⟩ := List.mem_filterMap.mp hs
    exact h s (List.mem_filterMap.mpr ⟨t, hmem t (List.mem_cons_of_mem _ ht), hstructure⟩)

/--
In a run that succeeds every state variable, member and parameter that comes from a model has a
mapping type exactly if it carries a mapping aspect, and the first such aspect says which one. The
enums are those that the units declare.
-/
theorem run_keeps_mappings
    {compiler : Option Compiler} {models : List ModelSource} {header : Header} {c : Context}
    (h : ({ lowerer := { compiler } } : Plan (Except Failure)).run models header = .ok c) :
    List.Forall₂
      (fun source u =>
        UnitKept (c.units.flatMap fun u => u.unit.enumerationNames)
          { header, source, compiler } u)
      models c.units := by
  obtain ⟨rfl, hvalid⟩ := eq_lower_of_run h
  rw [flatMap_enumerationNames_units, lower_units, List.forall₂_map_right_iff]
  refine List.forall₂_same.mpr ?_
  intro source hsource
  exact unitOf_kept fun s hs => structureComplete_of_lintModels hvalid hsource hs

/-- A mapping aspect with a key and a value type. -/
def mappingAspect (key value : Domain.PropertyValue) : Aspect :=
  { name := Domain.Vocabulary.mapping
    properties := [(Domain.Vocabulary.key, key), (Domain.Vocabulary.value, value)] }

/-- A bank with mappings in all kinds of members, and a diagram. -/
def bankSource : ModelSource :=
  { path := "models/bank.json"
    model :=
      { name := "Bank"
        types :=
          [.struct
            { name := "Bank"
              aspects :=
                [{ name := Domain.Vocabulary.contractType
                   properties := [("isContract", .bool true)] },
                 { name := Domain.Vocabulary.stateBehavior
                   properties := [("diagram", .string "bank.puml")] }]
              fields :=
                -- Only the first mapping aspect counts, so the other one may be incomplete.
                [{ name := "states"
                   type := .primitive .date
                   list := true
                   aspects :=
                     [mappingAspect (.string "address") (.string "State"),
                      { name := Domain.Vocabulary.mapping }] },
                 { name := "owners"
                   type := .primitive .string
                   list := true }]
              operations :=
                [{ name := "onlyKnown"
                   parameters :=
                     [{ name := "known"
                        type := .primitive .int
                        aspects := [mappingAspect (.integer 7) (.bool true)] }]
                   aspects := [{ name := Domain.Vocabulary.modifier }] },
                 { name := "move"
                   parameters := [{ name := "state", type := .complex "State" }] }] },
          .enumeration { name := "State", values := ["Open", "Closed"] },
          .struct
            { name := "Book"
              fields :=
                [{ name := "pages"
                   type := .complex "Book"
                   aspects := [mappingAspect (.string "State") (.string "uint")] }] }] } }

/-- What the diagram of the bank is compiled to. -/
def bankFragment : Target.SourceUnit :=
  { name := "Bank"
    license := ""
    pragma := ""
    definitions :=
      { contracts :=
          [{ name := "Bank"
             fields := [{ name := "log", type := .mapping (.named "uint") (.named "State") }]
             definitions := { functions := [{ name := "handle" }] } }] } }

/-- The mappings of a model, with enums resolved, and one that a diagram brings. -/
theorem run_keeps_mappings_bank :
    let compiler := Compiler.constant (some bankFragment)
    ∃ c,
      ({ lowerer := { compiler } } : Plan (Except Failure)).run [bankSource] default = .ok c ∧
      (c.units.flatMap fun u =>
          u.unit.definitions.contracts.flatMap fun k => k.fields.map Target.Field.type) =
        [.mapping (.named "address") (.enumeration "State"),
          .array (.named "string"),
          .mapping (.named "uint") (.enumeration "State")] ∧
      List.Forall₂
        (fun source u =>
          UnitKept (c.units.flatMap fun u => u.unit.enumerationNames) { source, compiler } u)
        [bankSource] c.units := by
  intro compiler
  exact ⟨_, rfl, by decide +kernel, run_keeps_mappings rfl⟩

end Pipeline
end ContractGen
