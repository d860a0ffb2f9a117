import ContractGen.Proofs.LoweredUnits
import ContractGen.Proofs.MergedHeads
import ContractGen.Proofs.PrintedTrees
import ContractGen.Proofs.UnitLayout

/-!
# The types that a generated interface mentions

The file of a generated interface imports nothing, so the types in its signatures and structs have to
be declared in it or be known to the language. The structs of a contract move to its interface, and
the enumerations declared before the contract stand beside it in the same file. An enumeration that
is declared after the contract belongs to the contract, and it stays there: in the base
implementation.

* `Interface.typeNames`, `SourceUnit.declaredTypes`: the types that an interface mentions, and those
  that a file declares.
* `HasOneContract`, `UsesKnownTypes`: the models in question.
* `typeNames_soleContract`: where the types that its interface mentions come from.
* `interface_declares_types`: where they are declared.
-/

namespace ContractGen

/-! ## Types that are mentioned and declared -/

namespace Target

/-- The names in the types that a function takes and returns. -/
def Function.typeNames (f : Function) : List String :=
  f.parameters.flatMap (fun p => p.type.names) ++ f.returns.flatMap TypeExpr.names

/-- The names in the types of the members of a struct. -/
def Structure.typeNames (s : Structure) : List String :=
  s.fields.flatMap fun f => f.type.names

/-- The names in the signatures and the structs of an interface. -/
def Interface.typeNames (i : Interface) : List String :=
  i.definitions.functions.flatMap Function.typeNames ++
    i.definitions.structures.flatMap Structure.typeNames

/-- The names of the enums and structs among some definitions. -/
def Definitions.declaredTypes (d : Definitions) : List String :=
  d.enumerations.map Enumeration.name ++ d.structures.map Structure.name

/-- The names of the enums and structs that a file declares, outside and inside interfaces. -/
def SourceUnit.declaredTypes (unit : SourceUnit) : List String :=
  unit.definitions.declaredTypes ++
    unit.definitions.interfaces.flatMap fun i => i.definitions.declaredTypes

@[simp] theorem Function.typeNames_resolve
    (enums : List String)
    (f : Function) :
    (f.mapTypes (.resolve enums)).typeNames = f.typeNames := by
  simp [Function.typeNames, Function.mapTypes, Parameter.mapType, List.flatMap_map]

@[simp] theorem Structure.typeNames_resolve
    (enums : List String)
    (s : Structure) :
    (s.mapTypes (.resolve enums)).typeNames = s.typeNames := by
  simp [Structure.typeNames, Structure.mapTypes, LocalField.mapType, List.flatMap_map]

/-- Whether a type needs no declaration: it is elementary, or a primitive of the domain language. -/
def isBuiltinTypeName (name : String) : Bool :=
  isValueTypeName name || name ∈ ["string", "bytes"] || (Domain.Primitive.ofName? name).isSome

end Target

/-! ## Models with one contract -/

namespace Lowering

open Behavior Target
open Domain (ComplexType Model ModelSource)

/-- A model with one contract, declared after some types and before others. -/
structure HasOneContract (m : Model) (before : List ComplexType) (s : Domain.Structure)
    (after : List ComplexType) : Prop where
  types : m.types = before ++ .struct s :: after
  isContract : classify s = .contract
  others : ∀ t ∈ before ++ after, opensSection t = false

/-- The names in the types that an operation takes and returns. -/
def operationTypeNames (o : Domain.Operation) : List String :=
  o.parameters.flatMap (fun p => (mappedType p.type p.aspects).names) ++
    o.returns.toList.flatMap fun t => (plainType t).names

/-- The names in the operations of a contract that are not hidden, and in some structs. -/
def usedTypeNames (s : Domain.Structure) (structs : List Domain.Structure) : List String :=
  (s.operations.filter fun o => !o.hidden).flatMap operationTypeNames ++
    structs.flatMap fun t => t.fields.flatMap fun f => (fieldType f).names

/-- What a contract with its structs uses is built in, one of these structs, or an enumeration. -/
def UsesKnownTypes (before : List ComplexType) (s : Domain.Structure)
    (after : List ComplexType) : Prop :=
  ∀ n ∈ usedTypeNames s (structuresOf .struct after),
    isBuiltinTypeName n = true ∨
    n ∈ (structuresOf .struct after).map Domain.Structure.name ∨
    n ∈ (enumerationsOf (before ++ after)).map Enumeration.name

instance (before : List ComplexType) (s : Domain.Structure) (after : List ComplexType) :
    Decidable (UsesKnownTypes before s after) :=
  inferInstanceAs (Decidable (∀ n ∈ usedTypeNames s _, _))

theorem enumerationsOf_append
    (before after : List ComplexType) :
    enumerationsOf (before ++ after) = enumerationsOf before ++ enumerationsOf after := by
  simp [enumerationsOf, List.filterMap_append]

/-- Types that open no section, put in front, leave the sections as they are. -/
theorem sections_append_of_not_opens
    {before : List ComplexType}
    (h : ∀ t ∈ before, opensSection t = false)
    (types : List ComplexType) :
    sections (before ++ types) = sections types := by
  induction before with
  | nil =>
      rfl
  | cons t before ih =>
      rw [List.cons_append, sections_cons_of_not_opens (h t List.mem_cons_self)]
      exact ih fun t' ht' => h t' (List.mem_cons_of_mem t ht')

theorem leading_append_of_not_opens
    {before : List ComplexType}
    (h : ∀ t ∈ before, opensSection t = false)
    (types : List ComplexType) :
    leading (before ++ types) = before ++ leading types := by
  refine List.takeWhile_append_of_pos ?_
  intro t ht
  simp [h t ht]

section OneContract

variable {m : Model} {before after : List ComplexType} {s : Domain.Structure}
  (h : HasOneContract m before s after)

include h

theorem HasOneContract.leading_eq :
    leading m.types = before := by
  have hbefore : ∀ t ∈ before, opensSection t = false :=
    fun t ht => h.others t (List.mem_append_left after ht)
  have hopens : opensSection (.struct s) = true := by
    simp [opensSection, h.isContract]
  rw [h.types, leading_append_of_not_opens hbefore, leading_cons_of_opens hopens, List.append_nil]

/-- A model with one contract has one section. -/
theorem HasOneContract.sections_eq :
    sections m.types = [(s, after)] := by
  have hbefore : ∀ t ∈ before, opensSection t = false :=
    fun t ht => h.others t (List.mem_append_left after ht)
  have hafter : ∀ t ∈ after, opensSection t = false :=
    fun t ht => h.others t (List.mem_append_right before ht)
  have hleading : leading after = after := by
    simpa [leading] using leading_append_of_not_opens hafter []
  have hsections : sections after = [] := by
    simpa [sections] using sections_append_of_not_opens hafter []
  rw [h.types, sections_append_of_not_opens hbefore, sections_cons_of_contract h.isContract,
    hleading, hsections]

end OneContract

theorem same_of_head_eq
    {f g : Function}
    (h : head f = head g) :
    f.typeNames = g.typeNames ∧ f.isExposed = g.isExposed := by
  have hnames : (head f).typeNames = (head g).typeNames := by
    rw [h]
  have hexposed : (head f).isExposed = (head g).isExposed := by
    rw [h]
  exact ⟨hnames, hexposed⟩

/-- The functions a diagram adds mention built-in types only. -/
theorem isBuiltinTypeName_of_mem_diagramHeads
    {chart? : Option Statechart} {f : Function}
    (h : head f ∈ diagramHeads chart?) :
    ∀ n ∈ f.typeNames, isBuiltinTypeName n = true := by
  obtain ⟨chart, -, hf⟩ := List.mem_flatMap.mp h
  rw [List.mem_cons, List.mem_singleton] at hf
  rcases hf with hdispatcher | hcomparison
  · have hnames : f.typeNames = ["string"] := (same_of_head_eq hdispatcher).1
    rw [hnames]
    decide
  · have hnames : f.typeNames = ["string", "string", "bool"] := (same_of_head_eq hcomparison).1
    rw [hnames]
    decide

/-- An exposed callable comes from a visible operation and mentions the types of that operation. -/
theorem typeNames_callable
    {o : Domain.Operation} {f : Function}
    (h : (callable o).function? = some f)
    (hexposed : f.isExposed = true) :
    o.hidden = false ∧ f.typeNames = operationTypeNames o := by
  unfold callable at h
  split at h
  · cases h
  · cases h
    refine ⟨?_, by simp [Function.typeNames, operationTypeNames, parameter, List.flatMap_map]⟩
    cases hhidden : o.hidden with
    | false =>
        rfl
    | true =>
        simp [Function.isExposed, memberVisibility, hhidden, Visibility.isExposed] at hexposed

/-- The functions of a contract that can be called from outside come from operations that are not
hidden, or from its diagram. -/
theorem typeNames_contractOf
    {around : Surroundings} {diagrams : Option Files.Disk}
    (h : around.compiler = diagrams.map Compiler.onDisk)
    {s : Domain.Structure} {f : Function}
    (hf : f ∈ (contractOf around s).functions)
    (hexposed : f.isExposed = true) :
    (∃ o ∈ s.operations, o.hidden = false ∧ f.typeNames = operationTypeNames o) ∨
      ∀ n ∈ f.typeNames, isBuiltinTypeName n = true := by
  obtain ⟨chart?, hheads⟩ := map_head_contractOf h s
  have hhead : head f ∈ (contract s).functions.map head ++ diagramHeads chart? := by
    rw [← hheads]
    exact List.mem_map_of_mem hf
  rcases List.mem_append.mp hhead with hown | hdiagram
  · obtain ⟨g, hg, hgf⟩ := List.mem_map.mp hown
    obtain ⟨o, ho, hcallable⟩ := List.mem_filterMap.mp hg
    obtain ⟨hnames, hsame⟩ := same_of_head_eq hgf
    rw [← hsame] at hexposed
    obtain ⟨hhidden, hoperation⟩ := typeNames_callable hcallable hexposed
    exact Or.inl ⟨o, ho, hhidden, hnames.symm.trans hoperation⟩
  · exact Or.inr (isBuiltinTypeName_of_mem_diagramHeads hdiagram)

theorem declaredTypes_contractOf
    (around : Surroundings)
    (s : Domain.Structure) :
    (contractOf around s).definitions.structures = [] ∧
      (contractOf around s).definitions.enumerations = [] := by
  obtain ⟨-, fields, functions, hc⟩ := contractResponse_output around s
  rw [hc]
  exact ⟨rfl, rfl⟩

section Unit

variable (compiler : Option Compiler) (context : Pipeline.Context) (source : ModelSource)
  (s : Domain.Structure) (after : List ComplexType)

/-- The contract of a model that has only one. -/
def soleContract : Contract :=
  (sectionContract (aroundSource compiler context source) (s, after)).mapTypes
    (.resolve (runEnums compiler context))

theorem name_soleContract :
    (soleContract compiler context source s after).name = s.name :=
  name_sectionContract (aroundSource compiler context source) (s, after)

theorem functions_soleContract :
    (soleContract compiler context source s after).functions =
      (contractOf (aroundSource compiler context source) s).functions.map
        (Function.mapTypes (.resolve (runEnums compiler context))) := by
  rfl

/--
The structs of the only contract are those declared after it, with their enumeration types marked.
-/
theorem structures_soleContract :
    (soleContract compiler context source s after).definitions.structures =
      (structuresOf .struct after).map fun t =>
        (struct t).mapTypes (.resolve (runEnums compiler context)) := by
  have hnone := (declaredTypes_contractOf (aroundSource compiler context source) s).1
  show ((contractOf (aroundSource compiler context source) s).definitions.structures ++
    (structuresOf .struct after).map struct).map _ = _
  rw [hnone, List.nil_append, List.map_map]
  rfl

theorem map_name_structures_soleContract :
    (soleContract compiler context source s after).definitions.structures.map Structure.name =
      (structuresOf .struct after).map Domain.Structure.name := by
  rw [structures_soleContract, List.map_map]
  rfl

/-- The enumerations of the only contract are those declared after it. -/
theorem enumerations_soleContract :
    (soleContract compiler context source s after).definitions.enumerations =
      enumerationsOf after := by
  have hnone := (declaredTypes_contractOf (aroundSource compiler context source) s).2
  show (contractOf (aroundSource compiler context source) s).definitions.enumerations ++
    enumerationsOf after = _
  rw [hnone, List.nil_append]

variable {s after} in
theorem definitions_unitOf
    {before : List ComplexType}
    (h : HasOneContract source.model before s after) :
    (unitOf compiler context source).unit.definitions =
      { contracts := [soleContract compiler context source s after]
        enumerations := enumerationsOf before } := by
  have hlowered : (loweredSource (aroundSource compiler context source)).unit.definitions =
      { contracts := [sectionContract (aroundSource compiler context source) (s, after)]
        enumerations := enumerationsOf before } := by
    show Definitions.mk _ _ _ _ _ _ _ _ = _
    rw [aroundSource, h.leading_eq, h.sections_eq]
    rfl
  show (loweredSource (aroundSource compiler context source)).unit.definitions.mapTypes _ = _
  rw [hlowered]
  rfl

end Unit

end Lowering

/-! ## The files of a contract without files of the user -/

namespace Generation
namespace Gap

open Behavior Files Lowering Target
open Domain (ComplexType ModelSource)

/-- A unit with one contract and no user interface prints two files: interface and base. -/
theorem printedFiles_of_one
    {d : Disk} {folder : String} {u : LoweredUnit} {c : Contract}
    (hfolder : d.isFolder folder = true)
    (hcontracts : u.unit.definitions.contracts = [c])
    (huser : d.isFile (ArtifactRole.userInterface.pathIn folder c.name) = false) :
    printedFiles d folder u =
      [.artifact .generatedInterface c.name
          (interfaceUnit u.unit c none (sharedDefinitions? u.unit)),
        .artifact .generatedBaseImpl c.name
          (baseUnit u.unit c (d.isFile (ArtifactRole.userImpl.pathIn folder c.name)))] := by
  have hprobe : probe d folder c.name u.unit.enumerationNames =
      .ok { hasImpl := d.isFile (ArtifactRole.userImpl.pathIn folder c.name) } := by
    simp [probe, readInterface, huser]
  rw [printedFiles, if_neg (by simp [hfolder]), if_neg (by simp [hcontracts]), hcontracts,
    printedContracts_cons, hprobe]
  rfl

/-- The interface in the file that is generated for a contract. -/
def interfaceOf (c : Contract) : Interface :=
  { name := ArtifactRole.generatedInterface.definitionName c.name
    definitions :=
      { functions := (c.functions.filter Function.isExposed).map declared
        structures := c.definitions.structures } }

/-- What stands beside the interface is what stands outside contracts in the unit. -/
theorem definitions_interfaceUnit
    (unit : SourceUnit)
    (c : Contract) :
    (interfaceUnit unit c none (sharedDefinitions? unit)).definitions =
      { fileLevel unit.definitions with
        interfaces := unit.definitions.interfaces ++ [interfaceOf c] } := by
  rw [← getD_sharedDefinitions?]
  show { (sharedDefinitions? unit).getD {} with
    interfaces := ((sharedDefinitions? unit).getD {}).interfaces ++ [interfaceOf c] } = _
  rw [getD_sharedDefinitions?]
  rfl

theorem interfaces_interfaceUnit
    {unit : SourceUnit}
    (h : unit.definitions.interfaces = [])
    (c : Contract) :
    (interfaceUnit unit c none (sharedDefinitions? unit)).definitions.interfaces =
      [interfaceOf c] := by
  rw [definitions_interfaceUnit]
  show unit.definitions.interfaces ++ [interfaceOf c] = _
  rw [h, List.nil_append]

/-- The interface file declares the file-level types of its unit and the structs of its contract. -/
theorem declaredTypes_interfaceUnit
    {unit : SourceUnit}
    (h : unit.definitions.interfaces = [])
    (c : Contract) :
    (interfaceUnit unit c none (sharedDefinitions? unit)).declaredTypes =
      unit.definitions.declaredTypes ++ c.definitions.structures.map Structure.name := by
  rw [SourceUnit.declaredTypes, definitions_interfaceUnit]
  simp [Definitions.declaredTypes, fileLevel, interfaceOf, h]

/-- What an interface mentions comes from its functions, and from the structs. -/
theorem typeNames_interfaceOf
    {c : Contract} {n : String}
    (h : n ∈ (interfaceOf c).typeNames) :
    (∃ f ∈ c.functions, f.isExposed = true ∧ n ∈ f.typeNames) ∨
      ∃ t ∈ c.definitions.structures, n ∈ t.typeNames := by
  rcases List.mem_append.mp h with hfunctions | hstructs
  · obtain ⟨g, hg, hn⟩ := List.mem_flatMap.mp hfunctions
    obtain ⟨f, hf, rfl⟩ := List.mem_map.mp hg
    obtain ⟨hf, hexposed⟩ := List.mem_filter.mp hf
    exact Or.inl ⟨f, hf, hexposed, hn⟩
  · exact Or.inr (List.mem_flatMap.mp hstructs)

/-- What the interface of the only contract of a model mentions is used by the model, or built in. -/
theorem typeNames_soleContract
    (diagrams : Option Disk)
    (context : Pipeline.Context)
    (source : ModelSource)
    {s : Domain.Structure} {after : List ComplexType} {n : String}
    (h : n ∈ (interfaceOf
      (soleContract (diagrams.map Compiler.onDisk) context source s after)).typeNames) :
    n ∈ usedTypeNames s (structuresOf .struct after) ∨ isBuiltinTypeName n = true := by
  rcases typeNames_interfaceOf h with ⟨f, hf, hexposed, hn⟩ | ⟨t, ht, hn⟩
  · rw [functions_soleContract] at hf
    obtain ⟨g, hg, rfl⟩ := List.mem_map.mp hf
    rw [Function.typeNames_resolve] at hn
    rcases typeNames_contractOf rfl hg hexposed with ⟨o, ho, hhidden, hnames⟩ | hbuiltin
    · refine Or.inl (List.mem_append_left _ (List.mem_flatMap.mpr ⟨o, ?_, hnames ▸ hn⟩))
      exact List.mem_filter.mpr ⟨ho, by simp [hhidden]⟩
    · exact Or.inr (hbuiltin n hn)
  · rw [structures_soleContract] at ht
    obtain ⟨t', ht', rfl⟩ := List.mem_map.mp ht
    rw [Structure.typeNames_resolve] at hn
    refine Or.inl (List.mem_append_right _ (List.mem_flatMap.mpr ⟨t', ht', ?_⟩))
    simpa [Structure.typeNames, struct, localField, List.flatMap_map] using hn

/-- Under the conditions on the model, each of these types is built in or declared by the model. -/
theorem typeNames_known
    (diagrams : Option Disk)
    (context : Pipeline.Context)
    (source : ModelSource)
    {before after : List ComplexType} {s : Domain.Structure} {n : String}
    (hused : UsesKnownTypes before s after)
    (h : n ∈ (interfaceOf
      (soleContract (diagrams.map Compiler.onDisk) context source s after)).typeNames) :
    isBuiltinTypeName n = true ∨
    n ∈ (enumerationsOf before).map Enumeration.name ++
      (structuresOf .struct after).map Domain.Structure.name ∨
    n ∈ (enumerationsOf after).map Enumeration.name := by
  rw [List.mem_append]
  rcases typeNames_soleContract diagrams context source h with huse | hbuiltin
  · rcases hused n huse with hbuiltin | hstruct | henum
    · exact Or.inl hbuiltin
    · exact Or.inr (Or.inl (Or.inr hstruct))
    · rw [enumerationsOf_append, List.map_append, List.mem_append] at henum
      exact Or.inr (henum.imp_left Or.inl)
  · exact Or.inl hbuiltin

theorem mem_zip_units
    {compiler : Option Compiler} {context : Pipeline.Context} {source : ModelSource}
    {u : LoweredUnit}
    (h : (source, u) ∈ context.models.zip
      (Pipeline.lower { handlers := Handler.builtin, compiler } context).units) :
    u = unitOf compiler context source := by
  rw [lower_units, ← List.map_prod_left_eq_zip] at h
  obtain ⟨source', -, heq⟩ := List.mem_map.mp h
  cases heq
  rfl

/--
The files of a model with one contract, whose operations and structs use nothing but built-in types,
these structs and enumerations of the model, if there are no declarations of the user. The interface
file imports nothing and declares the structs, in the interface, and those enumerations that stand
before the contract, outside it. All other types that its interface mentions are built in, or they
are enumerations that stand after the contract, and these are declared in the contract of the base
implementation.
-/
theorem interface_declares_types
    (diagrams : Option Disk)
    {context : Pipeline.Context} {source : ModelSource} {u : LoweredUnit}
    (hu : (source, u) ∈ context.models.zip
      (Pipeline.lower
        { handlers := Handler.builtin, compiler := diagrams.map Compiler.onDisk } context).units)
    {before after : List ComplexType} {s : Domain.Structure}
    (hmodel : HasOneContract source.model before s after)
    (hused : UsesKnownTypes before s after)
    (d : Disk)
    (folder : String)
    (hfolder : d.isFolder folder = true)
    (huser : d.isFile (ArtifactRole.userInterface.pathIn folder s.name) = false) :
    ∃ (interface base : PrintedFile) (i : Interface) (k : Contract),
      (serializer.serialize d folder u).files = [interface.entry, base.entry] ∧
      printedFiles d folder u = [interface, base] ∧
      IsArtifactOf interface.entry .generatedInterface s.name ∧
      IsArtifactOf base.entry .generatedBaseImpl s.name ∧
      interface.tree.imports = [] ∧
      interface.tree.definitions.interfaces = [i] ∧
      base.tree.definitions.contracts = [k] ∧
      interface.tree.definitions.structures = [] ∧
      interface.tree.definitions.enumerations = enumerationsOf before ∧
      i.definitions.structures.map Structure.name =
        (structuresOf .struct after).map Domain.Structure.name ∧
      i.definitions.enumerations = [] ∧
      interface.tree.declaredTypes =
        (enumerationsOf before).map Enumeration.name ++
          (structuresOf .struct after).map Domain.Structure.name ∧
      k.definitions.declaredTypes = (enumerationsOf after).map Enumeration.name ∧
      ∀ n ∈ i.typeNames,
        isBuiltinTypeName n = true ∨
        n ∈ interface.tree.declaredTypes ∨
        n ∈ k.definitions.declaredTypes := by
  cases mem_zip_units hu
  let compiler := diagrams.map Compiler.onDisk
  let c := soleContract compiler context source s after
  let unit := (unitOf compiler context source).unit
  have hdefinitions : unit.definitions =
      { contracts := [c], enumerations := enumerationsOf before } :=
    definitions_unitOf compiler context source hmodel
  have hcontracts : unit.definitions.contracts = [c] := by
    rw [hdefinitions]
  have hinterfaces : unit.definitions.interfaces = [] := by
    rw [hdefinitions]
  have hname : c.name = s.name := name_soleContract compiler context source s after
  have hfiles := printedFiles_of_one hfolder hcontracts (hname ▸ huser)
  have hentries := map_entry_printedFiles d folder (unitOf compiler context source)
  rw [hfiles] at hentries
  have hinterface : (interfaceUnit unit c none (sharedDefinitions? unit)).declaredTypes =
      (enumerationsOf before).map Enumeration.name ++
        (structuresOf .struct after).map Domain.Structure.name := by
    rw [declaredTypes_interfaceUnit hinterfaces, hdefinitions, map_name_structures_soleContract]
    simp [Definitions.declaredTypes]
  have hbase : c.definitions.enumerations.map Enumeration.name ++ [] =
      (enumerationsOf after).map Enumeration.name := by
    rw [enumerations_soleContract, List.append_nil]
  have hbeside := definitions_interfaceUnit unit c
  rw [hdefinitions] at hbeside
  refine ⟨_, _, interfaceOf c, _, hentries.symm, hfiles, hname ▸ isArtifactOf_artifact _ _ _,
    hname ▸ isArtifactOf_artifact _ _ _, rfl, interfaces_interfaceUnit hinterfaces c, rfl,
    congrArg Definitions.structures hbeside, congrArg Definitions.enumerations hbeside,
    map_name_structures_soleContract compiler context source s after, rfl, hinterface, hbase, ?_⟩
  intro n hn
  show _ ∨ n ∈ (interfaceUnit unit c none (sharedDefinitions? unit)).declaredTypes ∨
    n ∈ c.definitions.enumerations.map Enumeration.name ++ []
  rw [hinterface, hbase]
  exact typeNames_known diagrams context source hused hn

/-- A contract that uses an enumeration declared before it and one declared after it. -/
def ledgerContract : Domain.Structure :=
  { Domain.contractStructure "Ledger" with
    operations :=
      [{ name := "setMode", parameters := [{ name := "next", type := .complex "Mode" }] },
        { name := "latest", returns := some (.complex "Posting") },
        { name := "setPhase", parameters := [{ name := "next", type := .complex "Phase" }] }] }

def ledgerBefore : List ComplexType :=
  [.enumeration { name := "Mode" }]

def ledgerAfter : List ComplexType :=
  [.struct { name := "Posting", fields := [{ name := "amount", type := .primitive .int }] },
    .enumeration { name := "Phase" }]

def ledgerSource : ModelSource :=
  { path := "ledger.json"
    model := { name := "M", types := ledgerBefore ++ .struct ledgerContract :: ledgerAfter } }

def ledgerContext : Pipeline.Context :=
  { models := [ledgerSource] }

def ledgerUnit : LoweredUnit :=
  unitOf none ledgerContext ledgerSource

/-- An empty output folder. -/
def ledgerDisk : Disk :=
  { root := .folder [("out", .folder [])] }

theorem ledgerUnit_mem :
    (ledgerSource, ledgerUnit) ∈ ledgerContext.models.zip
      (Pipeline.lower { handlers := Handler.builtin } ledgerContext).units := by
  rw [lower_units]
  exact List.mem_singleton.mpr rfl

theorem ledger_hasOneContract :
    HasOneContract ledgerSource.model ledgerBefore ledgerContract ledgerAfter :=
  ⟨rfl, by decide +kernel, by decide +kernel⟩

theorem interface_declares_types_ledger :
    UsesKnownTypes ledgerBefore ledgerContract ledgerAfter ∧
    ∃ (interface base : PrintedFile) (i : Interface) (k : Contract),
      printedFiles ledgerDisk "out" ledgerUnit = [interface, base] ∧
      interface.tree.definitions.interfaces = [i] ∧
      base.tree.definitions.contracts = [k] ∧
      interface.tree.definitions.enumerations.map Enumeration.name = ["Mode"] ∧
      i.definitions.structures.map Structure.name = ["Posting"] ∧
      interface.tree.declaredTypes = ["Mode", "Posting"] ∧
      k.definitions.declaredTypes = ["Phase"] ∧
      ∀ n ∈ i.typeNames,
        isBuiltinTypeName n = true ∨
        n ∈ interface.tree.declaredTypes ∨
        n ∈ k.definitions.declaredTypes := by
  have hused : UsesKnownTypes ledgerBefore ledgerContract ledgerAfter := by
    decide +kernel
  obtain ⟨interface, base, i, k, -, hfiles, -, -, -, hi, hk, -, henums, hstructs, -, hinterface,
      hbase, hnames⟩ :=
    interface_declares_types none ledgerUnit_mem ledger_hasOneContract hused ledgerDisk "out"
      (by decide +kernel) (by decide +kernel)
  exact ⟨hused, interface, base, i, k, hfiles, hi, hk, by rw [henums]; rfl, hstructs, hinterface,
    hbase, hnames⟩

/-- The file of an interface can lack the declaration of an enumeration that it mentions. -/
theorem not_interface_declares_types :
    ¬ ∀ (diagrams : Option Disk) (context : Pipeline.Context) (source : ModelSource)
      (u : LoweredUnit),
      (source, u) ∈ context.models.zip
        (Pipeline.lower
          { handlers := Handler.builtin, compiler := diagrams.map Compiler.onDisk } context).units →
      ∀ (before after : List ComplexType) (s : Domain.Structure),
      HasOneContract source.model before s after →
      UsesKnownTypes before s after →
      ∀ (d : Disk) (folder : String), d.isFolder folder = true →
      d.isFile (ArtifactRole.userInterface.pathIn folder s.name) = false →
      d.isFile (ArtifactRole.userImpl.pathIn folder s.name) = false →
      ∀ x ∈ printedFiles d folder u, x.entry.role = some .generatedInterface →
      ∀ i ∈ x.tree.definitions.interfaces, ∀ n ∈ i.typeNames,
        isBuiltinTypeName n = true ∨ n ∈ x.tree.declaredTypes := by
  intro h
  have hledger := h none ledgerContext ledgerSource ledgerUnit ledgerUnit_mem
    ledgerBefore ledgerAfter ledgerContract ledger_hasOneContract (by decide +kernel)
    ledgerDisk "out" (by decide +kernel) (by decide +kernel) (by decide +kernel)
  exact absurd hledger (by decide +kernel)

end Gap
end Generation
end ContractGen
