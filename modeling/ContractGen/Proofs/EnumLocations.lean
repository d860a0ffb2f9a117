import ContractGen.Proofs.LoweredUnits
import ContractGen.Proofs.PrintedTrees
import ContractGen.Proofs.UnitLayout

/-!
# Enums in the files of a run

The values of an enum take no data location. The files that are generated know all enums of the run,
because the units have been resolved together. The implementation for the user to start from is made
of what the user declares, and that is read with the enums of its own unit only. So an enum of
another unit of the run keeps a data location in it, and so does an enum that only the user declares
in the files that are generated.

* `passesByValue_interfaceUnit`, `passesByValue_baseUnit`: a generated file passes no more than the
  unit does.
* `passesByValue_implUnit_iff`: what the implementation for the user passes by value.
* `printedFiles_passesByValue`: which enums each file of a run passes by value.
-/

namespace ContractGen
namespace Generation
namespace Gap

open Behavior Files Lowering Target

/-! ## Generated files -/

section Generated

variable {α : Type} {f : Function → List α} {g : Modifier → List α}
  {unit : SourceUnit} {c : Contract}

theorem gather_functions
    (functions : List Function)
    (structures : List Structure) :
    Definitions.gather f g { functions, structures } = functions.flatMap f := by
  simp [Definitions.gather, Contract.listGather, Interface.listGather]

theorem gather_contract
    (k : Contract) :
    Definitions.gather f g { contracts := [k] } = k.definitions.gather f g := by
  obtain ⟨name, isAbstract, parents, implements, fields, definitions⟩ := k
  simp [Definitions.gather, Contract.listGather, Interface.listGather]

theorem gather_contract_subset
    (hc : c ∈ unit.definitions.contracts) :
    c.definitions.gather f g ⊆ unit.definitions.gather f g := by
  intro x hx
  exact (mem_gather_iff f g).mpr (Or.inr (Or.inr (Or.inl ⟨c, hc, hx⟩)))

theorem gather_fileLevel_subset
    (d : Definitions) :
    (fileLevel d).gather f g ⊆ d.gather f g := by
  intro x hx
  rw [mem_gather_iff] at hx ⊢
  rcases hx with hx | hx | ⟨_, hnone, _⟩ | hx
  · exact Or.inl hx
  · exact Or.inr (Or.inl hx)
  · cases hnone
  · exact Or.inr (Or.inr (Or.inr hx))

theorem gather_around_subset
    {around : Option Definitions}
    (haround : around ∈ [sharedDefinitions? unit, none]) :
    (around.getD {}).gather f g ⊆ unit.definitions.gather f g := by
  rw [List.mem_cons, List.mem_singleton] at haround
  rcases haround with rfl | rfl
  · rw [getD_sharedDefinitions?]
    exact gather_fileLevel_subset unit.definitions
  · exact List.nil_subset _

/-- One more interface adds what is in it. -/
theorem mem_gather_concat
    {x : α} {d : Definitions} {i : Interface} :
    x ∈ Definitions.gather f g { d with interfaces := d.interfaces ++ [i] } ↔
      x ∈ d.gather f g ∨ x ∈ i.definitions.gather f g := by
  rw [mem_gather_iff, mem_gather_iff f g (d := d)]
  simp only [List.mem_append, List.mem_singleton, or_and_right, exists_or, exists_eq_left,
    or_assoc]

theorem gather_interfaceUnit_subset
    (hf : ∀ x, f (declared x) = f x)
    (hc : c ∈ unit.definitions.contracts)
    {around : Option Definitions}
    (haround : around ∈ [sharedDefinitions? unit, none])
    (user : Option Interface) :
    (interfaceUnit unit c user around).definitions.gather f g ⊆ unit.definitions.gather f g := by
  intro x hx
  rcases mem_gather_concat.mp hx with hshared | hinterface
  · exact gather_around_subset haround hshared
  · rw [gather_functions] at hinterface
    obtain ⟨y, hy, hx⟩ := List.mem_flatMap.mp hinterface
    obtain ⟨z, hz, rfl⟩ := List.mem_map.mp hy
    refine gather_contract_subset hc ((mem_gather_iff f g).mpr (Or.inl ⟨z, ?_, hf z ▸ hx⟩))
    exact List.mem_of_mem_filter hz

theorem gather_baseUnit_subset
    (hf : ∀ hasImpl x, f (implemented hasImpl x) = f x)
    (hg : ∀ x statements, g { x with statements } = g x)
    (hc : c ∈ unit.definitions.contracts)
    (hasImpl : Bool) :
    (baseUnit unit c hasImpl).definitions.gather f g ⊆ unit.definitions.gather f g := by
  intro x hx
  refine gather_contract_subset hc ?_
  change x ∈ Definitions.gather f g { contracts := [_] } at hx
  rw [gather_contract, mem_gather_iff] at hx
  rw [mem_gather_iff]
  refine hx.imp ?_ (Or.imp_left ?_)
  · rintro ⟨y, hy, hx⟩
    obtain ⟨z, hz, rfl⟩ := List.mem_map.mp hy
    exact ⟨z, hz, hf hasImpl z ▸ hx⟩
  · rintro ⟨y, hy, hx⟩
    obtain ⟨z, hz, rfl⟩ := List.mem_map.mp hy
    exact ⟨z, hz, hg z _ ▸ hx⟩

theorem gather_implUnit
    (hf : ∀ x, f (overriding x) = f x)
    (contract : String)
    (i : Interface) :
    (implUnit unit contract i).definitions.gather f g = i.definitions.functions.flatMap f := by
  show Definitions.gather f g { contracts := [_] } = _
  rw [gather_contract, gather_functions, List.flatMap_map]
  exact List.flatMap_congr fun x _ => hf x

end Generated

/-- A generated interface passes what its unit passes. -/
theorem passesByValue_interfaceUnit
    {enums : List String} {unit : SourceUnit} {c : Contract}
    (h : PassesByValue enums unit.definitions)
    (hc : c ∈ unit.definitions.contracts)
    {around : Option Definitions}
    (haround : around ∈ [sharedDefinitions? unit, none])
    (user : Option Interface) :
    PassesByValue enums (interfaceUnit unit c user around).definitions :=
  h.mono (fun _ => id)
    (gather_interfaceUnit_subset (fun _ => rfl) hc haround user)
    (gather_interfaceUnit_subset (fun _ => rfl) hc haround user)

/-- A base implementation passes what its unit passes. -/
theorem passesByValue_baseUnit
    {enums : List String} {unit : SourceUnit} {c : Contract}
    (h : PassesByValue enums unit.definitions)
    (hc : c ∈ unit.definitions.contracts)
    (hasImpl : Bool) :
    PassesByValue enums (baseUnit unit c hasImpl).definitions :=
  h.mono (fun _ => id)
    (gather_baseUnit_subset (fun _ _ => rfl) (fun _ _ => rfl) hc hasImpl)
    (gather_baseUnit_subset (fun _ _ => rfl) (fun _ _ => rfl) hc hasImpl)

/-! ## The implementation of the user -/

/-- The implementation for the user passes what the functions of the user's interface pass. -/
theorem passesByValue_implUnit_iff
    {enums : List String} (unit : SourceUnit) (contract : String) (i : Interface) :
    PassesByValue enums (implUnit unit contract i).definitions ↔
      PassesByValue enums { functions := i.definitions.functions } := by
  have himpl : ∀ {α : Type} (f : Function → List α) (g : Modifier → List α),
      (∀ x, f (overriding x) = f x) →
      (implUnit unit contract i).definitions.gather f g =
        Definitions.gather f g { functions := i.definitions.functions } := by
    intro α f g hf
    rw [gather_implUnit hf, gather_functions]
  exact passesByValue_congr (himpl _ _ fun _ => rfl) (himpl _ _ fun _ => rfl)

/-- A file that could be read passes the enums that it declares by value. -/
theorem passesByValue_of_parseFile
    {d : Disk} {path : String} {file : SourceUnit}
    (h : Source.parseFile d path = .ok file) :
    PassesByValue file.enumerationNames file.definitions := by
  unfold Source.parseFile at h
  split at h
  · cases h
  · split at h
    · cases h
    · rename_i hparse
      cases h
      obtain ⟨lexemes, -, hrest⟩ := bind_eq_ok_iff.mp hparse
      obtain ⟨unit, -, hunit⟩ := bind_eq_ok_iff.mp hrest
      cases hunit
      rw [SourceUnit.resolveOwnEnumerations, SourceUnit.enumerationNames_resolveEnumerations]
      exact unit.passesByValue_resolveEnumerations unit.enumerationNames

/-- The user's interface is the first one of the file, with the given enums resolved. -/
theorem exists_file_of_probe
    {d : Disk} {folder contract : String} {enums : List String} {user : UserFiles} {i : Interface}
    (h : probe d folder contract enums = .ok user)
    (hi : i ∈ user.interface) :
    ∃ file j,
      Source.parseFile d (ArtifactRole.userInterface.pathIn folder contract) = .ok file ∧
      j ∈ file.definitions.interfaces.head? ∧
      i = j.mapTypes (.resolve enums) := by
  obtain ⟨interface, hinterface, hok⟩ := bind_eq_ok_iff.mp h
  cases hok
  unfold readInterface at hinterface
  dsimp only at hinterface
  split at hinterface
  · split at hinterface
    · cases hinterface
    · rename_i file hparse
      cases hinterface
      change i ∈ (file.definitions.mapTypes (.resolve enums)).interfaces.head? at hi
      rw [Definitions.interfaces_mapTypes, List.head?_map, Option.mem_def,
        Option.map_eq_some_iff] at hi
      obtain ⟨j, hj, rfl⟩ := hi
      exact ⟨file, j, hparse, hj, rfl⟩
  · cases hinterface
    cases hi

/-- What the implementation for the user passes by value: the enums of its unit, and beyond them
what the user's own interface passes by value. -/
theorem passesByValue_of_probe
    {d : Disk} {folder contract : String} {unit : SourceUnit} {user : UserFiles} {i : Interface}
    (h : probe d folder contract unit.enumerationNames = .ok user)
    (hi : i ∈ user.interface) :
    ∃ file j,
      Source.parseFile d (ArtifactRole.userInterface.pathIn folder contract) = .ok file ∧
      j ∈ file.definitions.interfaces.head? ∧
      PassesByValue (unit.enumerationNames ++ file.enumerationNames)
        (implUnit unit contract i).definitions ∧
      ∀ names,
        PassesByValue names (implUnit unit contract i).definitions ↔
          PassesByValue (names.filter (· ∉ unit.enumerationNames))
            { functions := j.definitions.functions } := by
  obtain ⟨file, j, hparse, hj, rfl⟩ := exists_file_of_probe h hi
  have hfunctions : ∀ {α : Type} (f : Function → List α) (g : Modifier → List α),
      Definitions.gather f g { functions := j.definitions.functions } ⊆
        file.definitions.gather f g := by
    intro α f g x hx
    rw [gather_functions] at hx
    have hinner : x ∈ j.definitions.gather f g :=
      (mem_gather_iff f g).mpr (Or.inl (List.mem_flatMap.mp hx))
    exact (mem_gather_iff f g).mpr
      (Or.inr (Or.inr (Or.inr ⟨j, List.mem_of_mem_head? hj, hinner⟩)))
  have hresolved :
      ({ functions := (j.mapTypes (.resolve unit.enumerationNames)).definitions.functions } :
        Definitions) =
      Definitions.mapTypes (.resolve unit.enumerationNames)
        { functions := j.definitions.functions } := by
    obtain ⟨name, parents, definitions⟩ := j
    cases definitions
    rfl
  -- The file has been resolved with its own enums when it was read, and then with those of the unit.
  refine ⟨file, j, hparse, hj, ?_, ?_⟩
  · rw [passesByValue_implUnit_iff, hresolved]
    exact passesByValue_resolve
      ((passesByValue_of_parseFile hparse).mono (fun _ => id) (hfunctions _ _) (hfunctions _ _)) _
  · intro names
    rw [passesByValue_implUnit_iff, hresolved, passesByValue_resolve_iff]

/-! ## The files of a run -/

/--
The files of a run, each with the tree that it is the text of. A generated file passes every enum of
the run by value. The implementation that is made for the user passes by value the enums of its own
unit and those that the user declares. Any other enum it passes as the user's interface does in the
file it is read from, and there an enum of another unit is not known to be one.
-/
theorem printedFiles_passesByValue
    (compiler : Option Compiler)
    (context : Pipeline.Context)
    (d : Disk)
    (folder : String)
    {u : LoweredUnit}
    (hu : u ∈ (Pipeline.lower { handlers := Handler.builtin, compiler } context).units) :
    let units := (Pipeline.lower { handlers := Handler.builtin, compiler } context).units
    (printedFiles d folder u).map PrintedFile.entry = (serializer.serialize d folder u).files ∧
    ∀ x ∈ printedFiles d folder u,
      (x.entry.role ≠ some .userImpl →
        PassesByValue (units.flatMap fun v => v.unit.enumerationNames) x.tree.definitions) ∧
      (x.entry.role = some .userImpl →
        ∃ c ∈ u.unit.definitions.contracts, ∃ file j,
          IsArtifactOf x.entry .userImpl c.name ∧
          Source.parseFile d (ArtifactRole.userInterface.pathIn folder c.name) = .ok file ∧
          j ∈ file.definitions.interfaces.head? ∧
          PassesByValue (u.unit.enumerationNames ++ file.enumerationNames) x.tree.definitions ∧
          ∀ names,
            PassesByValue names x.tree.definitions ↔
              PassesByValue (names.filter (· ∉ u.unit.enumerationNames))
                { functions := j.definitions.functions }) := by
  intro units
  have hunit :
      PassesByValue (units.flatMap fun v => v.unit.enumerationNames) u.unit.definitions := by
    rw [flatMap_enumerationNames_units]
    rw [lower_units] at hu
    obtain ⟨source, -, rfl⟩ := List.mem_map.mp hu
    exact SourceUnit.passesByValue_resolveEnumerations _ _
  refine ⟨map_entry_printedFiles d folder u, ?_⟩
  intro x hx
  rcases printedFiles_cases hx with ⟨htree, hrole⟩ | ⟨c, hc, user, hprobe, around, haround, hx⟩
  · rw [htree, hrole]
    exact ⟨fun _ => hunit, nofun⟩
  · rcases printedContract_cases hx with rfl | rfl | ⟨hartifact, i, hi, htree⟩
    · exact ⟨fun _ => passesByValue_interfaceUnit hunit hc haround user.interface, nofun⟩
    · exact ⟨fun _ => passesByValue_baseUnit hunit hc user.hasImpl, nofun⟩
    · obtain ⟨file, j, hparse, hj, hown, hother⟩ := passesByValue_of_probe hprobe hi
      refine ⟨fun hrole => absurd hartifact.role hrole, fun _ => ?_⟩
      rw [htree]
      exact ⟨c, hc, file, j, hartifact, hparse, hj, hown, hother⟩

/-- A contract that uses a type of the user, and a model with an enumeration that it imports. -/
def sharedContext : Pipeline.Context :=
  { models :=
      [{ path := "vault.json"
         model :=
           { name := "M"
             imports := ["shared.json"]
             types :=
               [.struct
                 { Domain.contractStructure "Vault" with
                   operations :=
                     [{ name := "setMode"
                        parameters := [{ name := "next", type := .complex "Mode" }] }] }] } },
        { path := "shared.json"
          model := { name := "Shared", types := [.enumeration { name := "Phase" }] } }] }

/-- Declarations of the user: an enum, and a function that uses the other one. -/
def sharedDisk : Disk :=
  { root := .folder
      [("out", .folder
        [("VaultBase.sol", .file
          ("enum Mode \x7b \x7d\ninterface Extras \x7b\n" ++
            "    function phase() external returns (Phase);\n\x7d\n").toUTF8)])] }

def sharedUnits : List LoweredUnit :=
  (Pipeline.lower { handlers := Handler.builtin } sharedContext).units

instance (e : Entry) (role : ArtifactRole) (contract : String) :
    Decidable (IsArtifactOf e role contract) :=
  decidable_of_iff
    (e.path = role.fileName contract ∧
      e.overwrite = (if role.isUserOwned then .ifMissing else .always) ∧ e.role = some role)
    ⟨fun ⟨hpath, hoverwrite, hrole⟩ => ⟨hpath, hoverwrite, hrole⟩,
      fun h => ⟨h.path, h.overwrite, h.role⟩⟩

/-- Both enums are taken for types with a data location. -/
theorem printedFiles_shared :
    ∃ u ∈ sharedUnits, ∃ c ∈ u.unit.definitions.contracts, c.name = "Vault" ∧
      (∃ x ∈ printedFiles sharedDisk "out" u, IsArtifactOf x.entry .userImpl c.name ∧
        ∃ t ∈ x.tree.definitions.returns, "Phase" ∈ t.plainNames) ∧
      ∃ x ∈ printedFiles sharedDisk "out" u, IsArtifactOf x.entry .generatedInterface c.name ∧
        ∃ p ∈ x.tree.definitions.parameters, "Mode" ∈ p.type.plainNames := by
  decide +kernel

theorem parseFile_shared :
    ∃ file,
      Source.parseFile sharedDisk (ArtifactRole.userInterface.pathIn "out" "Vault") = .ok file ∧
      file.enumerationNames = ["Mode"] := by
  have henums :
      (Source.parseFile sharedDisk (ArtifactRole.userInterface.pathIn "out" "Vault")).toOption.map
        SourceUnit.enumerationNames = some ["Mode"] := by
    decide +kernel
  cases hparse : Source.parseFile sharedDisk (ArtifactRole.userInterface.pathIn "out" "Vault") with
  | error f =>
      rw [hparse] at henums
      cases henums
  | ok file =>
      rw [hparse] at henums
      exact ⟨file, rfl, Option.some.inj henums⟩

theorem printedFiles_passesByValue_shared :
    ∃ u ∈ sharedUnits, ∃ x ∈ printedFiles sharedDisk "out" u,
      x.entry.role = some .userImpl ∧
      ∃ file,
        Source.parseFile sharedDisk (ArtifactRole.userInterface.pathIn "out" "Vault") = .ok file ∧
        file.enumerationNames = ["Mode"] ∧
        PassesByValue file.enumerationNames x.tree.definitions := by
  obtain ⟨u, hu, c, -, hname, ⟨x, hx, hartifact, -⟩, -⟩ := printedFiles_shared
  obtain ⟨-, hfiles⟩ := printedFiles_passesByValue none sharedContext sharedDisk "out" hu
  obtain ⟨k, -, file, -, hartifact', hparse, -, hown, -⟩ := (hfiles x hx).2 hartifact.role
  have hk : k.name = "Vault" := by
    have hpath := hartifact'.path.symm.trans hartifact.path
    rw [ArtifactRole.fileName_inj_iff] at hpath
    simpa [ArtifactRole.definitionName, hname] using hpath
  obtain ⟨file', hparse', henums⟩ := parseFile_shared
  rw [hk, hparse'] at hparse
  cases hparse
  exact ⟨u, hu, x, hx, hartifact.role, _, hparse', henums,
    hown.mono (List.subset_append_right _ _) (fun _ => id) (fun _ => id)⟩

/-- An enum of another unit, and an enum of the user, can be passed with a data location. -/
theorem not_printedFiles_passesByValue :
    (¬ ∀ (compiler : Option Compiler) (context : Pipeline.Context) (d : Disk) (folder : String),
      let units := (Pipeline.lower { handlers := Handler.builtin, compiler } context).units
      ∀ u ∈ units, ∀ x ∈ printedFiles d folder u,
        PassesByValue (units.flatMap fun v => v.unit.enumerationNames) x.tree.definitions) ∧
    ¬ ∀ (compiler : Option Compiler) (context : Pipeline.Context) (d : Disk) (folder : String),
      let units := (Pipeline.lower { handlers := Handler.builtin, compiler } context).units
      ∀ u ∈ units, ∀ x ∈ printedFiles d folder u, ∀ c ∈ u.unit.definitions.contracts, ∀ role file,
        IsArtifactOf x.entry role c.name →
        Source.parseFile d (ArtifactRole.userInterface.pathIn folder c.name) = .ok file →
        PassesByValue file.enumerationNames x.tree.definitions := by
  obtain ⟨u, hu, c, hc, hname, ⟨x, hx, -, t, ht, hphase⟩, y, hy, hartifact, p, hp, hmode⟩ :=
    printedFiles_shared
  constructor
  · intro h
    have hreturns := (h none sharedContext sharedDisk "out" u hu x hx).returns t ht "Phase"
    exact hreturns (by decide +kernel) hphase
  · intro h
    obtain ⟨file, hparse, henums⟩ := parseFile_shared
    rw [← hname] at hparse
    have hfile := h none sharedContext sharedDisk "out" u hu y hy c hc _ file hartifact hparse
    exact hfile.parameters p hp "Mode" (by simp [henums]) hmode

end Gap
end Generation
end ContractGen
