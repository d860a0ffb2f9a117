import ContractGen.Proofs.ImportClosure
import ContractGen.Proofs.LoweredUnits
import ContractGen.Proofs.UserFiles
import Mathlib.Data.List.Forall2

/-!
# Where the files of a run go

The path of a file is made of the name of a contract, or of the name of the model if the model has no
contract. The names of contracts have been checked when the model was loaded, the name of the model
has not. So the files of a run lie in the output folder itself, but for the file of a model without
contracts whose name has a slash in it.

* `serialize_path_cases`: where the path of a file comes from, in both layouts.
* `serialize_stays_inside`: which files of a run lie in the output folder itself.
-/

namespace ContractGen
namespace Generation

open Behavior Domain Files Lowering Target

/-! ## Paths of files -/

theorem Plain.exists_contract_of_mem
    {unit : SourceUnit} {cs : List Contract} {e : Entry}
    (h : e ∈ Plain.contractFiles unit cs) :
    ∃ c ∈ cs, e.path = ArtifactRole.generatedInterface.fileName c.name := by
  cases cs with
  | nil =>
      cases h
  | cons c cs =>
      rcases List.mem_cons.mp h with rfl | hlater
      · exact ⟨c, List.mem_cons_self, rfl⟩
      · obtain ⟨c', hc', rfl⟩ := List.mem_map.mp hlater
        exact ⟨c', List.mem_cons_of_mem c hc', rfl⟩

/-- In both layouts a file is named after a contract, or it is that of a unit without contracts. -/
theorem serialize_path_cases
    {s : Serializer}
    (hs : s ∈ builtinSerializers)
    {d : Disk} {folder : String} {u : LoweredUnit} {e : Entry}
    (he : e ∈ (s.serialize d folder u).files) :
    (∃ c ∈ u.unit.definitions.contracts, ∃ role : ArtifactRole, e.path = role.fileName c.name) ∨
      (u.unit.definitions.contracts = [] ∧ standaloneFile? u = some e) := by
  rw [builtinSerializers, List.mem_cons, List.mem_singleton] at hs
  rcases hs with rfl | rfl
  · replace he : e ∈ (Gap.serialize d folder u).files := he
    unfold Gap.serialize at he
    split at he
    · cases he
    · split at he
      · rename_i hempty
        exact Or.inr ⟨by simpa using hempty, by simpa using he⟩
      · obtain ⟨c, hc, role, hartifact⟩ := Gap.exists_contract_of_mem_layOut he
        exact Or.inl ⟨c, hc, role, hartifact.path⟩
  · replace he : e ∈ (Plain.serialize d folder u).files := he
    unfold Plain.serialize at he
    split at he
    · rename_i hempty
      exact Or.inr ⟨by simpa using hempty, by simpa using he⟩
    · obtain ⟨c, hc, hpath⟩ := Plain.exists_contract_of_mem he
      exact Or.inl ⟨c, hc, _, hpath⟩

theorem path_of_standaloneFile?
    {u : LoweredUnit} {e : Entry} {path : String}
    (h : standaloneFile? u = some e)
    (hpath : u.outputPath = some path) :
    e.path = path := by
  unfold standaloneFile? at h
  split at h
  · cases h
  · cases h
    simp [Entry.generated, hpath]

/-! ## Names that have been checked -/

theorem struct_name_mem_declaredNames
    {m : Model} {s : Domain.Structure}
    (h : s ∈ m.structures) :
    ⟨s.name, .struct⟩ ∈ m.declaredNames := by
  obtain ⟨t, ht, hs⟩ := List.mem_filterMap.mp h
  refine List.mem_flatMap.mpr ⟨t, ht, ?_⟩
  cases t with
  | struct s' =>
      cases hs
      exact List.mem_append_left _ List.mem_cons_self
  | enumeration e =>
      cases hs

/-- The contracts of a unit are named after structures of its model. -/
theorem exists_structure_of_mem_contracts
    {compiler : Option Compiler} {context : Pipeline.Context} {source : ModelSource} {c : Contract}
    (h : c ∈ (unitOf compiler context source).unit.definitions.contracts) :
    ∃ s ∈ source.model.structures, c.name = s.name := by
  rw [contracts_unitOf] at h
  obtain ⟨x, hx, rfl⟩ := List.mem_map.mp h
  refine ⟨x.1, List.mem_filterMap.mpr ⟨_, struct_mem_of_mem_sections hx, rfl⟩, ?_⟩
  rw [← name_sectionContract (aroundSource compiler context source) x]
  rfl

theorem contracts_unitOf_eq_nil_iff
    (compiler : Option Compiler)
    (context : Pipeline.Context)
    (source : ModelSource) :
    (unitOf compiler context source).unit.definitions.contracts = [] ↔
      ∀ s ∈ source.model.structures, classify s ≠ .contract := by
  rw [contracts_unitOf, List.map_eq_nil_iff, sections_eq_nil_iff]
  rfl

/-- The file of a model goes to the output folder itself, unless it is named after the model and that
name has a slash in it. -/
theorem isName_path_iff
    {fs : FileSystem} {source : ModelSource}
    (hsource : Model.load fs source.path = .ok source.model)
    (compiler : Option Compiler)
    (context : Pipeline.Context)
    {s : Serializer}
    (hs : s ∈ builtinSerializers)
    {d : Disk} {folder : String} {e : Entry}
    (he : e ∈ (s.serialize d folder (unitOf compiler context source)).files) :
    Disk.IsName e.path ↔
      ¬ ((∀ t ∈ source.model.structures, classify t ≠ .contract) ∧
        '/' ∈ source.model.name.toList) := by
  rw [← contracts_unitOf_eq_nil_iff compiler context source]
  rcases serialize_path_cases hs he with ⟨c, hc, role, hpath⟩ | ⟨hempty, hfile⟩
  · obtain ⟨t, ht, hname⟩ := exists_structure_of_mem_contracts hc
    have hchecked : nameFault? t.name = none :=
      nameFault?_of_load hsource (struct_name_mem_declaredNames ht)
    rw [hpath, hname, ArtifactRole.isName_fileName_iff]
    refine iff_of_true (slash_notMem_of_nameFault? hchecked) ?_
    rintro ⟨hnone, -⟩
    rw [hnone] at hc
    cases hc
  · have hpath : e.path = ArtifactRole.generatedInterface.fileName source.model.name :=
      path_of_standaloneFile? hfile rfl
    rw [hpath, ArtifactRole.isName_fileName_iff]
    simp [hempty]

/--
The files of a run on models that could be loaded, with their imports, in either layout. The file of
a model has a path that is a single name, and then lies in the output folder itself, if and only if
the model has a contract or there is no slash in its own name.
-/
theorem serialize_stays_inside
    {disk : Disk} {root : String} {sources : List ModelSource}
    (hsources : resolveModels disk root = .ok sources)
    (compiler : Option Compiler)
    (header : Header)
    {s : Serializer}
    (hs : s ∈ builtinSerializers)
    (d : Disk)
    (folder : String) :
    List.Forall₂
      (fun source u => ∀ e ∈ (s.serialize d folder u).files,
        (Disk.IsName e.path ↔
          ¬ ((∀ t ∈ source.model.structures, classify t ≠ .contract) ∧
            '/' ∈ source.model.name.toList)) ∧
        (Disk.IsName e.path →
          d.destination (e.fullPath folder) = d.destination folder ++ [e.path]))
      sources
      (Pipeline.lower { handlers := Handler.builtin, compiler }
        { models := sources, header }).units := by
  have hclosure := (resolveModels_eq_ok_iff.mp hsources).isImportClosure
  rw [lower_units, List.forall₂_map_right_iff, List.forall₂_same]
  intro source hsource e he
  refine ⟨isName_path_iff (hclosure.loaded source hsource).2 compiler _ hs he, ?_⟩
  intro hname
  exact d.destination_join folder hname

/-- A model with a contract. It imports one that has an enumeration and nothing else, and whose name
leads to another folder. -/
def escapingDisk : Disk :=
  { root := .folder
      [("vault.toml", .file
        ("name = \"Shop\"\nimports = [\"shared.toml\"]\n" ++
          "[[types]]\nkind = \"structure\"\nname = \"Vault\"\n" ++
          "[[types.aspects]]\nname = \"Solidity.ContractType\"\n" ++
          "properties.isContract = true\n").toUTF8),
        ("shared.toml", .file
          "name = \"../shared\"\n[[types]]\nkind = \"enumeration\"\nname = \"Phase\"\n".toUTF8),
        ("out", .folder [])] }

def vaultSource : ModelSource :=
  { path := "vault.toml"
    model :=
      { name := "Shop"
        imports := ["shared.toml"]
        types :=
          [.struct
            { name := "Vault"
              aspects :=
                [{ name := "Solidity.ContractType"
                   properties := [("isContract", .bool true)] }] }] } }

def escapingSource : ModelSource :=
  { path := "shared.toml"
    model := { name := "../shared", types := [.enumeration { name := "Phase" }] } }

theorem resolveModels_escaping :
    resolveModels escapingDisk "vault.toml" = .ok [vaultSource, escapingSource] := by
  have hvault : escapingDisk.canonicalize "vault.toml" = .ok ["vault.toml"] := by
    decide +kernel
  have hshared : escapingDisk.canonicalize "shared.toml" = .ok ["shared.toml"] := by
    decide +kernel
  have hnew : ∀ t ∈ [vaultSource], escapingDisk.canonicalize t.path ≠ .ok ["shared.toml"] := by
    decide +kernel
  have hstart : Explores escapingDisk "vault.toml" [] [vaultSource] :=
    .start hvault (by decide +kernel)
  have hnext : [] ++ [Link.mk vaultSource "shared.toml"] <+: links [vaultSource] :=
    List.prefix_rfl
  exact resolveModels_eq_ok_iff.mpr (.fresh hstart hnext hshared hnew (by decide +kernel))

theorem serialize_stays_inside_escaping :
    resolveModels escapingDisk "vault.toml" = .ok [vaultSource, escapingSource] ∧
      (∃ t ∈ vaultSource.model.structures, classify t = .contract) ∧
      (escapingSource.model.structures = [] ∧ '/' ∈ escapingSource.model.name.toList) ∧
      List.Forall₂
        (fun source u => ∀ e ∈ (Gap.serializer.serialize escapingDisk "out" u).files,
          (Disk.IsName e.path ↔
            ¬ ((∀ t ∈ source.model.structures, classify t ≠ .contract) ∧
              '/' ∈ source.model.name.toList)) ∧
          (Disk.IsName e.path →
            escapingDisk.destination (e.fullPath "out") =
              escapingDisk.destination "out" ++ [e.path]))
        [vaultSource, escapingSource]
        (Pipeline.lower { handlers := Handler.builtin }
          { models := [vaultSource, escapingSource] }).units :=
  ⟨resolveModels_escaping,
    by decide +kernel,
    by decide,
    serialize_stays_inside resolveModels_escaping none default (by simp [builtinSerializers])
      escapingDisk "out"⟩

/-- A file of a run can lie outside the output folder. -/
theorem not_serialize_stays_inside :
    ¬ ∀ (disk : Disk) (root : String) (sources : List ModelSource),
      resolveModels disk root = .ok sources →
      ∀ (compiler : Option Compiler) (header : Header), ∀ s ∈ builtinSerializers,
      ∀ (d : Disk) (folder : String),
      ∀ u ∈ (Pipeline.lower { handlers := Handler.builtin, compiler }
        { models := sources, header }).units,
      ∀ e ∈ (s.serialize d folder u).files, Disk.IsName e.path := by
  intro h
  have hnames := h escapingDisk "vault.toml" [vaultSource, escapingSource] resolveModels_escaping
    none default Gap.serializer (by simp [builtinSerializers]) escapingDisk "out"
  exact absurd hnames (by decide +kernel)

end Generation
end ContractGen
