import ContractGen.Generation.Generator
import ContractGen.Proofs.Names
import ContractGen.Proofs.Writing

/-!
# The user's files under regeneration

The layout of a run is made of files with a role for some contract, and of files for units without
contracts. The user's files are written only if nothing is there, all others always. So a file of
the user is in danger only from a generated file that happens to go to the same place. The main
result, `generate_user_file`, says which these are and what the file holds after the run.
-/

namespace ContractGen
namespace Generation

open Domain (nameFault?)
open Files Lowering Target

namespace Gap

/-- An entry for a role of a contract; it is always written unless the role is the user's. -/
structure IsArtifactOf (e : Entry) (role : ArtifactRole) (contract : String) : Prop where
  path : e.path = role.fileName contract
  overwrite : e.overwrite = if role.isUserOwned then .ifMissing else .always
  role : e.role = some role

theorem isArtifactOf_artifact
    (role : ArtifactRole)
    (contract content : String) :
    IsArtifactOf (.artifact role contract content) role contract := by
  refine ⟨rfl, ?_, rfl⟩
  cases role <;> rfl

theorem isArtifactOf_of_mem_contractFiles
    {unit : SourceUnit} {c : Contract} {user : UserFiles} {shared : Option Definitions} {e : Entry}
    (h : e ∈ contractFiles unit c user shared) :
    ∃ role, IsArtifactOf e role c.name := by
  rcases List.mem_append.mp h with hgenerated | himpl
  · rw [List.mem_cons, List.mem_singleton] at hgenerated
    rcases hgenerated with rfl | rfl
    · exact ⟨_, isArtifactOf_artifact _ _ _⟩
    · exact ⟨_, isArtifactOf_artifact _ _ _⟩
  · unfold implFile? at himpl
    split at himpl
    · rw [Option.toList_some, List.mem_singleton] at himpl
      subst himpl
      exact ⟨.userImpl, rfl, rfl, rfl⟩
    · cases himpl

/-- Stated by itself, because the equations that `rw` makes for `layOut` take long to make. -/
theorem layOut_cons
    (d : Disk)
    (folder : String)
    (unit : SourceUnit)
    (shared : Option Definitions)
    (c : Contract)
    (cs : List Contract) :
    layOut d folder unit shared (c :: cs) =
      match probe d folder c.name unit.enumerationNames with
      | .error f =>
        let later := layOut d folder unit shared cs
        { later with skipped := ⟨c.name, f.text⟩ :: later.skipped }
      | .ok user =>
        let later := layOut d folder unit none cs
        { later with files := contractFiles unit c user shared ++ later.files } := by
  rfl

/-- Every laid out file is an artifact of one of the contracts. -/
theorem exists_contract_of_mem_layOut
    {d : Disk} {folder : String} {unit : SourceUnit} {shared : Option Definitions}
    {cs : List Contract} {e : Entry}
    (h : e ∈ (layOut d folder unit shared cs).files) :
    ∃ c ∈ cs, ∃ role, IsArtifactOf e role c.name := by
  induction cs generalizing shared with
  | nil =>
      cases h
  | cons c cs ih =>
      rw [layOut_cons] at h
      split at h
      · obtain ⟨c', hc', hrole⟩ := ih h
        exact ⟨c', List.mem_cons_of_mem c hc', hrole⟩
      · rcases List.mem_append.mp h with hhere | hlater
        · exact ⟨c, List.mem_cons_self, isArtifactOf_of_mem_contractFiles hhere⟩
        · obtain ⟨c', hc', hrole⟩ := ih hlater
          exact ⟨c', List.mem_cons_of_mem c hc', hrole⟩

end Gap

/-- Whether an entry is the file of a unit without contracts. -/
def IsStandalone (e : Entry) (units : List LoweredUnit) : Prop :=
  ∃ u ∈ units, u.unit.definitions.contracts = [] ∧ standaloneFile? u = some e

theorem IsStandalone.role_and_overwrite
    {e : Entry} {units : List LoweredUnit}
    (h : IsStandalone e units) :
    e.role = none ∧ e.overwrite = .always := by
  obtain ⟨u, -, -, hfile⟩ := h
  unfold standaloneFile? at hfile
  split at hfile
  · cases hfile
  · cases hfile
    exact ⟨rfl, rfl⟩

/-- The preview has the files of every unit, and none without the folder. -/
theorem mem_preview_iff
    {s : Serializer} {d : Disk} {folder : String} {units : List LoweredUnit} {e : Entry} :
    e ∈ preview s d folder units ↔
      d.isFolder folder = true ∧ ∃ u ∈ units, e ∈ (s.serialize d folder u).files := by
  have hcategory : e.category = .generated ∨ e.category = .user := by
    cases e.category <;> simp
  unfold preview collect Registry.ordered
  split
  · rename_i hfolder
    simp only [List.mem_append, List.mem_filter, decide_eq_true_eq, ← and_or_left, hcategory,
      and_true, List.mem_flatMap, List.mem_map, hfolder, true_and]
    constructor
    · rintro ⟨_, ⟨u, hu, rfl⟩, he⟩
      exact ⟨u, hu, he⟩
    · rintro ⟨u, hu, he⟩
      exact ⟨_, ⟨u, hu, rfl⟩, he⟩
  · rename_i hfolder
    simp [hfolder]

/-- The files of a run: files with a role for a contract, and files of units without contracts. -/
theorem mem_preview_cases
    {d : Disk} {folder : String} {units : List LoweredUnit} {e : Entry}
    (h : e ∈ preview Gap.serializer d folder units) :
    (∃ u ∈ units, ∃ c ∈ u.unit.definitions.contracts, ∃ role, Gap.IsArtifactOf e role c.name) ∨
      IsStandalone e units := by
  obtain ⟨hfolder, u, hu, he⟩ := mem_preview_iff.mp h
  have hfiles : e ∈ (Gap.serialize d folder u).files := he
  unfold Gap.serialize at hfiles
  rw [if_neg (by simp [hfolder])] at hfiles
  split at hfiles
  · rename_i hempty
    refine Or.inr ⟨u, hu, by simpa using hempty, ?_⟩
    simpa using hfiles
  · exact Or.inl ⟨u, hu, Gap.exists_contract_of_mem_layOut hfiles⟩

section UserFile

variable {d : Disk} {folder : String} {units : List LoweredUnit}
  (hnames : ∀ u ∈ units, ∀ k ∈ u.unit.definitions.contracts, nameFault? k.name = none)
  {c : Contract} (hc : nameFault? c.name = none)
  {role : ArtifactRole} (hrole : role.isUserOwned = true)

include hnames hc

theorem fullPath_eq_of_ifMissing
    {e : Entry}
    (he : e ∈ preview Gap.serializer d folder units)
    (hrule : e.overwrite = .ifMissing)
    (hplace :
      d.destination (e.fullPath folder) = d.destination (role.pathIn folder c.name)) :
    e.fullPath folder = role.pathIn folder c.name := by
  rcases mem_preview_cases he with ⟨u, hu, k, hk, role', hartifact⟩ | hstandalone
  · have hname := role'.isName_fileName (hnames u hu k hk)
    rw [Entry.fullPath, hartifact.path] at hplace ⊢
    have heq := (d.destination_join_inj folder hname (role.isName_fileName hc)).mp hplace
    rw [heq, ArtifactRole.pathIn]
  · rw [hstandalone.role_and_overwrite.2] at hrule
    cases hrule

include hrole

/-- The files of a run that replace a file of the user. -/
theorem replaces_iff
    {e : Entry}
    (he : e ∈ preview Gap.serializer d folder units) :
    e.Replaces d folder (role.pathIn folder c.name) ↔
      (∃ u ∈ units, ∃ k ∈ u.unit.definitions.contracts, ∃ generated : ArtifactRole,
        e.role = some generated ∧
        e.path = generated.fileName k.name ∧
        generated.Clashes k.name role c.name) ∨
      (IsStandalone e units ∧
        d.destination (e.fullPath folder) = d.destination (role.pathIn folder c.name)) := by
  have hname := role.isName_fileName hc
  constructor
  · rintro ⟨halways, hplace⟩
    rcases mem_preview_cases he with ⟨u, hu, k, hk, generated, hartifact⟩ | hstandalone
    · have hgenerated : generated.isUserOwned = false := by
        have hrule := hartifact.overwrite
        rw [halways] at hrule
        cases hown : generated.isUserOwned with
        | false =>
            rfl
        | true =>
            simp [hown] at hrule
      rw [Entry.fullPath, hartifact.path] at hplace
      have hfile := (d.destination_join_inj folder
        (generated.isName_fileName (hnames u hu k hk)) hname).mp hplace
      have hclash := (ArtifactRole.fileName_eq_iff_clashes hgenerated hrole _ _).mp hfile
      exact Or.inl ⟨u, hu, k, hk, generated, hartifact.role, hartifact.path, hclash⟩
    · exact Or.inr ⟨hstandalone, hplace⟩
  · rintro (⟨u, hu, k, hk, generated, hgenerated, hpath, hclash⟩ | ⟨hstandalone, hplace⟩)
    · have hown := ArtifactRole.isUserOwned_eq_false_of_clashes hclash
      constructor
      · rcases mem_preview_cases he with ⟨_, _, _, _, _, hartifact⟩ | hstandalone
        · rw [hartifact.role] at hgenerated
          cases hgenerated
          simpa [hown] using hartifact.overwrite
        · exact hstandalone.role_and_overwrite.2
      · have hfile := (ArtifactRole.fileName_eq_iff_clashes hown hrole _ _).mpr hclash
        rw [Entry.fullPath, hpath, hfile, ArtifactRole.pathIn]
    · exact ⟨hstandalone.role_and_overwrite.2, hplace⟩

end UserFile

/-- What a run comes to that made the given files. -/
def Collected.report (collected : Collected) (stats : WriteStats) : Generated :=
  { written := stats.written
    kept := stats.skipped
    skippedUnits := collected.skippedUnits
    skippedContracts := collected.skippedContracts }

theorem generate_eq_ok_iff
    {s : Serializer} {d d' : Disk} {folder : String} {units : List LoweredUnit}
    {report : Generated} :
    generate s d folder units = (d', .ok report) ↔
      ∃ stats,
        writeEntries folder d {} (preview s d folder units) = (d', .ok stats) ∧
        report = (collect s d folder units).report stats := by
  constructor
  · intro h
    rw [generate] at h
    split at h
    · cases h
    · rename_i stats hwrite
      cases h
      exact ⟨stats, hwrite, rfl⟩
  · rintro ⟨stats, hwrite, rfl⟩
    have hall : (collect s d folder units).registry.writeAll folder d = (d', .ok stats) := hwrite
    rw [generate, hall]
    rfl

theorem writeEntries_of_generate
    {s : Serializer} {d d' : Disk} {folder : String} {units : List LoweredUnit}
    {report : Generated}
    (h : generate s d folder units = (d', .ok report)) :
    ∃ stats, writeEntries folder d {} (preview s d folder units) = (d', .ok stats) := by
  obtain ⟨stats, hwrite, -⟩ := generate_eq_ok_iff.mp h
  exact ⟨stats, hwrite⟩

/--
What a run leaves of a file of the user. It ends up with the bytes of the last generated file that
goes to the same place, so it is unchanged exactly if there is none or that file has the same bytes.
Such a file is the interface of a contract named like this one with the suffix of the user's file,
the base implementation of a contract whose name with `Base` is this one's, or the file of a unit
without contracts.
-/
theorem generate_user_file
    {d d' : Disk} {folder : String} {units : List LoweredUnit} {report : Generated}
    (hrun : generate Gap.serializer d folder units = (d', .ok report))
    (hnames : ∀ u ∈ units, ∀ k ∈ u.unit.definitions.contracts, nameFault? k.name = none)
    {u : LoweredUnit} (hu : u ∈ units)
    {c : Contract} (hc : c ∈ u.unit.definitions.contracts)
    (role : ArtifactRole) (hrole : role.isUserOwned = true)
    {bytes : ByteArray}
    (hfile : d.readBytes (role.pathIn folder c.name) = .ok bytes) :
    let path := role.pathIn folder c.name
    let entries := preview Gap.serializer d folder units
    d'.readBytes path = .ok (lastBytes bytes (replacing d folder path entries)) ∧
    (d'.readBytes path = .ok bytes ↔
      ∀ e ∈ (replacing d folder path entries).getLast?, e.content.toUTF8 = bytes) ∧
    ∀ e ∈ entries,
      (e ∈ replacing d folder path entries ↔
        (∃ u' ∈ units, ∃ k ∈ u'.unit.definitions.contracts, ∃ generated : ArtifactRole,
          e.role = some generated ∧
          e.path = generated.fileName k.name ∧
          generated.Clashes k.name role c.name) ∨
        (IsStandalone e units ∧ d.destination (e.fullPath folder) = d.destination path)) := by
  intro path entries
  have hname := hnames u hu c hc
  obtain ⟨stats, hwrite⟩ := writeEntries_of_generate hrun
  have hread := writeEntries_readBytes hwrite hfile
    fun e he => fullPath_eq_of_ifMissing hnames hname he
  refine ⟨hread, ?_, ?_⟩
  · rw [hread, Except.ok.injEq, lastBytes_eq_iff]
  · intro e he
    simp only [replacing, List.mem_filter, he, true_and, decide_eq_true_eq]
    exact replaces_iff hnames hname hrole he

/-- A folder with the user's declarations for a contract `A`. -/
def declaredDisk : Disk :=
  { root := .folder
      [("out", .folder
        [("ABase.sol",
          .file "interface ABase \x7b\n    function ping() external;\n\x7d\n".toUTF8)])] }

/-- The contract `A`, and a contract with the name of the user's declarations for it. -/
def clashingUnits : List LoweredUnit :=
  [{ unit :=
      { name := "M"
        license := "MIT"
        pragma := "^0.8.0"
        definitions :=
          { contracts :=
              [{ name := "A", definitions := {} }, { name := "ABase", definitions := {} }] } }
     origin := "m.json" }]

theorem generate_clashingUnits :
    (generate Gap.serializer declaredDisk "out" clashingUnits).2 =
      .ok { written :=
        ["A.sol", "ABaseImpl.sol", "ABase.sol", "ABaseBaseImpl.sol", "AImpl.sol"] } := by
  decide +kernel

/-- The declarations for `A` are replaced by the interface generated for `ABase`. -/
theorem generate_user_file_clashing :
    (generate Gap.serializer declaredDisk "out" clashingUnits).1.readBytes "out/ABase.sol" =
      .ok (lastBytes
        "interface ABase \x7b\n    function ping() external;\n\x7d\n".toUTF8
        (replacing declaredDisk "out" "out/ABase.sol"
          (preview Gap.serializer declaredDisk "out" clashingUnits))) :=
  (generate_user_file
    (Prod.ext rfl generate_clashingUnits)
    (by decide +kernel)
    (u := clashingUnits.head (by decide)) (by decide +kernel)
    (c := { name := "A", definitions := {} }) (by decide +kernel)
    .userInterface rfl
    (by decide +kernel)).1

/-- A file of the user can be overwritten. -/
theorem not_generate_keeps_user_files :
    ¬ ∀ (d d' : Disk) (folder : String) (units : List LoweredUnit) (report : Generated),
      generate Gap.serializer d folder units = (d', .ok report) →
      (∀ u ∈ units, ∀ k ∈ u.unit.definitions.contracts, nameFault? k.name = none) →
      ∀ u ∈ units, ∀ c ∈ u.unit.definitions.contracts, ∀ role ∈ [.userInterface, .userImpl],
      ∀ bytes, d.readBytes (ArtifactRole.pathIn role folder c.name) = .ok bytes →
        d'.readBytes (ArtifactRole.pathIn role folder c.name) = .ok bytes := by
  intro h
  have hkept := h declaredDisk _ "out" clashingUnits _
    (Prod.ext rfl generate_clashingUnits)
    (by decide +kernel)
    (clashingUnits.head (by decide)) (by decide +kernel)
    { name := "A", definitions := {} } (by decide +kernel)
    .userInterface (by decide)
    "interface ABase \x7b\n    function ping() external;\n\x7d\n".toUTF8 (by decide +kernel)
  exact absurd hkept (by decide +kernel)

end Generation
end ContractGen
