import ContractGen.Proofs.Regeneration
import Mathlib.Data.List.Infix

/-!
# Names of files that do not collide

The file for a role of a contract is named after the contract and the suffix of the role. Suffixes
are parts of one another, so a contract that is itself named with such a suffix can share a file with
another contract. Without such names it cannot: a name tells the role and the contract, all files
of a run are different, and none of them is a file of the user for another contract.

**Definitions.**
* `IsBare`: a name that does not end like the files of a role.
* `artifactNames`: the names of the files for all roles of some contracts.
* `artifactPaths`: the files of a run that have a role.

**Results.**
* `eq_of_fileName_eq`: the name of a file tells the role and the contract.
* `sublist_artifacts`: the files of a unit that have a role are named after its contracts.
* `fileName_apart`: contracts with bare names have no file in common.
-/

namespace ContractGen

/-! ## Names of one contract and of another -/

namespace Files
namespace ArtifactRole

/-- Whether characters end in one of the words that suffixes of roles are made of. -/
def EndsInRole (chars : List Char) : Prop :=
  "Base".toList <:+ chars ∨ "Impl".toList <:+ chars

instance (chars : List Char) : Decidable (EndsInRole chars) :=
  inferInstanceAs (Decidable (_ ∨ _))

/-- A name that ends in no word of a role. -/
def IsBare (contract : String) : Prop :=
  ¬ EndsInRole contract.toList

instance (contract : String) : Decidable (IsBare contract) :=
  inferInstanceAs (Decidable (¬ _))

theorem EndsInRole.append
    {chars : List Char}
    (h : EndsInRole chars)
    (before : List Char) :
    EndsInRole (before ++ chars) :=
  h.imp
    (fun hbase => hbase.trans (List.suffix_append before chars))
    (fun himpl => himpl.trans (List.suffix_append before chars))

/-- What a suffix has in front of the suffix of another role is the word of a role. -/
theorem endsInRole_of_suffix_eq
    {role role' : ArtifactRole} {extra : List Char}
    (h : role.suffix.toList = extra ++ role'.suffix.toList) :
    (role = role' ∧ extra = []) ∨ EndsInRole extra := by
  have hall : ∀ role ∈ all, ∀ role' ∈ all, ∀ extra ∈ role.suffix.toList.inits,
      role.suffix.toList = extra ++ role'.suffix.toList →
      (role = role' ∧ extra = []) ∨ EndsInRole extra := by
    decide
  have hinit : extra <+: role.suffix.toList := ⟨_, h.symm⟩
  exact hall role role.mem_all role' role'.mem_all extra ((List.mem_inits _ _).mpr hinit) h

/-- Of two files with one name, the contract with the longer name would end in the word of a role. -/
theorem eq_of_longer
    {role role' : ArtifactRole} {contract contract' : String} {extra : List Char}
    (hbare : IsBare contract')
    (hname : contract'.toList = contract.toList ++ extra)
    (hsuffix : role.suffix.toList = extra ++ role'.suffix.toList) :
    role = role' ∧ contract = contract' := by
  rcases endsInRole_of_suffix_eq hsuffix with ⟨hrole, rfl⟩ | hends
  · rw [List.append_nil] at hname
    exact ⟨hrole, (String.toList_inj.mp hname).symm⟩
  · refine absurd ?_ hbare
    rw [hname]
    exact hends.append contract.toList

/-- The name of a file tells the role and the contract. -/
theorem eq_of_fileName_eq
    {role role' : ArtifactRole} {contract contract' : String}
    (hbare : IsBare contract)
    (hbare' : IsBare contract')
    (h : role.fileName contract = role'.fileName contract') :
    role = role' ∧ contract = contract' := by
  have hchars : contract.toList ++ role.suffix.toList =
      contract'.toList ++ role'.suffix.toList := by
    simpa [definitionName] using congrArg String.toList ((fileName_inj_iff _ _ _ _).mp h)
  rcases List.append_eq_append_iff.mp hchars with
    ⟨extra, hname, hsuffix⟩ | ⟨extra, hname, hsuffix⟩
  · exact eq_of_longer hbare' hname hsuffix
  · obtain ⟨hrole, hcontract⟩ := eq_of_longer hbare hname hsuffix
    exact ⟨hrole.symm, hcontract.symm⟩

/-- A name that ends in the word of a role has a file in common with a shorter one. -/
example : generatedInterface.fileName "ABase" = userInterface.fileName "A" ∧ ¬ IsBare "ABase" := by
  decide

/-- The names of the files for all roles of some contracts. -/
def artifactNames (contracts : List String) : List String :=
  contracts.flatMap fun contract => all.map fun role => role.fileName contract

theorem nodup_artifactNames
    {contracts : List String}
    (hbare : ∀ contract ∈ contracts, IsBare contract)
    (hnodup : contracts.Nodup) :
    (artifactNames contracts).Nodup := by
  refine List.nodup_flatMap.mpr ⟨?_, ?_⟩
  · intro contract hcontract
    refine List.Nodup.map_on ?_ (by decide)
    intro role _ role' _ h
    exact (eq_of_fileName_eq (hbare contract hcontract) (hbare contract hcontract) h).1
  · refine hnodup.imp_of_mem ?_
    intro contract contract' hcontract hcontract' hne name hname hname'
    obtain ⟨role, -, rfl⟩ := List.mem_map.mp hname
    obtain ⟨role', -, h⟩ := List.mem_map.mp hname'
    exact hne (eq_of_fileName_eq (hbare contract hcontract) (hbare contract' hcontract') h.symm).2

end ArtifactRole
end Files

/-! ## The files of a run -/

namespace Generation

open Files Lowering Target
open ArtifactRole (IsBare artifactNames eq_of_fileName_eq nodup_artifactNames)

/-- The names of the contracts of a run. -/
def contractNames (units : List LoweredUnit) : List String :=
  units.flatMap fun u => u.unit.definitions.contracts.map Contract.name

/-- The files of a run that have a role for a contract. -/
def artifactPaths (d : Disk) (folder : String) (units : List LoweredUnit) : List String :=
  ((preview Gap.serializer d folder units).filter fun e => e.role.isSome).map Entry.path

/-- The files of a unit that have a role are among those that its contracts have names for. -/
theorem sublist_artifacts
    (d : Disk)
    (folder : String)
    (u : LoweredUnit) :
    (((Gap.serialize d folder u).files.filter fun e => e.role.isSome).map Entry.path).Sublist
      (artifactNames (u.unit.definitions.contracts.map Contract.name)) := by
  unfold Gap.serialize
  split
  · exact List.nil_sublist _
  · split
    · rename_i hnone
      have hroles : ((standaloneFile? u).toList.filter fun e => e.role.isSome) = [] := by
        refine List.filter_eq_nil_iff.mpr ?_
        intro e he
        have hstandalone : IsStandalone e [u] :=
          ⟨u, List.mem_singleton_self u, by simpa using hnone, by simpa using he⟩
        simp [hstandalone.role_and_overwrite.1]
      rw [hroles]
      exact List.nil_sublist _
    · rw [artifactNames, List.flatMap_map]
      exact (List.filter_sublist.map Entry.path).trans (Gap.sublist_layOut d folder u.unit _ _)

/-- If all names that the contracts have for files are different, so are those of the files made. -/
theorem nodup_artifactPaths
    {units : List LoweredUnit}
    (h : (artifactNames (contractNames units)).Nodup)
    (d : Disk)
    (folder : String) :
    (artifactPaths d folder units).Nodup := by
  have hperm := ((ordered_perm (collect Gap.serializer d folder units).registry).filter
    fun e => e.role.isSome).map Entry.path
  refine hperm.nodup_iff.mpr ?_
  unfold collect
  split
  · rw [contractNames, artifactNames, List.flatMap_assoc] at h
    dsimp only
    rw [List.flatMap_map, List.filter_flatMap, List.map_flatMap]
    exact (List.Sublist.flatMap_right units fun u _ => sublist_artifacts d folder u).nodup h
  · exact List.nodup_nil

/--
If the names of contracts do not end in `Base` or `Impl`, the name of a file tells its role and its
contract. So contracts with different names of this kind have only different files: no generated file
of one is a file of the user for another, and no two files with a role in a run have one path.
-/
theorem fileName_apart :
    (∀ (role role' : ArtifactRole) (contract contract' : String),
      IsBare contract → IsBare contract' →
      role.fileName contract = role'.fileName contract' →
      role = role' ∧ contract = contract') ∧
    ∀ contracts : List String,
      (∀ contract ∈ contracts, IsBare contract) → contracts.Nodup →
      (artifactNames contracts).Nodup ∧
      (∀ contract ∈ contracts, ∀ other ∈ contracts, other ≠ contract →
        ∀ generated user : ArtifactRole,
          generated.isUserOwned = false → user.isUserOwned = true →
          generated.fileName other ≠ user.fileName contract) ∧
      ∀ (d : Disk) (folder : String) (units : List LoweredUnit),
        contractNames units = contracts → (artifactPaths d folder units).Nodup := by
  refine ⟨fun _ _ _ _ => eq_of_fileName_eq, ?_⟩
  intro contracts hbare hnodup
  have hnames := nodup_artifactNames hbare hnodup
  refine ⟨hnames, ?_, ?_⟩
  · intro contract hcontract other hother hne generated user _ _ h
    exact hne (eq_of_fileName_eq (hbare other hother) (hbare contract hcontract) h).2
  · rintro d folder units rfl
    exact nodup_artifactPaths hnames d folder

/-- Contracts of two units whose names have the words of roles in front, not at the end. -/
def bareUnits : List LoweredUnit :=
  [{ unit :=
      { name := "M"
        license := "MIT"
        pragma := "^0.8.0"
        definitions :=
          { contracts :=
              [{ name := "A", definitions := {} }, { name := "BaseA", definitions := {} }] } }
     origin := "m.json" },
    { unit :=
        { name := "N"
          license := "MIT"
          pragma := "^0.8.0"
          definitions := { contracts := [{ name := "BaseImplA", definitions := {} }] } }
      origin := "n.json" }]

/-- The user has declarations for `A`, so there is a third file for it. -/
theorem fileName_apart_bare :
    artifactPaths declaredDisk "out" bareUnits =
        ["A.sol", "ABaseImpl.sol", "BaseA.sol", "BaseABaseImpl.sol", "BaseImplA.sol",
          "BaseImplABaseImpl.sol", "AImpl.sol"] ∧
      (artifactPaths declaredDisk "out" bareUnits).Nodup ∧
      ArtifactRole.generatedInterface.fileName "BaseA" ≠ ArtifactRole.userImpl.fileName "A" ∧
      ∀ (role : ArtifactRole) (contract : String), IsBare contract →
        role.fileName contract = "AImpl.sol" → role = .userImpl ∧ contract = "A" := by
  obtain ⟨-, hapart, hpaths⟩ :=
    fileName_apart.2 ["A", "BaseA", "BaseImplA"] (by decide) (by decide)
  refine ⟨by decide +kernel, hpaths declaredDisk "out" bareUnits (by decide), ?_, ?_⟩
  · exact hapart "A" (by decide) "BaseA" (by decide) (by decide) .generatedInterface .userImpl rfl rfl
  · intro role contract hbare h
    exact fileName_apart.1 role .userImpl contract "A" hbare (by decide) h

end Generation
end ContractGen
