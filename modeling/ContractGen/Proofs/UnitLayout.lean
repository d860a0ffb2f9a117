import ContractGen.Proofs.PrintedTrees
import Mathlib.Data.List.Forall2

/-!
# The files of a unit

The layout of a unit goes through its contracts and looks for the user's files of each. A contract
whose user declarations cannot be read is broken and left out; all others get their files as if it
were not there. The definitions outside contracts are handed on until a contract takes them.

**Definitions.**
* `IsBroken`, `userFiles`: what the output folder holds of the user's files for a contract.
* `sharesOf`: the contracts that are not broken, with the definitions that each one takes along.
* `layoutRows`: the roles and contracts of the files, read off the contracts that are not broken.
* `IsFileOf`: a file with exactly one declaration for its role, beside definitions of the unit.

**Results.**
* `probe_of_isBroken`, `probe_of_not_isBroken`: what is found for a contract.
* `printedContracts_eq_flatMap`, `layOut_files`: what is printed and laid out are the files of the
  contracts that are not broken, one contract after the other.
* `serialize_layout`: these are the files, and the first of them has the definitions outside
  contracts.
-/

namespace ContractGen
namespace Generation
namespace Gap

open Files Lowering Target

section Files

variable (d : Disk) (folder contract : String)

/-- The user's declarations for a contract are a file that cannot be read. -/
def IsBroken : Prop :=
  d.isFile (ArtifactRole.userInterface.pathIn folder contract) = true ∧
    ∃ f, Source.parseFile d (ArtifactRole.userInterface.pathIn folder contract) = .error f

/-- The user's declarations for a contract are a file with an interface. -/
def HasDeclarations : Prop :=
  d.isFile (ArtifactRole.userInterface.pathIn folder contract) = true ∧
    ∃ unit,
      Source.parseFile d (ArtifactRole.userInterface.pathIn folder contract) = .ok unit ∧
      unit.definitions.interfaces ≠ []

instance : Decidable (IsBroken d folder contract) :=
  match h : Source.parseFile d (ArtifactRole.userInterface.pathIn folder contract) with
  | .error f => decidable_of_iff _ (and_iff_left ⟨f, h⟩).symm
  | .ok _ => isFalse fun ⟨_, _, hf⟩ => nomatch h.symm.trans hf

instance : Decidable (HasDeclarations d folder contract) :=
  match h : Source.parseFile d (ArtifactRole.userInterface.pathIn folder contract) with
  | .error _ => isFalse fun ⟨_, _, hunit, _⟩ => nomatch h.symm.trans hunit
  | .ok unit =>
    decidable_of_iff
      (d.isFile (ArtifactRole.userInterface.pathIn folder contract) = true ∧
        unit.definitions.interfaces ≠ [])
      (and_congr_right fun _ =>
        ⟨fun hne => ⟨unit, h, hne⟩, fun ⟨_, hunit, hne⟩ => Except.ok.inj (h.symm.trans hunit) ▸ hne⟩)

/-- The first interface among the user's declarations for a contract, if they can be read. -/
def readableInterface? (enums : List String) : Option Interface :=
  if d.isFile (ArtifactRole.userInterface.pathIn folder contract) then
    match Source.parseFile d (ArtifactRole.userInterface.pathIn folder contract) with
    | .error _ => none
    | .ok unit => (unit.resolveEnumerations enums).definitions.interfaces.head?
  else
    none

/-- The user's files for a contract; `enums` are enums that they may use. -/
def userFiles (enums : List String) : UserFiles :=
  { interface := readableInterface? d folder contract enums
    hasImpl := d.isFile (ArtifactRole.userImpl.pathIn folder contract) }

/-- The roles of the files of a contract that is not broken. -/
def laidOutRoles : List ArtifactRole :=
  .generatedInterface :: .generatedBaseImpl ::
    if HasDeclarations d folder contract ∧
        d.isFile (ArtifactRole.userImpl.pathIn folder contract) = false then
      [.userImpl]
    else
      []

end Files

/-- The roles of the files of some contracts, each with the name of its contract. -/
def layoutRows (d : Disk) (folder : String) (cs : List Contract) : List (ArtifactRole × String) :=
  cs.flatMap fun c => (laidOutRoles d folder c.name).map fun role => (role, c.name)

/-- Contracts with what each takes along: the first the shared definitions, the others nothing. -/
def sharesOf (shared : Option Definitions) : List Contract → List (Contract × Option Definitions)
  | [] => []
  | c :: cs => (c, shared) :: cs.map fun c => (c, none)

/-- Some definitions and after them one declaration, of the kind and with the name for a role. -/
def AddsTo (outside : Definitions) (role : ArtifactRole) (contract : String) (d : Definitions) :
    Prop :=
  match role with
  | .generatedInterface | .userInterface =>
    ∃ i : Interface,
      i.name = role.definitionName contract ∧
      d = { outside with interfaces := outside.interfaces ++ [i] }
  | .generatedBaseImpl | .userImpl =>
    ∃ c : Contract,
      c.name = role.definitionName contract ∧
      d = { outside with contracts := outside.contracts ++ [c] }

/-- The file for a role of a contract, in whose tree there are some other definitions. -/
structure IsFileOf (outside : Definitions) (row : ArtifactRole × String) (x : PrintedFile) : Prop
    extends IsArtifactOf x.entry row.1 row.2 where
  definitions : AddsTo outside row.1 row.2 x.tree.definitions

/-- A contract is skipped because of the user's declarations for it. -/
structure IsSkipOf (d : Disk) (folder : String) (c : Contract) (s : SkippedContract) : Prop where
  contract : s.contract = c.name
  reason : ∃ f,
    Source.parseFile d (ArtifactRole.userInterface.pathIn folder c.name) = .error f ∧
    s.reason = (f.within ("Failed to read user interface of " ++ c.name)).text

theorem listMapTypes_eq_nil_iff
    {f : TypeExpr → TypeExpr} {is : List Interface} :
    Interface.listMapTypes f is = [] ↔ is = [] := by
  cases is <;> simp [Interface.listMapTypes]

theorem interfaces_resolveEnumerations
    (enums : List String)
    (unit : SourceUnit) :
    (unit.resolveEnumerations enums).definitions.interfaces.head?.isSome ↔
      unit.definitions.interfaces ≠ [] := by
  have hmap : (unit.resolveEnumerations enums).definitions.interfaces =
      Interface.listMapTypes (TypeExpr.resolve enums) unit.definitions.interfaces := by
    obtain ⟨name, license, pragma, imports, definitions⟩ := unit
    cases definitions
    rfl
  rw [hmap, List.isSome_head?, ne_eq, listMapTypes_eq_nil_iff]

section Probe

variable {d : Disk} {folder contract : String}

/-- A contract is skipped with an error that names it, and the parser's failure inside. -/
theorem probe_of_isBroken
    (h : IsBroken d folder contract)
    (enums : List String) :
    ∃ f, Source.parseFile d (ArtifactRole.userInterface.pathIn folder contract) = .error f ∧
      probe d folder contract enums =
        .error (f.within ("Failed to read user interface of " ++ contract)) := by
  obtain ⟨hfile, f, hparse⟩ := h
  exact ⟨f, hparse, by simp [probe, readInterface, hfile, hparse]⟩

/-- Unless a contract is broken, what is found are the user's files as they stand. -/
theorem probe_of_not_isBroken
    (h : ¬ IsBroken d folder contract)
    (enums : List String) :
    probe d folder contract enums = .ok (userFiles d folder contract enums) := by
  cases hfile : d.isFile (ArtifactRole.userInterface.pathIn folder contract) with
  | false =>
      simp [probe, readInterface, userFiles, readableInterface?, hfile]
  | true =>
      cases hparse : Source.parseFile d (ArtifactRole.userInterface.pathIn folder contract) with
      | error f =>
          exact absurd ⟨hfile, f, hparse⟩ h
      | ok unit =>
          simp [probe, readInterface, userFiles, readableInterface?, hfile, hparse]

/-- An interface is read exactly where the user has a file with declarations. -/
theorem isSome_readableInterface?_iff
    {enums : List String} :
    (readableInterface? d folder contract enums).isSome ↔ HasDeclarations d folder contract := by
  unfold readableInterface? HasDeclarations
  split
  · rename_i hfile
    split
    · rename_i f hparse
      simp [hparse]
    · rename_i unit hparse
      rw [interfaces_resolveEnumerations]
      simp [hfile, hparse]
  · rename_i hfile
    simp [hfile]

end Probe

/-! ## The files of one contract -/

theorem isArtifactOf_implFile?
    {unit : SourceUnit} {contract : String} {user : UserFiles} {e : Entry}
    (h : implFile? unit contract user = some e) :
    IsArtifactOf e .userImpl contract := by
  unfold implFile? at h
  split at h
  · cases h
    exact ⟨rfl, rfl, rfl⟩
  · cases h

/-- A printed user implementation is the file of its contract, with nothing beside it. -/
theorem isFileOf_printedImpl?
    {unit : SourceUnit} {contract : String} {user : UserFiles} {x : PrintedFile}
    (h : printedImpl? unit contract user = some x) :
    IsFileOf {} (.userImpl, contract) x := by
  unfold printedImpl? at h
  split at h
  · cases h
    exact ⟨⟨rfl, rfl, rfl⟩, _, rfl, rfl⟩
  · cases h

/-- A user implementation is printed for an interface without one. -/
theorem printedImpl?_isSome_iff
    (unit : SourceUnit)
    (contract : String)
    (user : UserFiles) :
    (printedImpl? unit contract user).isSome ↔
      user.interface.isSome ∧ user.hasImpl = false := by
  obtain ⟨interface, hasImpl⟩ := user
  cases interface <;> cases hasImpl <;> simp [printedImpl?]

/-- The files of a contract; only the first of them has the shared definitions. -/
theorem printedContract_isFileOf
    (d : Disk)
    (folder : String)
    (unit : SourceUnit)
    (c : Contract)
    (enums : List String)
    (shared : Option Definitions) :
    ∃ first rest,
      printedContract unit c (userFiles d folder c.name enums) shared = first :: rest ∧
      IsFileOf (shared.getD {}) (.generatedInterface, c.name) first ∧
      List.Forall₂ (IsFileOf {})
        ((laidOutRoles d folder c.name).tail.map fun role => (role, c.name)) rest := by
  refine ⟨_, _, rfl, ⟨isArtifactOf_artifact _ _ _, _, rfl, rfl⟩, ?_⟩
  refine List.Forall₂.cons ⟨isArtifactOf_artifact _ _ _, _, rfl, rfl⟩ ?_
  have hneeded : (printedImpl? unit c.name (userFiles d folder c.name enums)).isSome ↔
      HasDeclarations d folder c.name ∧
        d.isFile (ArtifactRole.userImpl.pathIn folder c.name) = false := by
    rw [printedImpl?_isSome_iff]
    exact and_congr_left' isSome_readableInterface?_iff
  cases hfile : printedImpl? unit c.name (userFiles d folder c.name enums) with
  | none =>
      rw [if_neg (by simpa [hfile] using hneeded)]
      exact List.Forall₂.nil
  | some e =>
      rw [if_pos (by simpa [hfile] using hneeded)]
      exact List.Forall₂.cons (isFileOf_printedImpl? hfile) List.Forall₂.nil

/-! ## All contracts -/

/-- The skipped contracts are those with broken declarations, in order. -/
theorem layOut_skipped
    (d : Disk)
    (folder : String)
    (unit : SourceUnit)
    (shared : Option Definitions)
    (cs : List Contract) :
    List.Forall₂ (IsSkipOf d folder)
      (cs.filter fun c => IsBroken d folder c.name)
      (layOut d folder unit shared cs).skipped := by
  induction cs generalizing shared with
  | nil =>
      exact List.Forall₂.nil
  | cons c cs ih =>
      rw [layOut_cons]
      by_cases hbroken : IsBroken d folder c.name
      · obtain ⟨f, hparse, hprobe⟩ := probe_of_isBroken hbroken unit.enumerationNames
        rw [hprobe, List.filter_cons_of_pos (by simpa using hbroken)]
        exact List.Forall₂.cons ⟨rfl, f, hparse, rfl⟩ (ih shared)
      · rw [probe_of_not_isBroken hbroken, List.filter_cons_of_neg (by simpa using hbroken)]
        exact ih none

theorem sharesOf_none
    (cs : List Contract) :
    sharesOf none cs = cs.map fun c => (c, none) := by
  cases cs <;> rfl

/-- What is printed are the files of the contracts that are not broken, one after the other. -/
theorem printedContracts_eq_flatMap
    (d : Disk)
    (folder : String)
    (unit : SourceUnit)
    (shared : Option Definitions)
    (cs : List Contract) :
    printedContracts d folder unit shared cs =
      (sharesOf shared (cs.filter fun c => ¬ IsBroken d folder c.name)).flatMap fun share =>
        printedContract unit share.1 (userFiles d folder share.1.name unit.enumerationNames)
          share.2 := by
  induction cs generalizing shared with
  | nil =>
      rfl
  | cons c cs ih =>
      rw [printedContracts_cons]
      by_cases hbroken : IsBroken d folder c.name
      · obtain ⟨f, -, hprobe⟩ := probe_of_isBroken hbroken unit.enumerationNames
        rw [hprobe, List.filter_cons_of_neg (by simpa using hbroken)]
        exact ih shared
      · rw [probe_of_not_isBroken hbroken, List.filter_cons_of_pos (by simpa using hbroken),
          sharesOf, ← sharesOf_none, List.flatMap_cons, ← ih none]

/-- The files are those of the contracts that are not broken, one contract after the other. -/
theorem layOut_files
    (d : Disk)
    (folder : String)
    (unit : SourceUnit)
    (shared : Option Definitions)
    (cs : List Contract) :
    (layOut d folder unit shared cs).files =
      (sharesOf shared (cs.filter fun c => ¬ IsBroken d folder c.name)).flatMap fun share =>
        contractFiles unit share.1 (userFiles d folder share.1.name unit.enumerationNames)
          share.2 := by
  rw [← map_entry_printedContracts, printedContracts_eq_flatMap, List.map_flatMap]
  simp only [map_entry_printedContract]

/-- Where nothing is shared, every file has one declaration and nothing beside it. -/
theorem flatMap_printedContract_isFileOf
    (d : Disk)
    (folder : String)
    (unit : SourceUnit)
    (cs : List Contract) :
    List.Forall₂ (IsFileOf {}) (layoutRows d folder cs)
      (cs.flatMap fun c =>
        printedContract unit c (userFiles d folder c.name unit.enumerationNames) none) := by
  induction cs with
  | nil =>
      exact List.Forall₂.nil
  | cons c cs ih =>
      obtain ⟨first, rest, hprinted, hfirst, hrest⟩ :=
        printedContract_isFileOf d folder unit c unit.enumerationNames none
      simp only [List.flatMap_cons, hprinted]
      exact List.rel_append (List.Forall₂.cons hfirst hrest) ih

/-- The first file takes the shared definitions, whichever contract it belongs to. -/
theorem printedContracts_isFileOf
    (d : Disk)
    (folder : String)
    (unit : SourceUnit)
    (shared : Option Definitions)
    (cs : List Contract) :
    let rows := layoutRows d folder (cs.filter fun c => ¬ IsBroken d folder c.name)
    let printed := printedContracts d folder unit shared cs
    List.Forall₂ (IsFileOf (shared.getD {})) (rows.take 1) (printed.take 1) ∧
      List.Forall₂ (IsFileOf {}) (rows.drop 1) (printed.drop 1) := by
  dsimp only
  rw [printedContracts_eq_flatMap]
  cases cs.filter fun c => ¬ IsBroken d folder c.name with
  | nil =>
      exact ⟨List.Forall₂.nil, List.Forall₂.nil⟩
  | cons c sound =>
      obtain ⟨first, rest, hprinted, hfirst, hrest⟩ :=
        printedContract_isFileOf d folder unit c unit.enumerationNames shared
      have hlater := flatMap_printedContract_isFileOf d folder unit sound
      simp only [sharesOf, List.flatMap_cons, List.flatMap_map, hprinted]
      exact ⟨List.Forall₂.cons hfirst List.Forall₂.nil, List.rel_append hrest hlater⟩

theorem fileLevel_of_isEmpty
    {d : Definitions}
    (h : (fileLevel d).isEmpty = true) :
    fileLevel d = {} := by
  obtain ⟨contracts, interfaces, structures, enumerations, events, errors, functions, modifiers⟩ := d
  simp only [fileLevel, Definitions.isEmpty, Bool.and_eq_true, List.isEmpty_iff] at h
  obtain ⟨⟨⟨⟨⟨⟨⟨-, rfl⟩, rfl⟩, rfl⟩, rfl⟩, rfl⟩, rfl⟩, rfl⟩ := h
  rfl

theorem getD_sharedDefinitions?
    (unit : SourceUnit) :
    (sharedDefinitions? unit).getD {} = fileLevel unit.definitions := by
  unfold sharedDefinitions?
  dsimp only
  split
  · rename_i hempty
    exact (fileLevel_of_isEmpty hempty).symm
  · rfl

theorem exists_left_of_mem
    {α β : Type} {R : α → β → Prop} {xs : List α} {ys : List β}
    (h : List.Forall₂ R xs ys)
    {y : β}
    (hy : y ∈ ys) :
    ∃ x ∈ xs, R x y := by
  induction h with
  | nil =>
      cases hy
  | @cons x y' xs ys hxy hrest ih =>
      rcases List.mem_cons.mp hy with rfl | hlater
      · exact ⟨x, by simp, hxy⟩
      · obtain ⟨x', hx', hR⟩ := ih hlater
        exact ⟨x', by simp [hx'], hR⟩

theorem ne_userInterface_of_mem_layoutRows
    {d : Disk} {folder : String} {cs : List Contract} {row : ArtifactRole × String}
    (h : row ∈ layoutRows d folder cs) :
    row.1 ≠ .userInterface := by
  obtain ⟨c, -, hrow⟩ := List.mem_flatMap.mp h
  obtain ⟨role, hrole, rfl⟩ := List.mem_map.mp hrow
  rintro rfl
  unfold laidOutRoles at hrole
  split at hrole <;> simp at hrole

/-- No file is laid out for the user's declarations, and the user's implementation is kept. -/
theorem role_of_mem_layOut
    {d : Disk} {folder : String} {unit : SourceUnit} {shared : Option Definitions}
    {cs : List Contract} {e : Entry}
    (h : e ∈ (layOut d folder unit shared cs).files) :
    e.role ≠ some .userInterface ∧ (e.role = some .userImpl → e.overwrite = .ifMissing) := by
  rw [← map_entry_printedContracts] at h
  obtain ⟨x, hx, rfl⟩ := List.mem_map.mp h
  have hrow : ∃ outside,
      ∃ row ∈ layoutRows d folder (cs.filter fun c => ¬ IsBroken d folder c.name),
        IsFileOf outside row x := by
    obtain ⟨hfirst, hlater⟩ := printedContracts_isFileOf d folder unit shared cs
    rw [← List.take_append_drop 1 (printedContracts d folder unit shared cs), List.mem_append] at hx
    rcases hx with htake | hdrop
    · obtain ⟨row, hmem, hfile⟩ := exists_left_of_mem hfirst htake
      exact ⟨_, row, List.mem_of_mem_take hmem, hfile⟩
    · obtain ⟨row, hmem, hfile⟩ := exists_left_of_mem hlater hdrop
      exact ⟨_, row, List.mem_of_mem_drop hmem, hfile⟩
  obtain ⟨outside, row, hmem, hfile⟩ := hrow
  rw [hfile.role, hfile.overwrite]
  refine ⟨by simpa using ne_userInterface_of_mem_layoutRows hmem, ?_⟩
  intro himpl
  rw [Option.some.inj himpl]
  rfl

/--
Into a folder that exists, a unit with contracts is laid out with its file-level definitions shared.
-/
theorem serialize_eq_layOut
    {d : Disk} {folder : String} {u : LoweredUnit}
    (hfolder : d.isFolder folder = true)
    (hcontracts : u.unit.definitions.contracts ≠ []) :
    serialize d folder u =
      layOut d folder u.unit (sharedDefinitions? u.unit) u.unit.definitions.contracts := by
  rw [serialize, if_neg (by simp [hfolder]), if_neg (by simpa using hcontracts)]

/-- The same layout, with the trees that are printed. -/
theorem printedFiles_eq_printedContracts
    {d : Disk} {folder : String} {u : LoweredUnit}
    (hfolder : d.isFolder folder = true)
    (hcontracts : u.unit.definitions.contracts ≠ []) :
    printedFiles d folder u =
      printedContracts d folder u.unit (sharedDefinitions? u.unit)
        u.unit.definitions.contracts := by
  rw [printedFiles, if_neg (by simp [hfolder]), if_neg (by simpa using hcontracts)]

/--
The files of a unit with contracts. The contracts that are broken are skipped, in order. The files
are those of the other contracts, in order: of each an interface, a base implementation, and an
implementation for the user to start from if there are declarations but no implementation. The
definitions outside contracts are in the tree of the first file, which is the interface of the first
contract that is not broken, and every other tree has the one declaration for its role and nothing
beside it.
-/
theorem serialize_layout
    {d : Disk} {folder : String} {u : LoweredUnit}
    (hfolder : d.isFolder folder = true)
    (hcontracts : u.unit.definitions.contracts ≠ []) :
    let contracts := u.unit.definitions.contracts
    let sound := contracts.filter fun c => ¬ IsBroken d folder c.name
    let shares := sharesOf (sharedDefinitions? u.unit) sound
    let rows := layoutRows d folder sound
    let laidOut := serializer.serialize d folder u
    let printed := printedFiles d folder u
    List.Forall₂ (IsSkipOf d folder)
      (contracts.filter fun c => IsBroken d folder c.name) laidOut.skipped ∧
    laidOut.files = shares.flatMap (fun share =>
      contractFiles u.unit share.1
        (userFiles d folder share.1.name u.unit.enumerationNames) share.2) ∧
    printed = shares.flatMap (fun share =>
      printedContract u.unit share.1
        (userFiles d folder share.1.name u.unit.enumerationNames) share.2) ∧
    laidOut.files = printed.map PrintedFile.entry ∧
    rows.head? = sound.head?.map (fun c => (.generatedInterface, c.name)) ∧
    List.Forall₂ (IsFileOf (fileLevel u.unit.definitions)) (rows.take 1) (printed.take 1) ∧
    List.Forall₂ (IsFileOf {}) (rows.drop 1) (printed.drop 1) ∧
    ∀ e ∈ laidOut.files,
      e.role ≠ some .userInterface ∧ (e.role = some .userImpl → e.overwrite = .ifMissing) := by
  intro contracts sound shares rows laidOut printed
  have hlaidOut : laidOut = layOut d folder u.unit (sharedDefinitions? u.unit) contracts :=
    serialize_eq_layOut hfolder hcontracts
  have hprinted : printed =
      printedContracts d folder u.unit (sharedDefinitions? u.unit) contracts :=
    printedFiles_eq_printedContracts hfolder hcontracts
  have hfiles := map_entry_printedContracts d folder u.unit (sharedDefinitions? u.unit) contracts
  obtain ⟨hfirst, hlater⟩ :=
    printedContracts_isFileOf d folder u.unit (sharedDefinitions? u.unit) contracts
  rw [getD_sharedDefinitions?] at hfirst
  rw [hlaidOut, hprinted]
  refine ⟨layOut_skipped d folder u.unit _ _, layOut_files d folder u.unit _ _,
    printedContracts_eq_flatMap d folder u.unit _ _, hfiles.symm, ?_, hfirst, hlater,
    fun e => role_of_mem_layOut⟩
  show (layoutRows d folder sound).head? = _
  cases sound <;> rfl

/-- Two contracts and an enumeration outside them. -/
def tillUnit : LoweredUnit :=
  { unit :=
      { name := "Shop"
        license := "MIT"
        pragma := "^0.8.0"
        definitions :=
          { contracts :=
              [{ name := "Till", definitions := {} }, { name := "Vault", definitions := {} }]
            enumerations := [{ name := "Mode", values := ["Open"] }] } }
    origin := "shop.json" }

/-- A folder in which the user's declarations for the first contract cannot be read. -/
def tillDisk : Disk :=
  { root := .folder
      [("out", .folder
        [("TillBase.sol", .file "interface \x7b".toUTF8),
          ("VaultBase.sol", .file "interface Extras \x7b\x7d".toUTF8)])] }

theorem serialize_layout_till :
    let outside : Definitions := { enumerations := [{ name := "Mode", values := ["Open"] }] }
    let laidOut := serializer.serialize tillDisk "out" tillUnit
    let printed := printedFiles tillDisk "out" tillUnit
    List.Forall₂ (IsSkipOf tillDisk "out") [{ name := "Till", definitions := {} }]
      laidOut.skipped ∧
    laidOut.files =
      contractFiles tillUnit.unit { name := "Vault", definitions := {} }
        { interface := some { name := "Extras", definitions := {} } } (some outside) ∧
    printed =
      printedContract tillUnit.unit { name := "Vault", definitions := {} }
        { interface := some { name := "Extras", definitions := {} } } (some outside) ∧
    laidOut.files = printed.map PrintedFile.entry ∧
    List.Forall₂ (IsFileOf outside) [(.generatedInterface, "Vault")] (printed.take 1) ∧
    List.Forall₂ (IsFileOf {})
      [(.generatedBaseImpl, "Vault"), (.userImpl, "Vault")] (printed.drop 1) := by
  have hbroken :
      (tillUnit.unit.definitions.contracts.filter fun c => IsBroken tillDisk "out" c.name) =
        [{ name := "Till", definitions := {} }] := by
    decide +kernel
  have hsound :
      (tillUnit.unit.definitions.contracts.filter fun c => ¬ IsBroken tillDisk "out" c.name) =
        [{ name := "Vault", definitions := {} }] := by
    decide +kernel
  have hrows :
      layoutRows tillDisk "out" [{ name := "Vault", definitions := {} }] =
        [(.generatedInterface, "Vault"), (.generatedBaseImpl, "Vault"), (.userImpl, "Vault")] := by
    decide +kernel
  have huser : userFiles tillDisk "out" "Vault" tillUnit.unit.enumerationNames =
      { interface := some { name := "Extras", definitions := {} } } := by
    decide +kernel
  obtain ⟨hskipped, hfiles, htrees, hprinted, -, hfirst, hlater, -⟩ :=
    @serialize_layout tillDisk "out" tillUnit (by decide +kernel) (by decide)
  rw [hbroken] at hskipped
  rw [hsound, hrows] at hfirst hlater
  rw [hsound, sharesOf, List.map_nil, List.flatMap_singleton, huser] at hfiles htrees
  exact ⟨hskipped, hfiles, htrees, hprinted, hfirst, hlater⟩

end Gap
end Generation
end ContractGen
