import ContractGen.Proofs.UserFiles

/-!
# The trees behind the files of a unit

A file of the layout is the text of a tree. Here the trees are kept beside the files, so that what
is printed can be talked about without reading it again.

* `PrintedFile`: a file and the tree that it is the text of.
* `printedFiles`: the files of a unit with their trees.
* `map_entry_printedFiles`: these are the files that the layout has.
* `printedFiles_cases`: which trees there are.
-/

namespace ContractGen
namespace Generation
namespace Gap

open Files Lowering Target

/-- A file and the tree that it is the text of. -/
structure PrintedFile where
  entry : Entry
  tree : SourceUnit
  content : entry.content = tree.print

/-- The file for a role of a contract. -/
def PrintedFile.artifact (role : ArtifactRole) (contract : String) (tree : SourceUnit) :
    PrintedFile :=
  { entry := .artifact role contract tree.print, tree, content := rfl }

/-- The implementation of the user, if it has to be made. -/
def printedImpl? (unit : SourceUnit) (contract : String) (user : UserFiles) : Option PrintedFile :=
  match user.interface, user.hasImpl with
  | some interface, false =>
    let file : PrintedFile := .artifact .userImpl contract (implUnit unit contract interface)
    some { file with entry := { file.entry with rule := some .ifMissing } }
  | _, _ => none

/-- The files of a contract. -/
def printedContract (unit : SourceUnit) (c : Contract) (user : UserFiles)
    (shared : Option Definitions) : List PrintedFile :=
  [.artifact .generatedInterface c.name (interfaceUnit unit c user.interface shared),
    .artifact .generatedBaseImpl c.name (baseUnit unit c user.hasImpl)] ++
    (printedImpl? unit c.name user).toList

/-- The files of some contracts. The first that is not skipped takes the shared definitions. -/
def printedContracts (d : Disk) (folder : String) (unit : SourceUnit)
    (shared : Option Definitions) : List Contract → List PrintedFile
  | [] => []
  | c :: cs =>
    match probe d folder c.name unit.enumerationNames with
    | .error _ => printedContracts d folder unit shared cs
    | .ok user => printedContract unit c user shared ++ printedContracts d folder unit none cs

/-- The file of a unit without contracts. -/
def printedStandalone? (u : LoweredUnit) : Option PrintedFile :=
  if u.unit.definitions.isEmpty then
    none
  else
    some
      { entry :=
          .generated (u.outputPath.getD (u.unit.name ++ "." ++ sourceExtension)) u.unit.print
        tree := u.unit
        content := rfl }

/-- The files of a unit. -/
def printedFiles (d : Disk) (folder : String) (u : LoweredUnit) : List PrintedFile :=
  if !d.isFolder folder then
    []
  else if u.unit.definitions.contracts.isEmpty then
    (printedStandalone? u).toList
  else
    printedContracts d folder u.unit (sharedDefinitions? u.unit) u.unit.definitions.contracts

/-! ## The same files -/

theorem map_entry_printedImpl?
    (unit : SourceUnit)
    (contract : String)
    (user : UserFiles) :
    (printedImpl? unit contract user).map PrintedFile.entry = implFile? unit contract user := by
  obtain ⟨interface, hasImpl⟩ := user
  cases interface <;> cases hasImpl <;> rfl

/-- The entries of the printed files of a contract are the files of that contract. -/
theorem map_entry_printedContract
    (unit : SourceUnit)
    (c : Contract)
    (user : UserFiles)
    (shared : Option Definitions) :
    (printedContract unit c user shared).map PrintedFile.entry =
      contractFiles unit c user shared := by
  rw [printedContract, contractFiles, List.map_append, ← Option.toList_map, map_entry_printedImpl?]
  rfl

theorem printedContracts_cons
    (d : Disk)
    (folder : String)
    (unit : SourceUnit)
    (shared : Option Definitions)
    (c : Contract)
    (cs : List Contract) :
    printedContracts d folder unit shared (c :: cs) =
      match probe d folder c.name unit.enumerationNames with
      | .error _ => printedContracts d folder unit shared cs
      | .ok user =>
        printedContract unit c user shared ++ printedContracts d folder unit none cs := by
  rfl

theorem map_entry_printedContracts
    (d : Disk)
    (folder : String)
    (unit : SourceUnit)
    (shared : Option Definitions)
    (cs : List Contract) :
    (printedContracts d folder unit shared cs).map PrintedFile.entry =
      (layOut d folder unit shared cs).files := by
  induction cs generalizing shared with
  | nil =>
      rfl
  | cons c cs ih =>
      rw [layOut_cons, printedContracts_cons]
      cases probe d folder c.name unit.enumerationNames with
      | error f =>
          exact ih shared
      | ok user =>
          show List.map _ (_ ++ _) = _
          rw [List.map_append, map_entry_printedContract, ih none]

/--
The printed files of a unit are those that the serializer lays out, with the trees they print.
-/
theorem map_entry_printedFiles
    (d : Disk)
    (folder : String)
    (u : LoweredUnit) :
    (printedFiles d folder u).map PrintedFile.entry = (serializer.serialize d folder u).files := by
  show _ = (serialize d folder u).files
  unfold printedFiles serialize
  split
  · rfl
  · split
    · unfold printedStandalone? standaloneFile?
      split <;> rfl
    · exact map_entry_printedContracts d folder u.unit _ _

/-! ## Where a tree comes from -/

/-- A printed file of a contract prints its interface, its base or its user implementation. -/
theorem printedContract_cases
    {unit : SourceUnit} {c : Contract} {user : UserFiles} {shared : Option Definitions}
    {x : PrintedFile}
    (h : x ∈ printedContract unit c user shared) :
    x = .artifact .generatedInterface c.name (interfaceUnit unit c user.interface shared) ∨
    x = .artifact .generatedBaseImpl c.name (baseUnit unit c user.hasImpl) ∨
    (IsArtifactOf x.entry .userImpl c.name ∧
      ∃ i ∈ user.interface, x.tree = implUnit unit c.name i) := by
  rw [printedContract, List.mem_append, List.mem_cons, List.mem_singleton, or_assoc] at h
  refine h.imp_right (Or.imp_right ?_)
  intro himpl
  obtain ⟨interface, hasImpl⟩ := user
  cases interface with
  | none =>
      cases himpl
  | some i =>
      cases hasImpl with
      | true =>
          cases himpl
      | false =>
          cases List.mem_singleton.mp himpl
          exact ⟨⟨rfl, rfl, rfl⟩, i, rfl, rfl⟩

/-- Every printed file is one of a contract whose user files could be probed. -/
theorem mem_printedContracts
    {d : Disk} {folder : String} {unit : SourceUnit} {shared : Option Definitions}
    {cs : List Contract} {x : PrintedFile}
    (h : x ∈ printedContracts d folder unit shared cs) :
    ∃ c ∈ cs, ∃ user, probe d folder c.name unit.enumerationNames = .ok user ∧
      ∃ around ∈ [shared, none], x ∈ printedContract unit c user around := by
  induction cs generalizing shared with
  | nil =>
      cases h
  | cons c cs ih =>
      rw [printedContracts_cons] at h
      cases hprobe : probe d folder c.name unit.enumerationNames with
      | error f =>
          rw [hprobe] at h
          obtain ⟨c', hc', hx⟩ := ih h
          exact ⟨c', List.mem_cons_of_mem c hc', hx⟩
      | ok user =>
          rw [hprobe] at h
          rcases List.mem_append.mp h with hhere | hlater
          · exact ⟨c, List.mem_cons_self, user, hprobe, shared, List.mem_cons_self, hhere⟩
          · obtain ⟨c', hc', user', hprobe', around, haround, hx⟩ := ih hlater
            have hnone : around = none := by
              simpa using haround
            exact ⟨c', List.mem_cons_of_mem c hc', user', hprobe', around, by simp [hnone], hx⟩

/-- A file of a unit shows the unit itself, if that has no contracts, or is one of a contract. -/
theorem printedFiles_cases
    {d : Disk} {folder : String} {u : LoweredUnit} {x : PrintedFile}
    (h : x ∈ printedFiles d folder u) :
    (x.tree = u.unit ∧ x.entry.role = none) ∨
    ∃ c ∈ u.unit.definitions.contracts,
    ∃ user, probe d folder c.name u.unit.enumerationNames = .ok user ∧
    ∃ around ∈ [sharedDefinitions? u.unit, none], x ∈ printedContract u.unit c user around := by
  unfold printedFiles at h
  split at h
  · cases h
  · split at h
    · unfold printedStandalone? at h
      split at h
      · cases h
      · cases List.mem_singleton.mp h
        exact Or.inl ⟨rfl, rfl⟩
    · exact Or.inr (mem_printedContracts h)

end Gap
end Generation
end ContractGen
