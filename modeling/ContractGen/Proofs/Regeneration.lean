import ContractGen.Proofs.Rewriting
import ContractGen.Proofs.UnitLayout
import Mathlib.Data.List.Flatten
import Mathlib.Data.List.Nodup

/-!
# Generating again

A run looks at files of the user, and it may write one of them: the implementation to start from. So
the next run can find more than the one before it. This module says that nothing else is fed back:
if all names of the files of a run are different, a second run only rewrites base implementations of
contracts that have got an implementation in the first, and a third one changes nothing.

* `Slot`, `outputNames`: the names of the files of a run.
* `probe_of_ran`: what is found of the user's files after a run.
* `mem_preview_of_ran`: what the next run makes of it.
* `generate_reaches_fixpoint`: the second run settles everything.
-/

namespace ContractGen
namespace Generation

open Files Lowering Target

/-! ## Names of files -/

/-- A file that a run writes or looks for. -/
inductive Slot
  | artifact (role : ArtifactRole) (contract : String)
  | standalone (path : String)
deriving DecidableEq

def Slot.name : Slot → String
  | artifact role contract => role.fileName contract
  | standalone path => path

/-- The files of a unit: all roles for each contract, or one file if there is no contract. -/
def unitSlots (u : LoweredUnit) : List Slot :=
  if u.unit.definitions.contracts.isEmpty then
    (standaloneFile? u).toList.map fun e => .standalone e.path
  else
    u.unit.definitions.contracts.flatMap fun c =>
      ArtifactRole.all.map fun role => .artifact role c.name

/-- The names of the files of a run. -/
def outputNames (units : List LoweredUnit) : List String :=
  (units.flatMap unitSlots).map Slot.name

/-- The files of a run have single names, all of them different. -/
structure DistinctOutputs (units : List LoweredUnit) : Prop where
  isName : ∀ name ∈ outputNames units, Disk.IsName name
  nodup : (outputNames units).Nodup

theorem mem_slots_of_contract
    {units : List LoweredUnit} {u : LoweredUnit} {c : Contract}
    (hu : u ∈ units)
    (hc : c ∈ u.unit.definitions.contracts)
    (role : ArtifactRole) :
    Slot.artifact role c.name ∈ units.flatMap unitSlots := by
  refine List.mem_flatMap.mpr ⟨u, hu, ?_⟩
  rw [unitSlots, if_neg (by simpa using List.ne_nil_of_mem hc)]
  exact List.mem_flatMap.mpr ⟨c, hc, List.mem_map_of_mem role.mem_all⟩

namespace Gap

theorem sublist_all_fileName
    (unit : SourceUnit)
    (c : Contract)
    (user : UserFiles)
    (shared : Option Definitions) :
    ((contractFiles unit c user shared).map Entry.path).Sublist
      (ArtifactRole.all.map fun role => role.fileName c.name) := by
  refine List.Sublist.cons_cons _ (List.Sublist.cons_cons _ ?_)
  cases himpl : implFile? unit c.name user with
  | none =>
      exact List.nil_sublist _
  | some e =>
      have hpath : e.path = ArtifactRole.userImpl.fileName c.name :=
        (isArtifactOf_implFile? himpl).path
      refine List.Sublist.cons _ ?_
      simp [hpath]

/-- The laid out files have names of their contracts' artifacts, each at most once and in order. -/
theorem sublist_layOut
    (d : Disk)
    (folder : String)
    (unit : SourceUnit)
    (shared : Option Definitions)
    (cs : List Contract) :
    ((layOut d folder unit shared cs).files.map Entry.path).Sublist
      (cs.flatMap fun c => ArtifactRole.all.map fun role => role.fileName c.name) := by
  induction cs generalizing shared with
  | nil =>
      exact List.Sublist.refl _
  | cons c cs ih =>
      rw [layOut_cons, List.flatMap_cons]
      split
      · exact (ih shared).trans (List.sublist_append_right _ _)
      · rw [List.map_append]
        exact (sublist_all_fileName unit c _ shared).append (ih none)

theorem sublist_serialize
    (d : Disk)
    (folder : String)
    (u : LoweredUnit) :
    ((serialize d folder u).files.map Entry.path).Sublist ((unitSlots u).map Slot.name) := by
  unfold serialize unitSlots
  split
  · exact List.nil_sublist _
  · split
    · rw [List.map_map]
      exact List.Sublist.refl _
    · rw [List.map_flatMap]
      simp only [List.map_map]
      exact sublist_layOut d folder u.unit _ _

end Gap

/-- Ordering a registry only permutes its entries. -/
theorem ordered_perm
    (r : Registry) :
    r.ordered.Perm r.entries := by
  have huser : (r.entries.filter fun e => e.category = .user) =
      r.entries.filter fun e => !decide (e.category = .generated) := by
    refine List.filter_congr ?_
    intro e _
    cases e.category <;> rfl
  rw [Registry.ordered, huser]
  exact List.filter_append_perm _ _

/-- With distinct outputs no path is previewed twice. -/
theorem nodup_preview
    {units : List LoweredUnit}
    (h : DistinctOutputs units)
    (d : Disk)
    (folder : String) :
    ((preview Gap.serializer d folder units).map Entry.path).Nodup := by
  refine ((ordered_perm _).map Entry.path).nodup_iff.mpr ?_
  unfold collect
  split
  · have hnames := h.nodup
    rw [outputNames, List.map_flatMap] at hnames
    dsimp only
    rw [List.flatMap_map, List.map_flatMap]
    exact (List.Sublist.flatMap_right units fun u _ => Gap.sublist_serialize d folder u).nodup
      hnames
  · exact List.nodup_nil

theorem isName_of_mem_preview
    {d : Disk} {folder : String} {units : List LoweredUnit} {e : Entry}
    (h : DistinctOutputs units)
    (he : e ∈ preview Gap.serializer d folder units) :
    Disk.IsName e.path := by
  refine h.isName e.path ?_
  obtain ⟨-, u, hu, hfile⟩ := mem_preview_iff.mp he
  have hpath := (Gap.sublist_serialize d folder u).subset (List.mem_map_of_mem hfile)
  obtain ⟨slot, hslot, hname⟩ := List.mem_map.mp hpath
  rw [← hname]
  exact List.mem_map_of_mem (List.mem_flatMap.mpr ⟨u, hu, hslot⟩)

/-- With distinct outputs the previewed files lead to places that are pairwise apart. -/
theorem apart_preview
    {units : List LoweredUnit}
    (h : DistinctOutputs units)
    (d : Disk)
    (folder : String) :
    Apart folder d (preview Gap.serializer d folder units) := by
  refine (List.pairwise_map.mp (nodup_preview h d folder)).imp_of_mem ?_
  intro e e' he he' hne hplace
  have hinj := d.destination_join_inj folder (isName_of_mem_preview h he)
    (isName_of_mem_preview h he')
  exact hne (hinj.mp hplace)

/-- A file that has the name for a role of a contract is the file for that role. -/
theorem isArtifactOf_of_path
    {d : Disk} {folder : String} {units : List LoweredUnit} {u : LoweredUnit} {c : Contract}
    {role : ArtifactRole} {e : Entry}
    (h : DistinctOutputs units)
    (he : e ∈ preview Gap.serializer d folder units)
    (hu : u ∈ units)
    (hc : c ∈ u.unit.definitions.contracts)
    (hpath : e.path = role.fileName c.name) :
    Gap.IsArtifactOf e role c.name := by
  have hinj := List.inj_on_of_nodup_map h.nodup
  have hslot := mem_slots_of_contract hu hc role
  rcases mem_preview_cases he with ⟨u', hu', c', hc', role', hartifact⟩ | hstandalone
  · have hsame := hinj (mem_slots_of_contract hu' hc' role') hslot (hartifact.path.symm.trans hpath)
    obtain ⟨rfl, hname⟩ : role' = role ∧ c'.name = c.name := by
      simpa using hsame
    exact hname ▸ hartifact
  · obtain ⟨u', hu', hnone, hfile⟩ := hstandalone
    have hmem : Slot.standalone e.path ∈ units.flatMap unitSlots := by
      refine List.mem_flatMap.mpr ⟨u', hu', ?_⟩
      simp [unitSlots, hnone, hfile]
    cases hinj hmem hslot hpath

/-- No run writes a user interface. -/
theorem role_of_mem_preview
    {d : Disk} {folder : String} {units : List LoweredUnit} {e : Entry}
    (h : e ∈ preview Gap.serializer d folder units) :
    e.role ≠ some .userInterface := by
  obtain ⟨hfolder, u, hu, he⟩ := mem_preview_iff.mp h
  by_cases hnone : u.unit.definitions.contracts = []
  · have hfile : standaloneFile? u = some e := by
      simpa [Gap.serializer, Gap.serialize, hfolder, hnone] using he
    have hrole : e.role = none := (IsStandalone.role_and_overwrite ⟨u, hu, hnone, hfile⟩).1
    simp [hrole]
  · have hlaidOut : e ∈ (Gap.serialize d folder u).files := he
    rw [Gap.serialize_eq_layOut hfolder hnone] at hlaidOut
    exact (Gap.role_of_mem_layOut hlaidOut).1

/-! ## What a layout makes of the user's files -/

namespace Gap

/-- What is found of the user's files after files with the given names were written. -/
def UserFiles.after (written : List String) (contract : String) (user : UserFiles) : UserFiles :=
  { user with
    hasImpl := user.hasImpl || decide (ArtifactRole.userImpl.fileName contract ∈ written) }

theorem UserFiles.after_of_notMem
    {written : List String} {contract : String}
    (h : ArtifactRole.userImpl.fileName contract ∉ written)
    (user : UserFiles) :
    user.after written contract = user := by
  simp [UserFiles.after, h]

/-- A user interface is read alike on two disks that hold the same bytes at its path. -/
theorem readInterface_congr
    {d d' : Disk} {folder contract : String}
    (h : ∀ bytes,
      d'.readBytes (ArtifactRole.userInterface.pathIn folder contract) = .ok bytes ↔
        d.readBytes (ArtifactRole.userInterface.pathIn folder contract) = .ok bytes)
    (enums : List String) :
    readInterface d' folder contract enums = readInterface d folder contract enums := by
  have hfile : d'.isFile (ArtifactRole.userInterface.pathIn folder contract) =
      d.isFile (ArtifactRole.userInterface.pathIn folder contract) := by
    rw [Bool.eq_iff_iff, Disk.isFile_iff, Disk.isFile_iff]
    exact exists_congr h
  cases hcase : d.isFile (ArtifactRole.userInterface.pathIn folder contract) with
  | false =>
      simp [readInterface, hfile, hcase]
  | true =>
      obtain ⟨bytes, hread⟩ := Disk.isFile_iff.mp hcase
      have hparse : Source.parseFile d' (ArtifactRole.userInterface.pathIn folder contract) =
          Source.parseFile d (ArtifactRole.userInterface.pathIn folder contract) := by
        simp [Source.parseFile, Disk.read, hread, (h bytes).mpr hread]
      simp [readInterface, hfile, hcase, hparse]

/-- The base implementation of a contract for which an implementation was written. -/
def IsRebased (written : List String) (es : List Entry) (e : Entry) (c : Contract) : Prop :=
  ArtifactRole.userImpl.fileName c.name ∈ written ∧
    IsArtifactOf e .generatedBaseImpl c.name ∧
    ∃ old ∈ es, IsArtifactOf old .generatedBaseImpl c.name

theorem IsRebased.mono
    {written : List String} {es es' : List Entry} {e : Entry} {c : Contract}
    (h : IsRebased written es e c)
    (hsub : es ⊆ es') :
    IsRebased written es' e c := by
  obtain ⟨hwritten, hartifact, old, hold, hspec⟩ := h
  exact ⟨hwritten, hartifact, old, hsub hold, hspec⟩

theorem mem_contractFiles_after
    {unit : SourceUnit} {c : Contract} {user : UserFiles} {shared : Option Definitions}
    {written : List String} {e : Entry}
    (h : e ∈ contractFiles unit c (user.after written c.name) shared) :
    e ∈ contractFiles unit c user shared ∨
      IsRebased written (contractFiles unit c user shared) e c := by
  by_cases hwritten : ArtifactRole.userImpl.fileName c.name ∈ written
  · rcases List.mem_append.mp h with hgenerated | himpl
    · rw [List.mem_cons, List.mem_singleton] at hgenerated
      rcases hgenerated with rfl | rfl
      · exact Or.inl (by simp [contractFiles, UserFiles.after])
      · refine Or.inr ⟨hwritten, isArtifactOf_artifact _ _ _, ?_⟩
        refine ⟨_, List.mem_append_left _ (List.mem_cons_of_mem _ List.mem_cons_self), ?_⟩
        exact isArtifactOf_artifact _ _ _
    · simp [implFile?, UserFiles.after, hwritten] at himpl
  · rw [UserFiles.after_of_notMem hwritten] at h
    exact Or.inl h

section LayOut

variable {d d' : Disk} {folder : String} {unit : SourceUnit} {cs : List Contract}

/-- The layout depends on the disk through the probes of the contracts alone. -/
theorem layOut_congr
    (h : ∀ c ∈ cs,
      probe d' folder c.name unit.enumerationNames = probe d folder c.name unit.enumerationNames)
    (shared : Option Definitions) :
    layOut d' folder unit shared cs = layOut d folder unit shared cs := by
  induction cs generalizing shared with
  | nil =>
      rfl
  | cons c cs ih =>
      have hrest := ih fun c' hc' => h c' (List.mem_cons_of_mem c hc')
      rw [layOut_cons, layOut_cons, h c List.mem_cons_self]
      simp only [hrest]

theorem mem_layOut_after
    {written : List String} {shared : Option Definitions} {e : Entry}
    (hprobe : ∀ c ∈ cs,
      probe d' folder c.name unit.enumerationNames =
        (probe d folder c.name unit.enumerationNames).map (UserFiles.after written c.name))
    (h : e ∈ (layOut d' folder unit shared cs).files) :
    e ∈ (layOut d folder unit shared cs).files ∨
      ∃ c ∈ cs, IsRebased written (layOut d folder unit shared cs).files e c := by
  induction cs generalizing shared with
  | nil =>
      exact Or.inl h
  | cons c cs ih =>
      have hrest := fun c' hc' => hprobe c' (List.mem_cons_of_mem c hc')
      rw [layOut_cons, hprobe c List.mem_cons_self] at h
      rw [layOut_cons]
      cases huser : probe d folder c.name unit.enumerationNames with
      | error f =>
          rw [huser] at h
          rcases ih hrest h with hsame | ⟨c', hc', hrebased⟩
          · exact Or.inl hsame
          · exact Or.inr ⟨c', List.mem_cons_of_mem c hc', hrebased⟩
      | ok user =>
          rw [huser] at h
          rcases List.mem_append.mp h with hhere | hlater
          · rcases mem_contractFiles_after hhere with hsame | hrebased
            · exact Or.inl (List.mem_append_left _ hsame)
            · exact Or.inr ⟨c, List.mem_cons_self, hrebased.mono (List.subset_append_left _ _)⟩
          · rcases ih hrest hlater with hsame | ⟨c', hc', hrebased⟩
            · exact Or.inl (List.mem_append_right _ hsame)
            · exact Or.inr ⟨c', List.mem_cons_of_mem c hc',
                hrebased.mono (List.subset_append_right _ _)⟩

end LayOut

end Gap

/-! ## The next run -/

/-- What a run comes to whose files are all there already. -/
def Collected.renewal (collected : Collected) : Generated :=
  collected.report (renewals {} collected.registry.ordered)

section AfterRun

variable {d d' : Disk} {folder : String} {units : List LoweredUnit} {written : List String}
  (hran : Ran folder (preview Gap.serializer d folder units) written d d')

include hran

/-- Every previewed file that is always overwritten is among those the run wrote. -/
theorem path_mem_written_of_always
    {e : Entry}
    (he : e ∈ preview Gap.serializer d folder units)
    (halways : e.overwrite = .always) :
    e.path ∈ written := by
  by_contra hnot
  have hmissing := (hran.kept e he hnot).1
  rw [halways] at hmissing
  cases hmissing

variable (hfolder : d.isFolder folder = true) (hunits : DistinctOutputs units)

include hfolder hunits

/-- A run changes what is found of the user's files only by the implementations that it writes. -/
theorem probe_of_ran
    {u : LoweredUnit} {c : Contract}
    (hu : u ∈ units)
    (hc : c ∈ u.unit.definitions.contracts)
    (enums : List String) :
    Gap.probe d' folder c.name enums =
      (Gap.probe d folder c.name enums).map (Gap.UserFiles.after written c.name) := by
  have hname : ∀ role : ArtifactRole, Disk.IsName (role.fileName c.name) := fun role =>
    hunits.isName _ (List.mem_map_of_mem (mem_slots_of_contract hu hc role))
  have hnames : ∀ e ∈ preview Gap.serializer d folder units, Disk.IsName e.path :=
    fun e he => isName_of_mem_preview hunits he
  have hkept : ArtifactRole.userInterface.fileName c.name ∉ written := by
    intro hwritten
    obtain ⟨e, he, hpath⟩ := hran.listed _ hwritten
    exact role_of_mem_preview he (isArtifactOf_of_path hunits he hu hc hpath).role
  have hread := Gap.readInterface_congr
    (hran.readBytes_iff hfolder hnames (hname .userInterface) hkept) enums
  have himpl := hran.isFile_eq hfolder hnames (hname .userImpl)
  rw [Gap.probe, Gap.probe, hread]
  cases Gap.readInterface d folder c.name enums with
  | error f =>
      rfl
  | ok interface =>
      simp [Except.map, Gap.UserFiles.after, ArtifactRole.pathIn, himpl]

theorem collect_of_ran
    (hnone : ∀ u ∈ units, ∀ c ∈ u.unit.definitions.contracts,
      ArtifactRole.userImpl.fileName c.name ∉ written) :
    collect Gap.serializer d' folder units = collect Gap.serializer d folder units := by
  have hfolder' := hran.keeps.isFolder hfolder
  have hsame : ∀ u ∈ units, Gap.serialize d' folder u = Gap.serialize d folder u := by
    intro u hu
    by_cases hcontracts : u.unit.definitions.contracts = []
    · simp [Gap.serialize, hfolder, hfolder', hcontracts]
    · rw [Gap.serialize_eq_layOut hfolder hcontracts, Gap.serialize_eq_layOut hfolder' hcontracts]
      refine Gap.layOut_congr ?_ _
      intro c hc
      rw [probe_of_ran hran hfolder hunits hu hc]
      cases Gap.probe d folder c.name u.unit.enumerationNames with
      | error f =>
          rfl
      | ok user =>
          rw [Except.map, Gap.UserFiles.after_of_notMem (hnone u hu c hc)]
  have hall : units.map (Gap.serializer.serialize d' folder) =
      units.map (Gap.serializer.serialize d folder) :=
    List.map_congr_left hsame
  simp only [collect, hfolder, hfolder', hall]

/-- The next run differs in base implementations of contracts whose implementation was written. -/
theorem mem_preview_of_ran
    {e : Entry}
    (he : e ∈ preview Gap.serializer d' folder units) :
    e ∈ preview Gap.serializer d folder units ∨
      ∃ u ∈ units, ∃ c ∈ u.unit.definitions.contracts,
        Gap.IsRebased written (preview Gap.serializer d folder units) e c := by
  obtain ⟨hfolder', u, hu, hfile⟩ := mem_preview_iff.mp he
  have hsub : (Gap.serialize d folder u).files ⊆ preview Gap.serializer d folder units :=
    fun e' he' => mem_preview_iff.mpr ⟨hfolder, u, hu, he'⟩
  have hlaidOut : e ∈ (Gap.serialize d' folder u).files := hfile
  by_cases hcontracts : u.unit.definitions.contracts = []
  · refine Or.inl (hsub ?_)
    simpa [Gap.serialize, hfolder, hfolder', hcontracts] using hlaidOut
  · rw [Gap.serialize_eq_layOut hfolder' hcontracts] at hlaidOut
    rw [Gap.serialize_eq_layOut hfolder hcontracts] at hsub
    have hprobe := fun c hc =>
      probe_of_ran hran hfolder hunits hu (c := c) hc u.unit.enumerationNames
    rcases Gap.mem_layOut_after hprobe hlaidOut with hsame | ⟨c, hc, hrebased⟩
    · exact Or.inl (hsub hsame)
    · exact Or.inr ⟨u, hu, c, hc, hrebased.mono hsub⟩

/-- After a run every previewed file can be refreshed. -/
theorem refreshable_of_ran
    {e : Entry}
    (he : e ∈ preview Gap.serializer d' folder units) :
    e.Refreshable folder d' := by
  rcases mem_preview_of_ran hran hfolder hunits he with
    hsame | ⟨u, hu, c, hc, -, hartifact, old, hold, hspec⟩
  · exact hran.refreshable hfolder (fun e he => isName_of_mem_preview hunits he) hsame
  · -- The base implementation that was there goes to the same place.
    have hready := hran.ready old hold (path_mem_written_of_always hran hold hspec.overwrite)
    have hplace : e.fullPath folder = old.fullPath folder := by
      rw [Entry.fullPath, Entry.fullPath, hartifact.path, hspec.path]
    exact Or.inl ⟨hartifact.overwrite, hplace ▸ hready⟩

/-- If no user implementation was written, the next run changes nothing on the disk. -/
theorem generate_settled
    (hnone : ∀ u ∈ units, ∀ c ∈ u.unit.definitions.contracts,
      ArtifactRole.userImpl.fileName c.name ∉ written) :
    generate Gap.serializer d' folder units =
      (d', .ok (collect Gap.serializer d folder units).renewal) := by
  have hsame := collect_of_ran hran hfolder hunits hnone
  have hpreview : preview Gap.serializer d' folder units =
      preview Gap.serializer d folder units := by
    rw [preview, preview, hsame]
  have hwrite := writeEntries_settled (fun e he => refreshable_of_ran hran hfolder hunits he)
    (fun e he halways => by
      rw [hpreview] at he
      rw [Disk.destination_congr hran.keeps.here]
      exact hran.bytes e he (path_mem_written_of_always hran he halways))
    {}
  refine generate_eq_ok_iff.mpr ⟨_, hwrite, ?_⟩
  rw [preview, hsame]
  rfl

/-- The next run succeeds, and nothing but such base implementations is different after it. -/
theorem generate_again :
    ∃ d'',
      generate Gap.serializer d' folder units =
        (d'', .ok (collect Gap.serializer d' folder units).renewal) ∧
      ∀ place, d''.view? place ≠ d'.view? place →
        ∃ u ∈ units, ∃ c ∈ u.unit.definitions.contracts,
          ArtifactRole.userImpl.fileName c.name ∈ written ∧
          place = d.destination (ArtifactRole.generatedBaseImpl.pathIn folder c.name) := by
  obtain ⟨d'', hwrite, hviews⟩ := writeEntries_refresh
    (fun e he => refreshable_of_ran hran hfolder hunits he) {}
  refine ⟨d'', generate_eq_ok_iff.mpr ⟨_, hwrite, rfl⟩, ?_⟩
  intro place hplace
  obtain ⟨e, he, halways, hdest, hbytes⟩ := hviews place hplace
  rw [Disk.destination_congr hran.keeps.here] at hdest
  rcases mem_preview_of_ran hran hfolder hunits he with
    hsame | ⟨u, hu, c, hc, himpl, hartifact, -⟩
  · -- This file was written by the run before, with the same bytes.
    have hwritten := path_mem_written_of_always hran hsame halways
    rw [hdest] at hbytes
    exact absurd (hran.bytes e hsame hwritten) hbytes
  · refine ⟨u, hu, c, hc, himpl, ?_⟩
    rw [hdest, Entry.fullPath, hartifact.path, ArtifactRole.pathIn]

end AfterRun

/-! ## Runs one after the other -/

/-- A run that succeeds has carried out its preview. -/
theorem ran_of_generate
    {d d' : Disk} {folder : String} {units : List LoweredUnit} {report : Generated}
    (hunits : DistinctOutputs units)
    (h : generate Gap.serializer d folder units = (d', .ok report)) :
    Ran folder (preview Gap.serializer d folder units) report.written d d' := by
  obtain ⟨stats, hwrite, rfl⟩ := generate_eq_ok_iff.mp h
  obtain ⟨written, hstats, hran⟩ := writeEntries_ran hwrite (apart_preview hunits d folder)
  obtain rfl : stats.written = written := by
    simpa using hstats
  exact hran

/-- A run whose files are all there already writes no file of the user. -/
theorem userImpl_notMem_renewal
    {d : Disk} {folder : String} {units : List LoweredUnit} {u : LoweredUnit} {c : Contract}
    (hunits : DistinctOutputs units)
    (hu : u ∈ units)
    (hc : c ∈ u.unit.definitions.contracts) :
    ArtifactRole.userImpl.fileName c.name ∉
      (collect Gap.serializer d folder units).renewal.written := by
  intro hwritten
  rcases mem_written_renewals hwritten with hnone | ⟨e, he, halways, hpath⟩
  · cases hnone
  · have hrule := (isArtifactOf_of_path hunits he hu hc hpath).overwrite
    rw [halways] at hrule
    cases hrule

/--
Generating again settles everything. The second run succeeds and changes at most the base
implementations of contracts for which the first wrote an implementation; if there are none, it
leaves the disk as it is. Every run after it leaves the disk as it is and comes to the same.
-/
theorem generate_reaches_fixpoint
    {d d₁ : Disk} {folder : String} {units : List LoweredUnit} {report₁ : Generated}
    (hfolder : d.isFolder folder = true)
    (hunits : DistinctOutputs units)
    (hrun : generate Gap.serializer d folder units = (d₁, .ok report₁)) :
    ∃ d₂ report₂,
      generate Gap.serializer d₁ folder units = (d₂, .ok report₂) ∧
      generate Gap.serializer d₂ folder units = (d₂, .ok report₂) ∧
      ((∀ u ∈ units, ∀ c ∈ u.unit.definitions.contracts,
        ArtifactRole.userImpl.fileName c.name ∉ report₁.written) → d₂ = d₁) ∧
      ∀ place, d₂.view? place ≠ d₁.view? place →
        ∃ u ∈ units, ∃ c ∈ u.unit.definitions.contracts,
          ArtifactRole.userImpl.fileName c.name ∈ report₁.written ∧
          place = d.destination (ArtifactRole.generatedBaseImpl.pathIn folder c.name) := by
  have hran := ran_of_generate hunits hrun
  obtain ⟨d₂, hagain, hviews⟩ := generate_again hran hfolder hunits
  refine ⟨d₂, _, hagain, ?_, ?_, hviews⟩
  · exact generate_settled (ran_of_generate hunits hagain) (hran.keeps.isFolder hfolder) hunits
      fun u hu c hc => userImpl_notMem_renewal hunits hu hc
  · intro hnone
    have hsettled := generate_settled hran hfolder hunits hnone
    rw [hagain] at hsettled
    exact congrArg Prod.fst hsettled

theorem generate_till :
    (generate Gap.serializer Gap.tillDisk "out" [Gap.tillUnit]).2 =
      .ok
        { written := ["Vault.sol", "VaultBaseImpl.sol", "VaultImpl.sol"]
          skippedContracts :=
            [⟨"Till", "Failed to read user interface of Till: Failed to parse out/TillBase.sol: " ++
              "1:11: expected an interface name, found '\x7b'"⟩] } := by
  decide +kernel

/-- The second run changes the base implementation of `Vault`, and no other file. -/
theorem generate_reaches_fixpoint_till :
    let d₁ := (generate Gap.serializer Gap.tillDisk "out" [Gap.tillUnit]).1
    ∃ d₂ report₂,
      generate Gap.serializer d₁ "out" [Gap.tillUnit] = (d₂, .ok report₂) ∧
      generate Gap.serializer d₂ "out" [Gap.tillUnit] = (d₂, .ok report₂) ∧
      d₂.readBytes "out/VaultBaseImpl.sol" ≠ d₁.readBytes "out/VaultBaseImpl.sol" ∧
      ∀ place, d₂.view? place ≠ d₁.view? place → place = ["out", "VaultBaseImpl.sol"] := by
  intro d₁
  obtain ⟨d₂, report₂, hsecond, hthird, -, hviews⟩ :=
    generate_reaches_fixpoint
      (by decide +kernel)
      ⟨by decide +kernel, by decide +kernel⟩
      (Prod.ext rfl generate_till)
  have hchanged :
      (generate Gap.serializer d₁ "out" [Gap.tillUnit]).1.readBytes "out/VaultBaseImpl.sol" ≠
        d₁.readBytes "out/VaultBaseImpl.sol" := by
    decide +kernel
  rw [hsecond] at hchanged
  refine ⟨d₂, report₂, hsecond, hthird, hchanged, ?_⟩
  intro place hplace
  obtain ⟨u, hu, c, hc, hwritten, rfl⟩ := hviews place hplace
  obtain rfl := List.mem_singleton.mp hu
  have hcontract : c.name = "Till" ∨ c.name = "Vault" := by
    simpa [Gap.tillUnit] using List.mem_map_of_mem (f := Target.Contract.name) hc
  rcases hcontract with hname | hname
  · rw [hname] at hwritten
    exact absurd hwritten (by decide +kernel)
  · rw [hname]
    decide +kernel

end Generation
end ContractGen
