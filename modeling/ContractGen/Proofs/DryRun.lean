import ContractGen.Command.Generate
import ContractGen.Proofs.FolderWrites
import ContractGen.Proofs.Regeneration

/-!
# What a dry run foretells

A dry run shows the files of a run without writing them. A run without it goes through the same files
in the same order, so what was shown is what is written, unless a file of the user is there already.

* `preview_of_isFolder`, `preview_of_not_isFolder`: what is shown.
* `generate_of_not_isFolder`: a run without an output folder.
* `carried_of_generate`: a run over different single names, in terms of what is shown.
* `generate_as_previewed`: a dry run and a run compared.
-/

namespace ContractGen
namespace Generation

open Domain (Configuration)
open Files Lowering Pipeline

section Run

variable {s : Serializer} {d : Disk} {folder : String} {units : List LoweredUnit}

/-- The files that the units of a run ask for, in the order of the units. -/
def registered (s : Serializer) (d : Disk) (folder : String) (units : List LoweredUnit) :
    List Entry :=
  units.flatMap fun u => (s.serialize d folder u).files

theorem preview_of_isFolder
    (h : d.isFolder folder = true) :
    preview s d folder units =
      (registered s d folder units).filter (fun e => e.category = .generated) ++
        (registered s d folder units).filter fun e => e.category = .user := by
  simp only [preview, collect, h, if_true, Registry.ordered, registered, List.flatMap_map]

theorem preview_of_not_isFolder
    (h : d.isFolder folder = false) :
    preview s d folder units = [] := by
  simp [preview, collect, h, Registry.ordered]

theorem generate_of_not_isFolder
    (h : d.isFolder folder = false) :
    generate s d folder units =
      (d, .ok { skippedUnits := units.map fun u => u.unit.name }) := by
  simp [generate, collect, h, Registry.writeAll, Registry.ordered, writeEntries]

theorem perm_registered
    (h : d.isFolder folder = true)
    (s : Serializer)
    (units : List LoweredUnit) :
    (preview s d folder units).Perm (registered s d folder units) := by
  have hperm := ordered_perm (collect s d folder units).registry
  rw [← preview] at hperm
  simpa only [collect, h, if_true, List.flatMap_map, registered] using hperm

/-- A run over different single names, in terms of what is shown. -/
theorem carried_of_generate
    {d' : Disk} {report : Generated}
    (hnames : ∀ e ∈ registered s d folder units, Disk.IsName e.path)
    (hnodup : ((registered s d folder units).map Entry.path).Nodup)
    (h : generate s d folder units = (d', .ok report)) :
    writeEntries folder d {} (preview s d folder units) =
        (d', .ok ⟨report.written, report.kept⟩) ∧
      Carried folder (preview s d folder units) d d' ∧
      (⟨report.written, report.kept⟩ : WriteStats) =
        WriteStats.after folder d {} (preview s d folder units) := by
  obtain ⟨stats, hwrite, rfl⟩ := generate_eq_ok_iff.mp h
  cases hfolder : d.isFolder folder with
  | false =>
      rw [preview_of_not_isFolder hfolder] at hwrite ⊢
      cases hwrite
      exact ⟨rfl, ⟨Disk.Keeps.refl d, by simp, fun _ _ => rfl⟩, rfl⟩
  | true =>
      have hperm := perm_registered hfolder s units
      obtain ⟨hcarried, hstats⟩ := writeEntries_names hfolder
        (fun e he => hnames e (hperm.mem_iff.mp he))
        ((hperm.map Entry.path).nodup_iff.mpr hnodup) hwrite
      exact ⟨hwrite, hcarried, hstats⟩

section Carried

variable {d' : Disk} {e : Entry}
  (hnames : ∀ e ∈ registered s d folder units, Disk.IsName e.path)
  (hcarried : Carried folder (preview s d folder units) d d')
  (he : e ∈ preview s d folder units)

include hnames hcarried he

theorem readBytes_of_carried
    (hmoves : ¬ e.Stays folder d) :
    d'.readBytes (e.fullPath folder) = .ok e.content.toUTF8 := by
  obtain ⟨hfolder, -⟩ := mem_preview_iff.mp he
  have hname := hnames e ((perm_registered hfolder s units).mem_iff.mp he)
  obtain ⟨hfits, hview⟩ := hcarried.written e he hmoves
  rw [Entry.fullPath, Disk.destination_join d folder hname] at hview
  rw [Entry.fullPath, Disk.readBytes_join_iff (hcarried.keeps.isFolder hfolder) hname,
    Disk.destination_congr hcarried.keeps.here]
  exact ⟨hfits, hview⟩

theorem readBytes_of_stays
    (hnodup : ((registered s d folder units).map Entry.path).Nodup)
    (hstays : e.Stays folder d) :
    d'.readBytes (e.fullPath folder) = d.readBytes (e.fullPath folder) := by
  obtain ⟨hfolder, -⟩ := mem_preview_iff.mp he
  have hperm := perm_registered hfolder s units
  have hname := hnames e (hperm.mem_iff.mp he)
  have hinj := List.inj_on_of_nodup_map ((hperm.map Entry.path).nodup_iff.mpr hnodup)
  obtain ⟨hfits, hsome⟩ := (Disk.holds_join_iff hfolder hname).mp hstays.2
  obtain ⟨view, hview⟩ := Option.isSome_iff_exists.mp hsome
  -- No file that is written goes to this place.
  have hkept := hcarried.others (d.destination folder ++ [e.path]) fun e' he' hmoves hplace => by
    have hname' := hnames e' (hperm.mem_iff.mp he')
    rw [Entry.fullPath, ← Disk.destination_join d folder hname] at hplace
    have hpath := (d.destination_join_inj folder hname hname').mp hplace
    rw [hinj he he' hpath] at hstays
    exact hmoves hstays
  have hview' : d'.view? (d'.destination folder ++ [e.path]) = some view := by
    rw [Disk.destination_congr hcarried.keeps.here, hkept, hview]
  rw [Entry.fullPath, Disk.readBytes_join_of_view? hfolder hname hfits hview,
    Disk.readBytes_join_of_view? (hcarried.keeps.isFolder hfolder) hname hfits hview']

end Carried

end Run

/--
A dry run and a run. The dry run leaves the disk as it is and shows the files that the run goes
through: generated ones first, else in the order in which units ask for them. If all writes succeed
and the files have different single names, every file that is always written has the content that was
shown, every other one has it unless something was there before, and nothing else on the disk is
different. The report of the run names each file once, and as kept those that were there before and
are written only if missing. Without an output folder nothing is shown and nothing changes.
-/
theorem generate_as_previewed
    (s : Serializer)
    (d : Disk)
    (c : Configuration)
    (context : Context) :
    let entries := preview s d c.output context.units
    let asked := registered s d c.output context.units
    Command.layOut d s c true context =
        (d, .ok
          { serializer := s.name
            diagnostics := context.diagnostics
            result := .preview c.output entries (d.isFolder c.output) }) ∧
    (d.isFolder c.output = false →
      entries = [] ∧
      generate s d c.output context.units =
        (d, .ok { skippedUnits := context.units.map fun u => u.unit.name })) ∧
    (d.isFolder c.output = true →
      entries =
        asked.filter (fun e => e.category = .generated) ++
          asked.filter fun e => e.category = .user) ∧
    ∀ (d' : Disk) (report : Generated),
      (∀ e ∈ asked, Disk.IsName e.path) →
      (asked.map Entry.path).Nodup →
      generate s d c.output context.units = (d', .ok report) →
      writeEntries c.output d {} entries = (d', .ok ⟨report.written, report.kept⟩) ∧
      (∀ e ∈ entries, e.overwrite = .always →
        d'.readBytes (e.fullPath c.output) = .ok e.content.toUTF8) ∧
      (∀ e ∈ entries, e.overwrite = .ifMissing →
        d'.readBytes (e.fullPath c.output) =
          if d.holds (e.fullPath c.output) then d.readBytes (e.fullPath c.output)
          else .ok e.content.toUTF8) ∧
      (∀ place,
        (∀ e ∈ entries, place ≠ d.destination (e.fullPath c.output)) →
        d'.view? place = d.view? place) ∧
      (report.written ++ report.kept).Perm (entries.map Entry.path) ∧
      report.kept =
        (entries.filter fun e =>
          e.overwrite = .ifMissing ∧ d.holds (e.fullPath c.output) = true).map Entry.path := by
  intro entries asked
  refine ⟨rfl, fun h => ⟨preview_of_not_isFolder h, generate_of_not_isFolder h⟩,
    preview_of_isFolder, ?_⟩
  intro d' report hnames hnodup hrun
  obtain ⟨hwrite, hcarried, hstats⟩ := carried_of_generate hnames hnodup hrun
  -- A file that does not stay has the content that was shown.
  have hshown : ∀ e ∈ entries, ¬ e.Stays c.output d →
      d'.readBytes (e.fullPath c.output) = .ok e.content.toUTF8 := by
    intro e he hmoves
    exact readBytes_of_carried hnames hcarried he hmoves
  refine ⟨hwrite, ?_, ?_, ?_, ?_, ?_⟩
  · intro e he halways
    exact hshown e he (by simp [Entry.Stays, halways])
  · intro e he hmissing
    split
    · rename_i hholds
      exact readBytes_of_stays hnames hcarried he hnodup ⟨hmissing, hholds⟩
    · rename_i hholds
      exact hshown e he (by simp [Entry.Stays, hholds])
  · intro place hplace
    exact hcarried.others place fun e he _ => hplace e he
  · have hwritten : report.written = (entries.filter fun e => ¬ e.Stays c.output d).map Entry.path :=
      congrArg WriteStats.written hstats
    have hkept : report.kept = (entries.filter fun e => e.Stays c.output d).map Entry.path :=
      congrArg WriteStats.skipped hstats
    rw [hwritten, hkept, ← List.map_append]
    refine (List.perm_append_comm.trans ?_).map Entry.path
    simpa using List.filter_append_perm (fun e : Entry => e.Stays c.output d) entries
  · exact congrArg WriteStats.skipped hstats

/-- A contract without members. -/
def vaultContext : Context :=
  { models := []
    units :=
      [{ unit :=
          { name := "Bank"
            license := "MIT"
            pragma := "^0.8.0"
            definitions := { contracts := [{ name := "Vault", definitions := {} }] } }
         origin := "bank.json" }] }

/-- A folder with declarations of the user, and with a folder in the place of an implementation. -/
def occupiedDisk : Disk :=
  { root := .folder
      [("out", .folder
        [("VaultBase.sol", .file "interface Extras \x7b\x7d".toUTF8),
          ("VaultImpl.sol", .folder [("notes", .file "later".toUTF8)])])] }

/-- What is in the way of the implementation is kept, and the other two files are as shown. -/
theorem generate_as_previewed_occupied :
    let entries := preview Gap.serializer occupiedDisk "out" vaultContext.units
    let d' := (generate Gap.serializer occupiedDisk "out" vaultContext.units).1
    entries.map Entry.path = ["Vault.sol", "VaultBaseImpl.sol", "VaultImpl.sol"] ∧
    (∀ e ∈ entries, e.overwrite = .always →
      d'.readBytes (e.fullPath "out") = .ok e.content.toUTF8) ∧
    d'.view? ["out", "VaultImpl.sol", "notes"] = some (.file "later".toUTF8) ∧
    ["VaultImpl.sol"] =
      (entries.filter fun e =>
        e.overwrite = .ifMissing ∧ occupiedDisk.holds (e.fullPath "out") = true).map
          Entry.path := by
  intro entries d'
  have hrun :
      (generate Gap.serializer occupiedDisk "out" vaultContext.units).2 =
        .ok { written := ["Vault.sol", "VaultBaseImpl.sol"], kept := ["VaultImpl.sol"] } := by
    decide +kernel
  obtain ⟨-, halways, -, hothers, -, hkept⟩ :=
    (generate_as_previewed Gap.serializer occupiedDisk { output := "out" } vaultContext).2.2.2
      d' _ (by decide +kernel) (by decide +kernel) (Prod.ext rfl hrun)
  refine ⟨by decide +kernel, halways, ?_, hkept⟩
  exact (hothers ["out", "VaultImpl.sol", "notes"] (by decide +kernel)).trans rfl

end Generation
end ContractGen
