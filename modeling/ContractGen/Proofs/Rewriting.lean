import ContractGen.Proofs.ExistingFiles
import ContractGen.Proofs.Writing

/-!
# Writing a registry again

A run over entries that go to different places leaves every file that it wrote with the bytes of its
entry, and ready to be written again; an entry that it skipped has something at its place. From then
on the same entries change only files whose bytes are to be different, and if there are none the disk
stays as it is.

* `writeEntries_ran`: what any successful run leaves behind.
* `writeEntries_refresh`: a run over entries that are refreshable succeeds.
* `writeEntries_settled`: a run over entries whose files are as they should be changes nothing.
-/

namespace ContractGen
namespace Files

open Disk

/-! ## One entry -/

theorem Entry.ready_of_write
    {e : Entry} {folder : String} {d d' : Disk}
    (h : e.write folder d = (d', .ok .written)) :
    d'.Ready (e.fullPath folder) := by
  rw [Entry.write, Overwrite.apply] at h
  split at h
  · cases h
  · split at h
    · rename_i hwrite
      cases h
      exact Disk.ready_of_write hwrite
    · cases h

/-- Whether the place of an entry is such that writing it succeeds. -/
def Entry.Refreshable (folder : String) (d : Disk) (e : Entry) : Prop :=
  (e.overwrite = .always ∧ d.Ready (e.fullPath folder)) ∨
    (e.overwrite = .ifMissing ∧ d.holds (e.fullPath folder) = true)

/-- What becomes of an entry for which there is a file already. -/
def Entry.renewal (e : Entry) : WriteResult :=
  match e.overwrite with
  | .always => .written
  | .ifMissing => .skipped

theorem Entry.write_of_ready
    {e : Entry} {folder : String} {d : Disk}
    (halways : e.overwrite = .always)
    (hready : d.Ready (e.fullPath folder)) :
    e.write folder d =
        (d.put (d.destination (e.fullPath folder)) (.file e.content.toUTF8), .ok e.renewal) ∧
      d.Puts (d.put (d.destination (e.fullPath folder)) (.file e.content.toUTF8))
        (d.destination (e.fullPath folder)) (.file e.content.toUTF8) := by
  obtain ⟨hwrite, hputs⟩ := hready.write e.content.toUTF8
  refine ⟨?_, hputs⟩
  have hrenewal : e.renewal = .written := by
    simp [Entry.renewal, halways]
  rw [Entry.write, Overwrite.apply, if_neg (by simp [halways]), Disk.write, hwrite, hrenewal]

theorem Entry.write_of_holds
    {e : Entry} {folder : String} {d : Disk}
    (hmissing : e.overwrite = .ifMissing)
    (hholds : d.holds (e.fullPath folder) = true) :
    e.write folder d = (d, .ok e.renewal) := by
  simp [Entry.write, Overwrite.apply, Entry.renewal, hmissing, hholds]

/-- An entry that can be refreshed still can be after another file was put. -/
theorem Entry.Refreshable.overlays
    {e : Entry} {folder : String} {d d' : Disk} {place : Place} {content : ByteArray}
    (h : e.Refreshable folder d)
    (hover : d.Overlays d' place content) :
    e.Refreshable folder d' := by
  rcases h with ⟨halways, hready⟩ | ⟨hmissing, hholds⟩
  · exact Or.inl ⟨halways, hready.overlays hover⟩
  · exact Or.inr ⟨hmissing, hover.keeps.holds hholds⟩

/-! ## What a run leaves behind -/

/-- Entries that were handled by a run that wrote files with the given paths. -/
structure Ran (folder : String) (es : List Entry) (written : List String) (d d' : Disk) :
    Prop where
  keeps : d.Keeps d'
  others : ∀ p,
    (∀ e ∈ es, e.path ∈ written → p ≠ d.destination (e.fullPath folder)) →
    d'.view? p = d.view? p ∨ d.view? p = none ∧ d'.view? p = some .folder
  ready : ∀ e ∈ es, e.path ∈ written → d'.Ready (e.fullPath folder)
  bytes : ∀ e ∈ es, e.path ∈ written →
    d'.view? (d.destination (e.fullPath folder)) = some (.file e.content.toUTF8)
  kept : ∀ e ∈ es, e.path ∉ written →
    e.overwrite = .ifMissing ∧ d'.holds (e.fullPath folder) = true
  listed : ∀ path ∈ written, ∃ e ∈ es, e.path = path

/-- Entries that lead to different places. -/
def Apart (folder : String) (d : Disk) (es : List Entry) : Prop :=
  es.Pairwise fun e e' => d.destination (e.fullPath folder) ≠ d.destination (e'.fullPath folder)

theorem Apart.congr
    {folder : String} {d d' : Disk} {es : List Entry}
    (h : Apart folder d es)
    (hhere : d'.here = d.here) :
    Apart folder d' es := by
  refine h.imp ?_
  intro e e' hne
  rwa [destination_congr hhere, destination_congr hhere]

section Run

variable {folder : String} {e : Entry} {es : List Entry} {written : List String} {d d₁ d' : Disk}

theorem ne_of_path_mem
    (hapart : ∀ e' ∈ es, d.destination (e.fullPath folder) ≠ d.destination (e'.fullPath folder))
    {e' : Entry}
    (he' : e' ∈ es) :
    e'.path ≠ e.path := by
  intro hpath
  refine hapart e' he' ?_
  rw [Entry.fullPath, Entry.fullPath, hpath]

theorem Ran.cons_skipped
    (hapart : ∀ e' ∈ es, d.destination (e.fullPath folder) ≠ d.destination (e'.fullPath folder))
    (hmissing : e.overwrite = .ifMissing)
    (hholds : d.holds (e.fullPath folder) = true)
    (h : Ran folder es written d d') :
    Ran folder (e :: es) written d d' := by
  have hnot : e.path ∉ written := by
    intro hmem
    obtain ⟨e', he', hpath⟩ := h.listed _ hmem
    exact ne_of_path_mem hapart he' hpath
  refine ⟨h.keeps, ?_, ?_, ?_, ?_, ?_⟩
  · intro p hp
    exact h.others p fun e' he' => hp e' (List.mem_cons_of_mem e he')
  · intro e' he' hmem
    rcases List.mem_cons.mp he' with rfl | hlater
    · exact absurd hmem hnot
    · exact h.ready e' hlater hmem
  · intro e' he' hmem
    rcases List.mem_cons.mp he' with rfl | hlater
    · exact absurd hmem hnot
    · exact h.bytes e' hlater hmem
  · intro e' he' hmem
    rcases List.mem_cons.mp he' with rfl | hlater
    · exact ⟨hmissing, h.keeps.holds hholds⟩
    · exact h.kept e' hlater hmem
  · intro path hmem
    obtain ⟨e', he', hpath⟩ := h.listed path hmem
    exact ⟨e', List.mem_cons_of_mem e he', hpath⟩

theorem Ran.cons_written
    (hapart : ∀ e' ∈ es, d.destination (e.fullPath folder) ≠ d.destination (e'.fullPath folder))
    (hover : d.Overlays d₁ (d.destination (e.fullPath folder)) e.content.toUTF8)
    (hready : d₁.Ready (e.fullPath folder))
    (h : Ran folder es written d₁ d') :
    Ran folder (e :: es) (e.path :: written) d d' := by
  have hdest : ∀ path, d₁.destination path = d.destination path :=
    destination_congr hover.here
  have hmem_iff : ∀ e' ∈ es, (e'.path ∈ e.path :: written ↔ e'.path ∈ written) := by
    intro e' he'
    simp [ne_of_path_mem hapart he']
  -- No later entry goes to this place.
  have hbytes : d'.view? (d.destination (e.fullPath folder)) = some (.file e.content.toUTF8) := by
    have hgrown := h.others (d.destination (e.fullPath folder)) fun e' he' _ => by
      rw [hdest]
      exact hapart e' he'
    rw [hover.written] at hgrown
    rcases hgrown with hsame | ⟨hnone, -⟩
    · exact hsame
    · cases hnone
  refine ⟨hover.keeps.trans h.keeps, ?_, ?_, ?_, ?_, ?_⟩
  · intro p hp
    refine grown_trans (hover.others p (hp e (by simp) (by simp))) (h.others p ?_)
    intro e' he' hmem
    rw [hdest]
    exact hp e' (List.mem_cons_of_mem e he') ((hmem_iff e' he').mpr hmem)
  · intro e' he' hmem
    rcases List.mem_cons.mp he' with rfl | hlater
    · exact hready.later h.keeps (hdest _ ▸ hbytes)
    · exact h.ready e' hlater ((hmem_iff e' hlater).mp hmem)
  · intro e' he' hmem
    rcases List.mem_cons.mp he' with rfl | hlater
    · exact hbytes
    · rw [← hdest]
      exact h.bytes e' hlater ((hmem_iff e' hlater).mp hmem)
  · intro e' he' hmem
    rcases List.mem_cons.mp he' with rfl | hlater
    · exact absurd List.mem_cons_self hmem
    · exact h.kept e' hlater fun hwritten => hmem ((hmem_iff e' hlater).mpr hwritten)
  · intro path hmem
    rcases List.mem_cons.mp hmem with rfl | hlater
    · exact ⟨e, by simp, rfl⟩
    · obtain ⟨e', he', hpath⟩ := h.listed path hlater
      exact ⟨e', List.mem_cons_of_mem e he', hpath⟩

end Run

/--
Writing entries that lead to places apart is a run: the run lemma over `Ran.cons_skipped` and
`Ran.cons_written`.
-/
theorem writeEntries_ran
    {folder : String} {es : List Entry} {d d' : Disk} {stats stats' : WriteStats}
    (h : writeEntries folder d stats es = (d', .ok stats'))
    (hapart : Apart folder d es) :
    ∃ written, stats'.written = stats.written ++ written ∧ Ran folder es written d d' := by
  induction es generalizing d stats with
  | nil =>
      cases h
      refine ⟨[], by simp, Keeps.refl d', fun _ _ => Or.inl rfl, ?_, ?_, ?_, ?_⟩ <;> simp
  | cons e es ih =>
      rw [writeEntries] at h
      split at h
      · rename_i d₁ result hwrite
        obtain ⟨hfirst, hrest⟩ := List.pairwise_cons.mp hapart
        rcases Entry.write_cases hwrite with
          ⟨rfl, hmissing, hholds, rfl⟩ | ⟨rfl, -, hover⟩
        · obtain ⟨written, hstats, hran⟩ := ih h hrest
          exact ⟨written, hstats, hran.cons_skipped hfirst hmissing hholds⟩
        · obtain ⟨written, hstats, hran⟩ := ih h (Apart.congr hrest hover.here)
          refine ⟨e.path :: written, ?_,
            hran.cons_written hfirst hover (Entry.ready_of_write hwrite)⟩
          rw [hstats]
          simp [WriteStats.add]
      · cases h

/-! ## Names in the folder of a run -/

section Names

variable {folder : String} {es : List Entry} {written : List String} {d d' : Disk}
  (h : Ran folder es written d d')
  (hfolder : d.isFolder folder = true)
  (hnames : ∀ e ∈ es, IsName e.path)

include h hfolder hnames

/-- After a run every one of its entries can be refreshed. -/
theorem Ran.refreshable
    {e : Entry}
    (he : e ∈ es) :
    e.Refreshable folder d' := by
  by_cases hwritten : e.path ∈ written
  · have hready := h.ready e he hwritten
    cases hrule : e.overwrite with
    | always =>
        exact Or.inl ⟨hrule, hready⟩
    | ifMissing =>
        have hfile := hready.isFile (h.keeps.isFolder hfolder) (hnames e he)
        obtain ⟨bytes, hread⟩ := isFile_iff.mp hfile
        exact Or.inr ⟨hrule, holds_of_readBytes hread⟩
  · exact Or.inr (h.kept e he hwritten)

/-- A run leaves the files that it did not write as they were. -/
theorem Ran.readBytes_iff
    {name : String}
    (hname : IsName name)
    (hnot : name ∉ written)
    (bytes : ByteArray) :
    d'.readBytes (Path.join folder name) = .ok bytes ↔
      d.readBytes (Path.join folder name) = .ok bytes := by
  rw [readBytes_join_iff (h.keeps.isFolder hfolder) hname, readBytes_join_iff hfolder hname,
    destination_congr h.keeps.here]
  have hgrown := h.others (d.destination folder ++ [name]) ?_
  · rcases hgrown with hsame | ⟨hnone, hsome⟩
    · rw [hsame]
    · simp [hnone, hsome]
  · intro e he hwritten hplace
    rw [Entry.fullPath, destination_join d folder (hnames e he)] at hplace
    have hpath : [name] = [e.path] := (List.append_inj' hplace rfl).2
    exact hnot (List.singleton_inj.mp hpath ▸ hwritten)

/-- The files of a folder after a run are those from before and those that were written. -/
theorem Ran.isFile_eq
    {name : String}
    (hname : IsName name) :
    d'.isFile (Path.join folder name) =
      (d.isFile (Path.join folder name) || decide (name ∈ written)) := by
  by_cases hwritten : name ∈ written
  · obtain ⟨e, he, rfl⟩ := h.listed name hwritten
    rw [(h.ready e he hwritten).isFile (h.keeps.isFolder hfolder) hname]
    simp [hwritten]
  · have hsame : d'.isFile (Path.join folder name) = d.isFile (Path.join folder name) := by
      rw [Bool.eq_iff_iff, isFile_iff, isFile_iff]
      exact exists_congr (h.readBytes_iff hfolder hnames hname hwritten)
    simp [hsame, hwritten]

end Names

/-! ## Runs over files that are there -/

/-- What becomes of entries for which there are files already. -/
def renewals (stats : WriteStats) (es : List Entry) : WriteStats :=
  es.foldl (fun stats e => stats.add e.path e.renewal) stats

theorem mem_written_renewals
    {es : List Entry} {stats : WriteStats} {path : String}
    (h : path ∈ (renewals stats es).written) :
    path ∈ stats.written ∨ ∃ e ∈ es, e.overwrite = .always ∧ e.path = path := by
  induction es generalizing stats with
  | nil =>
      exact Or.inl h
  | cons e es ih =>
      rcases ih h with hadded | ⟨e', he', hspec⟩
      · cases hrule : e.overwrite with
        | always =>
            have hsplit : path ∈ stats.written ∨ path = e.path := by
              simpa [Entry.renewal, hrule, WriteStats.add] using hadded
            rcases hsplit with hbefore | rfl
            · exact Or.inl hbefore
            · exact Or.inr ⟨e, by simp, hrule, rfl⟩
        | ifMissing =>
            exact Or.inl (by simpa [Entry.renewal, hrule, WriteStats.add] using hadded)
      · exact Or.inr ⟨e', List.mem_cons_of_mem e he', hspec⟩

/-- Such a run succeeds, and only files whose bytes are to be different are different after it. -/
theorem writeEntries_refresh
    {folder : String} {es : List Entry} {d : Disk}
    (h : ∀ e ∈ es, e.Refreshable folder d)
    (stats : WriteStats) :
    ∃ d',
      writeEntries folder d stats es = (d', .ok (renewals stats es)) ∧
      ∀ p, d'.view? p ≠ d.view? p →
        ∃ e ∈ es,
          e.overwrite = .always ∧
          p = d.destination (e.fullPath folder) ∧
          d.view? p ≠ some (.file e.content.toUTF8) := by
  induction es generalizing d stats with
  | nil =>
      exact ⟨d, rfl, fun p hp => absurd rfl hp⟩
  | cons e es ih =>
      rcases h e (by simp) with ⟨halways, hready⟩ | ⟨hmissing, hholds⟩
      · obtain ⟨hwrite, hputs⟩ := Entry.write_of_ready halways hready
        obtain ⟨d', hrun, hviews⟩ := ih
          (fun e' he' => (h e' (List.mem_cons_of_mem e he')).overlays hputs.overlays)
          (stats.add e.path e.renewal)
        refine ⟨d', by rw [writeEntries, hwrite]; exact hrun, ?_⟩
        intro p hp
        by_cases hplace :
            p = d.destination (e.fullPath folder) ∧ d.view? p ≠ some (.file e.content.toUTF8)
        · exact ⟨e, by simp, halways, hplace⟩
        · -- This entry changes nothing at the place, so a later one does.
          have hsame := hputs.view? p
          have hunchanged : (d.put (d.destination (e.fullPath folder))
              (.file e.content.toUTF8)).view? p = d.view? p := by
            by_cases hdest : p = d.destination (e.fullPath folder)
            · rw [hsame, if_pos hdest]
              by_contra hne
              exact hplace ⟨hdest, fun heq => hne heq.symm⟩
            · rw [hsame, if_neg hdest]
          rw [← hunchanged] at hp
          obtain ⟨e', he', halways', hdest', hbytes'⟩ := hviews p hp
          rw [destination_congr hputs.here] at hdest'
          rw [hunchanged] at hbytes'
          exact ⟨e', List.mem_cons_of_mem e he', halways', hdest', hbytes'⟩
      · obtain ⟨d', hrun, hviews⟩ := ih (fun e' he' => h e' (List.mem_cons_of_mem e he'))
          (stats.add e.path e.renewal)
        refine ⟨d', by rw [writeEntries, Entry.write_of_holds hmissing hholds]; exact hrun, ?_⟩
        intro p hp
        obtain ⟨e', he', hspec⟩ := hviews p hp
        exact ⟨e', List.mem_cons_of_mem e he', hspec⟩

/-- If every file has the bytes of its entry, nothing at all is different. -/
theorem writeEntries_settled
    {folder : String} {es : List Entry} {d : Disk}
    (h : ∀ e ∈ es, e.Refreshable folder d)
    (hbytes : ∀ e ∈ es, e.overwrite = .always →
      d.view? (d.destination (e.fullPath folder)) = some (.file e.content.toUTF8))
    (stats : WriteStats) :
    writeEntries folder d stats es = (d, .ok (renewals stats es)) := by
  induction es generalizing stats with
  | nil =>
      rfl
  | cons e es ih =>
      have hrest := ih (fun e' he' => h e' (List.mem_cons_of_mem e he'))
        (fun e' he' => hbytes e' (List.mem_cons_of_mem e he')) (stats.add e.path e.renewal)
      rcases h e (by simp) with ⟨halways, hready⟩ | ⟨hmissing, hholds⟩
      · have hnode := view?_eq_file_iff.mp (hbytes e (by simp) halways)
        rw [writeEntries, (Entry.write_of_ready halways hready).1, put_self hnode]
        exact hrest
      · rw [writeEntries, Entry.write_of_holds hmissing hholds]
        exact hrest

end Files
end ContractGen
