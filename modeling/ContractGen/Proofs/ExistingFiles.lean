import ContractGen.Proofs.Disk

/-!
# Files that can be written again

Once a file has been written, the folders that it lies in are there, and writing it again changes
its bytes and nothing else. This holds on every later disk, because whatever is written besides keeps
folders and files where they are.

* `Disk.find_join_iff`: what is found under a name in a folder.
* `Disk.Ready`: a path under which a file can be written again.
* `Disk.ready_of_write`, `Disk.Ready.overlays`, `Disk.Ready.write`: written files become and stay
  such, and what writing them does.
* `Disk.put_self`: a file that is written with the bytes it has leaves the disk as it is.
-/

namespace ContractGen
namespace Files

/-! ## Putting what is there -/

namespace Node

/-- Replacing an entry by itself changes nothing. -/
theorem insert_self
    {name : String} {node : Node} {entries : List (String × Node)}
    (h : lookup? name entries = some node) :
    insert name node entries = entries := by
  induction entries with
  | nil =>
      cases h
  | cons e entries ih =>
      obtain ⟨name', node'⟩ := e
      by_cases hname : name' = name
      · subst hname
        have hnode : node' = node := by
          simpa [lookup?] using h
        simp [insert, hnode]
      · have hrest : lookup? name entries = some node := by
          simpa [lookup?, hname] using h
        simp [insert, hname, ih hrest]

/-- Putting the node that is there at a place changes nothing. -/
theorem modifyAt_self
    {place : Place} {node found : Node}
    (h : node.at? place = some found) :
    node.modifyAt (fun _ => some found) place = node := by
  induction place generalizing node with
  | nil =>
      cases h
      rfl
  | cons name names ih =>
      cases node with
      | file content =>
          cases h
      | folder entries =>
          obtain ⟨child, hchild, hbelow⟩ := Option.bind_eq_some_iff.mp h
          cases names with
          | nil =>
              cases hbelow
              simp [modifyAt, insert_self hchild]
          | cons next names =>
              rw [modifyAt_cons (by simp) _ _ _ hchild, ih hbelow, insert_self hchild]

end Node

namespace Disk

/-- A disk does not change when what is at a place is put there. -/
theorem put_self
    {d : Disk} {place : Place} {node : Node}
    (h : d.node? place = some node) :
    d.put place node = d := by
  rw [put, Node.modifyAt_self h]

/-! ## Finding -/

/-- Following pieces one after the other is following the first ones and then the rest. -/
theorem follow_append
    {d : Disk} {place place' : Place} {front rest : List (List Char)} :
    d.follow place (front ++ rest) = .ok place' ↔
      ∃ middle, d.follow place front = .ok middle ∧ d.follow middle rest = .ok place' := by
  induction front generalizing place with
  | nil =>
      simp [follow]
  | cons piece front ih =>
      rw [List.cons_append, follow_cons_iff, ih]
      constructor
      · rintro ⟨hfolder, hpasses, middle, hfront, hrest⟩
        exact ⟨middle, follow_cons_iff.mpr ⟨hfolder, hpasses, hfront⟩, hrest⟩
      · rintro ⟨middle, hfront, hrest⟩
        obtain ⟨hfolder, hpasses, hfront⟩ := follow_cons_iff.mp hfront
        exact ⟨hfolder, hpasses, middle, hfront, hrest⟩

/-- Slashes behind a folder lead to this folder. -/
theorem follow_empty
    {d : Disk} {place : Place} {pieces : List (List Char)}
    (hfolder : d.view? place = some .folder)
    (hpieces : ∀ piece ∈ pieces, piece = []) :
    d.follow place pieces = .ok place := by
  induction pieces with
  | nil =>
      rfl
  | cons piece rest ih =>
      have hpiece : piece = [] := hpieces piece (by simp)
      subst hpiece
      have hrest := ih fun piece hmem => hpieces piece (by simp [hmem])
      exact follow_cons_iff.mpr ⟨hfolder, Or.inl rfl, hrest⟩

/-- A path names a folder if it can be followed and a folder is where it leads to. -/
theorem isFolder_iff
    {d : Disk} {path : String} :
    d.isFolder path = true ↔
      d.locate path = .ok (d.destination path) ∧ d.view? (d.destination path) = some .folder := by
  have hfind : d.isFolder path = true ↔ ∃ entries, d.find path = .ok (.folder entries) := by
    unfold isFolder
    split <;> simp_all
  rw [hfind, view?_eq_folder_iff]
  simp only [find_eq_ok_iff, exists_and_left]

/-- A path names a file if bytes are read by it. -/
theorem isFile_iff
    {d : Disk} {path : String} :
    d.isFile path = true ↔ ∃ bytes, d.readBytes path = .ok bytes := by
  simp only [readBytes_eq_ok_iff]
  unfold isFile
  split <;> simp_all

/-- A path names something if something is found by it. -/
theorem holds_iff
    {d : Disk} {path : String} :
    d.holds path = true ↔ ∃ node, d.find path = .ok node := by
  unfold holds
  split <;> simp_all

theorem Keeps.refl
    (d : Disk) :
    d.Keeps d :=
  ⟨rfl, fun _ => id, fun _ => id⟩

theorem Keeps.trans
    {d d' d'' : Disk}
    (h : d.Keeps d')
    (h' : d'.Keeps d'') :
    d.Keeps d'' :=
  ⟨h'.here.trans h.here, fun p hp => h'.folder p (h.folder p hp),
    fun p hp => h'.some p (h.some p hp)⟩

/-- A path that names a folder still does when folders are kept. -/
theorem Keeps.isFolder
    {d d' : Disk}
    (h : d.Keeps d')
    {path : String}
    (hfolder : d.isFolder path = true) :
    d'.isFolder path = true := by
  obtain ⟨hlocate, hview⟩ := isFolder_iff.mp hfolder
  rw [isFolder_iff, destination_congr h.here]
  exact ⟨h.locate hlocate, h.folder _ hview⟩

/-- A path that names something still does when folders and files are kept. -/
theorem Keeps.holds
    {d d' : Disk}
    (h : d.Keeps d')
    {path : String}
    (hholds : d.holds path = true) :
    d'.holds path = true := by
  obtain ⟨node, hfind⟩ := holds_iff.mp hholds
  obtain ⟨hlocate, hnode⟩ := find_eq_ok_iff.mp hfind
  have hsome : (d'.view? (d.destination path)).isSome :=
    h.some _ (by simp [view?, hnode])
  obtain ⟨node', hnode'⟩ := Option.isSome_iff_exists.mp (by simpa [view?] using hsome)
  refine holds_iff.mpr ⟨node', find_eq_ok_iff.mpr ?_⟩
  rw [destination_congr h.here]
  exact ⟨h.locate hlocate, hnode'⟩

/-! ## Names in a folder -/

/-- Whether a name in a folder is short enough, as a name and as a path. -/
def Fits (folder name : String) : Prop :=
  pathFault? (Path.join folder name) = none ∧ isTooLong name = false

/-- When a name in a folder can be followed, and where it leads to. -/
theorem locate_join_iff
    {d : Disk} {folder name : String} {place : Place}
    (hfolder : d.isFolder folder = true)
    (h : IsName name) :
    d.locate (Path.join folder name) = .ok place ↔
      Fits folder name ∧
      (d.view? (d.destination folder ++ [name])).isSome ∧
      place = d.destination folder ++ [name] := by
  obtain ⟨hlocate, hview⟩ := isFolder_iff.mp hfolder
  obtain ⟨front, idle, hidle, hpieces, hjoin⟩ := d.start_join folder h
  -- The pieces of the folder lead to it also without the idle ones at the end.
  have hfront : d.follow (d.start folder).1 front = .ok (d.destination folder) := by
    rw [locate] at hlocate
    split at hlocate
    · cases hlocate
    · dsimp only at hlocate
      rw [hpieces] at hlocate
      obtain ⟨middle, hmiddle, hrest⟩ := follow_append.mp hlocate
      have hsame := follow_eq hrest
      rw [foldl_stepTo_empty hidle] at hsame
      rw [hsame]
      exact hmiddle
  have hpasses : d.Passes (d.destination folder) name.toList ↔
      isTooLong name = false ∧ (d.view? (d.destination folder ++ [name])).isSome := by
    obtain ⟨h₁, h₂, h₃⟩ := toList_ne_of_notMem h.2
    simp [Passes, Path.isIdle, h₁, h₂, h₃]
  cases hfault : pathFault? (Path.join folder name) with
  | some e =>
      simp [locate, Fits, hfault]
  | none =>
      simp only [locate, hfault, hjoin, Fits, true_and]
      rw [follow_append]
      constructor
      · rintro ⟨middle, hmiddle, hlast⟩
        rw [hfront] at hmiddle
        cases hmiddle
        obtain ⟨-, hpass, hend⟩ := follow_cons_iff.mp hlast
        obtain ⟨hshort, hsome⟩ := hpasses.mp hpass
        rw [stepTo_name h.2] at hend
        cases hend
        exact ⟨hshort, hsome, rfl⟩
      · rintro ⟨hshort, hsome, rfl⟩
        refine ⟨_, hfront, follow_cons_iff.mpr ⟨hview, hpasses.mpr ⟨hshort, hsome⟩, ?_⟩⟩
        rw [stepTo_name h.2]
        rfl

theorem find_join_iff
    {d : Disk} {folder name : String} {node : Node}
    (hfolder : d.isFolder folder = true)
    (h : IsName name) :
    d.find (Path.join folder name) = .ok node ↔
      Fits folder name ∧ d.node? (d.destination folder ++ [name]) = some node := by
  rw [find_eq_ok_iff, destination_join d folder h, locate_join_iff hfolder h]
  constructor
  · rintro ⟨⟨hfits, -, -⟩, hnode⟩
    exact ⟨hfits, hnode⟩
  · rintro ⟨hfits, hnode⟩
    exact ⟨⟨hfits, by simp [view?, hnode], rfl⟩, hnode⟩

/-- Which bytes are read under a name in a folder. -/
theorem readBytes_join_iff
    {d : Disk} {folder name : String} {bytes : ByteArray}
    (hfolder : d.isFolder folder = true)
    (h : IsName name) :
    d.readBytes (Path.join folder name) = .ok bytes ↔
      Fits folder name ∧ d.view? (d.destination folder ++ [name]) = some (.file bytes) := by
  rw [readBytes_eq_ok_iff, find_join_iff hfolder h, view?_eq_file_iff]

/-! ## Making folders -/

/-- A path goes to the same place when folders are kept. -/
theorem Keeps.target
    {d d' : Disk}
    (h : d.Keeps d')
    {path : String} {folder : Place} {name : String}
    (htarget : d.target path = .ok (folder, Option.some name)) :
    d'.target path = .ok (folder, Option.some name) := by
  obtain ⟨hfault, hname, hfolder, front, idle, hpieces, hidle, hfollow⟩ :=
    target_eq_ok_iff.mp htarget
  rw [target_eq_ok_iff, start_congr h.here]
  exact ⟨hfault, hname, h.folder _ hfolder, front, idle, hpieces, hidle, h.follow hfollow⟩

/-- A path that goes to a folder leads to it. -/
theorem locate_of_target
    {d : Disk} {path : String} {folder : Place} {name : String}
    (htarget : d.target path = .ok (folder, some name))
    (hshort : isTooLong name = false)
    (hview : d.view? (folder ++ [name]) = some .folder) :
    d.locate path = .ok (folder ++ [name]) := by
  obtain ⟨hfault, hname, hfolder, front, idle, hpieces, hidle, hfollow⟩ :=
    target_eq_ok_iff.mp htarget
  have hpasses : d.Passes folder name.toList := by
    refine Or.inr (Or.inr ?_)
    simp [hshort, hview]
  simp only [locate, hfault, hpieces]
  refine follow_append.mpr ⟨folder, hfollow, follow_cons_iff.mpr ⟨hfolder, hpasses, ?_⟩⟩
  rw [stepTo_name hname]
  exact follow_empty hview hidle

/-- A folder that was created is there. -/
theorem isFolder_of_makeFolder
    {d d' : Disk} {path : String}
    (h : d.makeFolder path = .ok d') :
    d'.isFolder path = true := by
  have hkeeps := (makeFolder_grows h).keeps
  obtain ⟨folder, name, htarget, hshort, hnone, rfl⟩ := put_of_makeFolder h
  obtain ⟨hfolder, -⟩ := target_spec htarget
  have hfree : d.view? (folder ++ [name]) ≠ some .folder := by
    simp [hnone]
  have hview := view?_put hfolder Node.isLeaf_emptyFolder hfree (folder ++ [name])
  rw [if_pos rfl] at hview
  have hlocate := locate_of_target (hkeeps.target htarget) hshort hview
  rw [isFolder_iff, ← locate_eq hlocate]
  exact ⟨hlocate, hview⟩

/-- A folder that was created, unless it existed, is there. -/
theorem isFolder_of_ensureFolder
    {d d' : Disk} {path : String}
    (h : d.ensureFolder path = .ok d') :
    d'.isFolder path = true := by
  rw [ensureFolder] at h
  split at h
  · rename_i hmake
    cases h
    exact isFolder_of_makeFolder hmake
  · split at h
    · rename_i hfolder
      cases h
      exact hfolder
    · cases h

/-- A folder that was created with those that it lies in is there. -/
theorem isFolder_of_makeFoldersWithin
    {d d' : Disk} {path : String} {fuel : Nat}
    (h : d.makeFoldersWithin path fuel = (d', .ok ())) :
    path = "" ∨ d'.isFolder path = true := by
  cases fuel with
  | zero =>
      cases h
  | succ fuel =>
      rw [makeFoldersWithin] at h
      split at h
      · rename_i hempty
        exact Or.inl (by simpa using hempty)
      · refine Or.inr ?_
        split at h
        · rename_i hensure
          cases h
          exact isFolder_of_ensureFolder hensure
        · split at h
          · cases h
          · split at h
            · exact isFolder_of_ensureFolder (settle_ok h)
            · cases h
        · cases h

/-- Nothing is created where a folder is. -/
theorem ensureFolder_of_isFolder
    {d : Disk} {path : String}
    (h : d.isFolder path = true) :
    d.ensureFolder path = .ok d := by
  rw [ensureFolder]
  split
  · rename_i d' hmake
    -- A folder is only made where nothing is.
    obtain ⟨⟨folder, name?⟩, htarget, hfree⟩ := bind_eq_ok_iff.mp hmake
    obtain ⟨-, hview⟩ := isFolder_iff.mp h
    cases name? with
    | none =>
        cases hfree
    | some name =>
        rw [← (target_spec htarget).2] at hview
        obtain ⟨entries, hentries⟩ := view?_eq_folder_iff.mp hview
        dsimp only at hfree
        simp only [hentries, Option.isSome_some, if_true] at hfree
        split at hfree <;> cases hfree
  · rw [if_pos h]

/-- Nothing is created if the innermost folder is there. -/
theorem makeFolders_of_isFolder
    {d : Disk} {path : String}
    (h : path = "" ∨ d.isFolder path = true) :
    d.makeFolders path = (d, .ok ()) := by
  rw [makeFolders, makeFoldersWithin]
  split
  · rfl
  · rename_i hempty
    rcases h with rfl | hfolder
    · simp at hempty
    · rw [ensureFolder_of_isFolder hfolder]

/-! ## Files that are there -/

/-- A path under which a file is, so that it can be written again. -/
structure Ready (d : Disk) (path : String) : Prop where
  parent : ∀ parent, Path.parent? path = some parent → parent = "" ∨ d.isFolder parent = true
  target : ∃ folder name,
    d.target path = .ok (folder, some name) ∧
    path.toList.getLast? ≠ some '/' ∧
    isTooLong name = false
  file : ∃ content, d.view? (d.destination path) = some (.file content)

/-- A file can be written again on a later disk that has kept the folders and has a file there. -/
theorem Ready.later
    {d d' : Disk} {path : String} {content : ByteArray}
    (h : d.Ready path)
    (hkeeps : d.Keeps d')
    (hfile : d'.view? (d.destination path) = some (.file content)) :
    d'.Ready path := by
  refine ⟨?_, ?_, ?_⟩
  · intro parent hparent
    rcases h.parent parent hparent with hempty | hfolder
    · exact Or.inl hempty
    · exact Or.inr (hkeeps.isFolder hfolder)
  · obtain ⟨folder, name, htarget, hfits⟩ := h.target
    exact ⟨folder, name, hkeeps.target htarget, hfits⟩
  · rw [destination_congr hkeeps.here]
    exact ⟨content, hfile⟩

/-- Writing some file leaves it possible to write the others again. -/
theorem Ready.overlays
    {d d' : Disk} {path : String} {place : Place} {content : ByteArray}
    (h : d.Ready path)
    (hover : d.Overlays d' place content) :
    d'.Ready path := by
  obtain ⟨bytes, hbytes⟩ := h.file
  by_cases hplace : d.destination path = place
  · exact h.later hover.keeps (hplace ▸ hover.written)
  · rcases hover.others _ hplace with hsame | ⟨hnone, -⟩
    · exact h.later hover.keeps (hsame.trans hbytes)
    · rw [hnone] at hbytes
      cases hbytes

/-- Writing succeeds, and it puts the file where it was. -/
theorem Ready.write
    {d : Disk} {path : String}
    (h : d.Ready path)
    (content : ByteArray) :
    d.writeWithFolders path content = (d.put (d.destination path) (.file content), .ok ()) ∧
      d.Puts (d.put (d.destination path) (.file content)) (d.destination path)
        (.file content) := by
  obtain ⟨folder, name, htarget, hslash, hshort⟩ := h.target
  obtain ⟨bytes, hbytes⟩ := h.file
  have hplace := (target_spec htarget).2
  have hwrite : d.writeBytes path content = .ok (d.put (d.destination path) (.file content)) := by
    refine writeBytes_eq_ok_iff.mpr ⟨folder, name, htarget, hslash, hshort, ?_, ?_⟩
    · rw [hplace, hbytes]
      simp
    · rw [hplace]
  refine ⟨?_, writeBytes_puts hwrite⟩
  unfold writeWithFolders
  cases hparent : Path.parent? path with
  | none =>
      simp [hwrite, settle]
  | some parent =>
      simp [makeFolders_of_isFolder (h.parent parent hparent), hwrite, settle]

theorem Puts.overlays
    {d d' : Disk} {place : Place} {content : ByteArray}
    (h : d.Puts d' place (.file content)) :
    d.Overlays d' place content :=
  (Grows.refl d).overlays h

/-- A file that was written can be written again. -/
theorem ready_of_write
    {d d' : Disk} {path : String} {content : ByteArray}
    (h : d.writeWithFolders path content = (d', .ok ())) :
    d'.Ready path := by
  obtain ⟨d₁, hwrite, hmade⟩ := writeWithFolders_cases h
  have hparent : ∀ parent, Path.parent? path = some parent →
      parent = "" ∨ d₁.isFolder parent = true := by
    intro parent hsome
    rcases hmade with ⟨hnone, -⟩ | ⟨parent', hsome', hfolders⟩
    · rw [hnone] at hsome
      cases hsome
    · rw [hsome'] at hsome
      cases hsome
      exact isFolder_of_makeFoldersWithin hfolders
  have hputs := writeBytes_puts hwrite
  have hkeeps := hputs.overlays.keeps
  obtain ⟨folder, name, htarget, hslash, hshort, -, -⟩ := writeBytes_eq_ok_iff.mp hwrite
  refine ⟨?_, ⟨folder, name, hkeeps.target htarget, hslash, hshort⟩, ⟨content, ?_⟩⟩
  · intro parent hsome
    rcases hparent parent hsome with hempty | hfolder
    · exact Or.inl hempty
    · exact Or.inr (hkeeps.isFolder hfolder)
  · rw [destination_congr hputs.here]
    simp [hputs.view?]

/-- A name under which a file can be written is not too long. -/
theorem Ready.fits
    {d : Disk} {folder name : String}
    (h : d.Ready (Path.join folder name))
    (hname : IsName name) :
    Fits folder name := by
  obtain ⟨place, last, htarget, -, hshort⟩ := h.target
  obtain ⟨hfault, -⟩ := target_eq_ok_iff.mp htarget
  have hplace : place ++ [last] = d.destination folder ++ [name] := by
    rw [(target_spec htarget).2, destination_join d folder hname]
  have hlast : last = name := by
    simpa using (List.append_inj' hplace rfl).2
  exact ⟨hfault, hlast ▸ hshort⟩

/-- Where a file can be written again there is a file. -/
theorem Ready.isFile
    {d : Disk} {folder name : String}
    (h : d.Ready (Path.join folder name))
    (hfolder : d.isFolder folder = true)
    (hname : IsName name) :
    d.isFile (Path.join folder name) = true := by
  obtain ⟨bytes, hbytes⟩ := h.file
  rw [destination_join d folder hname] at hbytes
  exact isFile_iff.mpr ⟨bytes, (readBytes_join_iff hfolder hname).mpr ⟨h.fits hname, hbytes⟩⟩

end Disk
end Files
end ContractGen
