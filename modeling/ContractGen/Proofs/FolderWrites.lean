import ContractGen.Proofs.Rewriting
import Mathlib.Data.List.Induction

/-!
# Writing names into a folder

A file that is written under a single name into a folder that exists needs no new folders, so
nothing else on the disk is different afterwards. From this follows what a run over such files
leaves behind, to the last place of the disk.

* `Path.parent?_join`: the folder of a name in a folder, as a text.
* `Disk.isFolder_parent`: it exists if the folder does.
* `Disk.write_name`: writing such a file changes one place.
* `writeEntries_names`: what a run over such files changes and reports.
-/

namespace ContractGen

/-! ## The text of a parent -/

namespace Path

open Files

theorem ofPieces_cons
    (p : List Char)
    {ps : List (List Char)}
    (h : ps ≠ []) :
    ofPieces (p :: ps) = p ++ '/' :: ofPieces ps := by
  cases ps with
  | nil =>
      exact absurd rfl h
  | cons q ps =>
      rfl

theorem ofPieces_concat
    {ps : List (List Char)}
    (h : ps ≠ [])
    (p : List Char) :
    ofPieces (ps ++ [p]) = ofPieces ps ++ '/' :: p := by
  induction ps with
  | nil =>
      exact absurd rfl h
  | cons q ps ih =>
      by_cases hps : ps = []
      · subst hps
        rfl
      · rw [List.cons_append, ofPieces_cons q (by simp), ih hps, ofPieces_cons q hps,
          List.append_assoc, List.cons_append]

/-- Joining the pieces of a path gives the path back. -/
theorem ofPieces_pieces
    (cs : List Char) :
    ofPieces (pieces cs) = cs := by
  induction cs with
  | nil =>
      rfl
  | cons c cs ih =>
      have hne := Disk.splitAt_ne_nil '/' cs
      by_cases hc : c = '/'
      · subst hc
        rw [pieces, Text.splitAt, if_pos rfl, ofPieces_cons [] hne, ← pieces, ih]
        rfl
      · rw [pieces] at ih
        rw [pieces, Text.splitAt, if_neg hc]
        cases hsplit : Text.splitAt '/' cs with
        | nil =>
            exact absurd hsplit hne
        | cons part parts =>
            rw [hsplit] at ih
            rw [← ih]
            cases parts <;> rfl

theorem dropIdleEnd_concat_idle
    {p : List Char}
    (h : isIdle p = true)
    (ps : List (List Char)) :
    dropIdleEnd (ps ++ [p]) = dropIdleEnd ps := by
  simp [dropIdleEnd, h]

theorem dropIdleEnd_concat
    {p : List Char}
    (h : isIdle p = false)
    (ps : List (List Char)) :
    dropIdleEnd (ps ++ [p]) = ps ++ [p] := by
  simp [dropIdleEnd, h]

theorem dropIdleEnd_append_empty
    {idle : List (List Char)}
    (h : ∀ p ∈ idle, p = [])
    (ps : List (List Char)) :
    dropIdleEnd (ps ++ idle) = dropIdleEnd ps := by
  induction idle generalizing ps with
  | nil =>
      rw [List.append_nil]
  | cons p idle ih =>
      have hp : p = [] := h p List.mem_cons_self
      have hrest := ih (fun q hq => h q (List.mem_cons_of_mem p hq)) (ps ++ [p])
      rw [List.append_assoc, List.singleton_append] at hrest
      rw [hrest, hp]
      exact dropIdleEnd_concat_idle rfl ps

theorem dropIdleEnd_cons
    (p : List Char)
    (ps : List (List Char)) :
    dropIdleEnd (p :: ps) =
      if dropIdleEnd ps = [] ∧ isIdle p then [] else p :: dropIdleEnd ps := by
  induction ps using List.reverseRecOn with
  | nil =>
      by_cases hp : isIdle p = true <;> simp [dropIdleEnd, hp]
  | append_singleton ps q ih =>
      by_cases hq : isIdle q = true
      · rw [← List.cons_append, dropIdleEnd_concat_idle hq, dropIdleEnd_concat_idle hq, ih]
      · rw [Bool.not_eq_true] at hq
        rw [← List.cons_append, dropIdleEnd_concat hq, dropIdleEnd_concat hq]
        simp

/-- The text of a first piece and others after it, without idle ones at the end. -/
def folderText (first : List Char) (ps : List (List Char)) : List Char :=
  if first = [] ∧ dropIdleEnd ps = [] then ['/'] else ofPieces (first :: dropIdleEnd ps)

/-- The mark of a path takes nothing away from the text of its parent. -/
theorem splitHead_folderText
    {cs first last : List Char} {ps : List (List Char)}
    (h : pieces cs = first :: (ps ++ [last])) :
    ∃ front,
      pieces (splitHead cs).2 = front ++ [last] ∧
      (splitHead cs).1 ++ ofPieces (dropIdleEnd front) = folderText first ps := by
  have hcs : cs = first ++ '/' :: ofPieces (ps ++ [last]) := by
    rw [← ofPieces_cons first (by simp), ← h, ofPieces_pieces]
  unfold splitHead
  split
  · rename_i rest
    have hsplit : [] = first ∧ pieces rest = ps ++ [last] := by
      simpa [pieces, Text.splitAt] using h
    obtain ⟨rfl, hrest⟩ := hsplit
    refine ⟨ps, hrest, ?_⟩
    unfold folderText
    split
    · rename_i hroot
      rw [hroot.2]
      rfl
    · rename_i hmore
      rw [ofPieces_cons [] (by simpa using hmore)]
      rfl
  · have hdot : [['.']] = first :: (ps ++ [last]) := h
    simp at hdot
  · rename_i rest
    have hsplit : ['.'] = first ∧ pieces rest = ps ++ [last] := by
      simpa [pieces, Text.splitAt] using h
    obtain ⟨rfl, hrest⟩ := hsplit
    refine ⟨[] :: ps, by simpa [pieces, Text.splitAt] using hrest, ?_⟩
    rw [folderText, if_neg (by simp), dropIdleEnd_cons]
    by_cases hnone : dropIdleEnd ps = []
    · simp [hnone, isIdle, ofPieces]
    · simp [hnone, ofPieces_cons]
  · rename_i hroot hdot hdots
    have hempty : first ≠ [] := by
      rintro rfl
      exact hroot _ hcs
    have hhere : first ≠ ['.'] := by
      rintro rfl
      exact hdots _ hcs
    refine ⟨first :: ps, h, ?_⟩
    rw [dropIdleEnd_cons, if_neg (by simp [isIdle, hempty, hhere]), folderText,
      if_neg (by simp [hempty])]
    rfl

/-- The parent of a path is what stands before its last piece that is not idle. -/
theorem parent?_eq
    {path : String} {first last : List Char} {ps : List (List Char)}
    (h : pieces path.toList = first :: (ps ++ [last]))
    (hlast : isIdle last = false) :
    parent? path = some (String.ofList (folderText first ps)) := by
  obtain ⟨front, hfront, htext⟩ := splitHead_folderText h
  have hbody : body path = front ++ [last] := by
    rw [body, hfront, dropIdleEnd_concat hlast]
  unfold parent?
  rw [hbody]
  split
  · rename_i hnil
    simp at hnil
  · rw [List.dropLast_concat]
    exact congrArg (fun text => some (String.ofList text)) htext

/-- The pieces of a name in a folder are those of the folder and the name. -/
theorem pieces_join
    {folder name : String}
    (hfolder : folder ≠ "")
    (h : Disk.IsName name) :
    ∃ first ps idle,
      (∀ p ∈ idle, p = []) ∧
      pieces folder.toList = first :: (ps ++ idle) ∧
      pieces (join folder name).toList = first :: (ps ++ [name.toList]) := by
  have hname : pieces name.toList = [name.toList] := Disk.splitAt_of_notMem h.1
  have hrelative : ¬ isAbsolute name = true := by
    intro habsolute
    exact h.1 (List.mem_of_mem_head? (by simpa [isAbsolute] using habsolute))
  unfold join
  rw [if_neg hrelative]
  split
  · rename_i hends
    have hslash : folder.toList.getLast? = some '/' := by
      simpa [hfolder] using hends
    obtain ⟨front, hfront⟩ := List.getLast?_eq_some_iff.mp hslash
    obtain ⟨first, ps, hpieces⟩ := List.exists_cons_of_ne_nil (Disk.splitAt_ne_nil '/' front)
    refine ⟨first, ps, [[]], by simp, ?_, ?_⟩
    · rw [hfront, pieces, Disk.splitAt_append, hpieces]
      rfl
    · rw [String.toList_append, hfront, List.append_assoc, List.singleton_append, pieces,
        Disk.splitAt_append, hpieces, ← pieces, hname]
      rfl
  · obtain ⟨first, ps, hpieces⟩ :=
      List.exists_cons_of_ne_nil (Disk.splitAt_ne_nil '/' folder.toList)
    refine ⟨first, ps, [], by simp, ?_, ?_⟩
    · rw [pieces, hpieces, List.append_nil]
    · have hslash : (folder ++ "/" ++ name).toList = folder.toList ++ '/' :: name.toList := by
        simp
      rw [hslash, pieces, Disk.splitAt_append, hpieces, ← pieces, hname]
      rfl

/-- The folder that a name in a folder lies in, as a text. -/
theorem parent?_join
    {folder name : String}
    (hfolder : folder ≠ "")
    (h : Disk.IsName name) :
    ∃ first ps,
      pieces folder.toList = first :: ps ∧
      parent? (join folder name) = some (String.ofList (folderText first ps)) := by
  obtain ⟨first, ps, idle, hidle, hpieces, hjoin⟩ := pieces_join hfolder h
  refine ⟨first, ps ++ idle, hpieces, ?_⟩
  have hname : isIdle name.toList = false := by
    obtain ⟨hempty, hdot, -⟩ := Disk.toList_ne_of_notMem h.2
    simp [isIdle, hempty, hdot]
  rw [parent?_eq hjoin hname]
  simp only [folderText, dropIdleEnd_append_empty hidle]

end Path

/-! ## The parent of a name exists -/

namespace Files
namespace Disk

/-- A path text is sound if it is not empty and has no zero character. -/
theorem textFault?_eq_none_iff
    {path : String} :
    textFault? path = none ↔ (∀ c ∈ path.toList, c.toNat ≠ 0) ∧ path ≠ "" := by
  unfold textFault?
  split
  · rename_i hzero
    obtain ⟨c, hc, hzero⟩ := List.any_eq_true.mp hzero
    exact iff_of_false (by simp) fun h => h.1 c hc (by simpa using hzero)
  · rename_i hzero
    have hchars : ∀ c ∈ path.toList, c.toNat ≠ 0 := by
      simpa using hzero
    split
    · rename_i hempty
      exact iff_of_false (by simp) fun h => h.2 (by simpa using hempty)
    · rename_i hempty
      exact iff_of_true rfl ⟨hchars, by simpa using hempty⟩

/-- A path is sound if its text is and it is not longer than the system's limit. -/
theorem pathFault?_eq_none_iff
    {path : String} :
    pathFault? path = none ↔
      (∀ c ∈ path.toList, c.toNat ≠ 0) ∧ path ≠ "" ∧ path.utf8ByteSize ≤ longestPath := by
  rw [← and_assoc, ← textFault?_eq_none_iff]
  unfold pathFault?
  cases textFault? path <;> simp

theorem pathFault?_of_append
    {path rest : String}
    (hpath : path ≠ "")
    (h : pathFault? (path ++ rest) = none) :
    pathFault? path = none := by
  obtain ⟨hchars, -, hshort⟩ := pathFault?_eq_none_iff.mp h
  refine pathFault?_eq_none_iff.mpr ⟨?_, hpath, ?_⟩
  · intro c hc
    exact hchars c (by simp [hc])
  · rw [String.utf8ByteSize_append] at hshort
    omega

/-- A path is located exactly if it is sound and every piece but the last leads into a folder. -/
theorem locate_eq_ok_iff
    {d : Disk} {path : String} {place : Place} :
    d.locate path = .ok place ↔
      pathFault? path = none ∧ d.follow (d.start path).1 (d.start path).2 = .ok place := by
  unfold locate
  cases pathFault? path <;> simp

theorem isFolder_of_locate
    {d : Disk} {path : String} {place : Place}
    (hlocate : d.locate path = .ok place)
    (hview : d.view? place = some .folder) :
    d.isFolder path = true := by
  obtain rfl := locate_eq hlocate
  exact isFolder_iff.mpr ⟨hlocate, hview⟩

/-- An idle piece at the end of a path says that there is a folder in front of it. -/
theorem isFolder_of_idle
    {d : Disk} {path : String} {piece : List Char}
    (hpath : path ≠ "")
    (hidle : Path.isIdle piece = true)
    (h : d.isFolder (path ++ "/" ++ String.ofList piece) = true) :
    d.isFolder path = true := by
  have hpiece : Path.pieces piece = [piece] := by
    have hcases : piece = [] ∨ piece = ['.'] := by
      simpa [Path.isIdle] using hidle
    rcases hcases with rfl | rfl <;> rfl
  obtain ⟨hfault, hfollow⟩ := locate_eq_ok_iff.mp (isFolder_iff.mp h).1
  rw [d.start_append hpath, String.toList_ofList, hpiece] at hfollow
  obtain ⟨middle, hfront, hlast⟩ := follow_append.mp hfollow
  obtain ⟨hview, -, -⟩ := follow_cons_iff.mp hlast
  rw [String.append_assoc] at hfault
  exact isFolder_of_locate
    (locate_eq_ok_iff.mpr ⟨pathFault?_of_append hpath hfault, hfront⟩) hview

theorem isFolder_root
    {d : Disk} {rest : List Char}
    (h : d.isFolder (String.ofList ('/' :: rest)) = true) :
    d.isFolder "/" = true := by
  obtain ⟨hfault, hfollow⟩ := locate_eq_ok_iff.mp (isFolder_iff.mp h).1
  rw [d.start_absolute String.toList_ofList] at hfollow
  obtain ⟨piece, ps, hpieces⟩ := List.exists_cons_of_ne_nil (splitAt_ne_nil '/' rest)
  rw [Path.pieces, hpieces] at hfollow
  obtain ⟨hview, -, -⟩ := follow_cons_iff.mp hfollow
  refine isFolder_of_locate (locate_eq_ok_iff.mpr ⟨by decide, ?_⟩) hview
  exact follow_empty hview (by simp [start, Path.pieces, Text.splitAt])

/-- The folders on the way to a folder are folders. -/
theorem isFolder_folderText
    {d : Disk} {first : List Char} {ps : List (List Char)}
    (h : d.isFolder (String.ofList (Path.ofPieces (first :: ps))) = true) :
    d.isFolder (String.ofList (Path.folderText first ps)) = true := by
  induction ps using List.reverseRecOn with
  | nil =>
      by_cases hfirst : first = []
      · subst hfirst
        cases h
      · simpa [Path.folderText, Path.dropIdleEnd, hfirst] using h
  | append_singleton ps p ih =>
      cases hidle : Path.isIdle p with
      | false =>
          simpa [Path.folderText, Path.dropIdleEnd_concat hidle] using h
      | true =>
          rw [← List.cons_append, Path.ofPieces_concat (by simp)] at h
          by_cases hempty : Path.ofPieces (first :: ps) = []
          · -- Only the root is left.
            rw [hempty, List.nil_append] at h
            have hroot : first = [] ∧ ps = [] := by
              cases ps with
              | nil =>
                  exact ⟨hempty, rfl⟩
              | cons q ps =>
                  simp [Path.ofPieces_cons] at hempty
            obtain ⟨rfl, rfl⟩ := hroot
            have htext : Path.folderText [] ([] ++ [p]) = ['/'] := by
              simp [Path.folderText, Path.dropIdleEnd, hidle]
            rw [htext]
            exact isFolder_root h
          · have hne : String.ofList (Path.ofPieces (first :: ps)) ≠ "" := by
              simpa using hempty
            have hfolder := isFolder_of_idle hne hidle (by simpa [String.append_assoc] using h)
            simpa [Path.folderText, Path.dropIdleEnd_concat_idle hidle] using ih hfolder

/-- A name in a folder that exists lies in a folder that exists. -/
theorem isFolder_parent
    {d : Disk} {folder name : String}
    (hfolder : d.isFolder folder = true)
    (hname : IsName name) :
    ∃ parent, Path.parent? (Path.join folder name) = some parent ∧ d.isFolder parent = true := by
  have hne : folder ≠ "" := by
    rintro rfl
    cases hfolder
  obtain ⟨first, ps, hpieces, hparent⟩ := Path.parent?_join hne hname
  refine ⟨_, hparent, isFolder_folderText ?_⟩
  rwa [← hpieces, Path.ofPieces_pieces, String.ofList_toList]

/-- Writing a name into a folder that exists changes one place. -/
theorem write_name
    {d d' : Disk} {folder name : String} {content : ByteArray}
    (hfolder : d.isFolder folder = true)
    (hname : IsName name)
    (h : d.writeWithFolders (Path.join folder name) content = (d', .ok ())) :
    d.Puts d' (d.destination (Path.join folder name)) (.file content) := by
  obtain ⟨parent, hparent, hexists⟩ := isFolder_parent hfolder hname
  obtain ⟨d₁, hwrite, hmade⟩ := writeWithFolders_cases h
  obtain rfl : d₁ = d := by
    rcases hmade with ⟨-, hsame⟩ | ⟨parent', hparent', hfolders⟩
    · exact hsame
    · rw [hparent] at hparent'
      cases hparent'
      rw [makeFolders_of_isFolder (Or.inr hexists)] at hfolders
      exact (congrArg Prod.fst hfolders).symm
  exact writeBytes_puts hwrite

/-- A name is held in a folder exactly if its path fits and something is seen there. -/
theorem holds_join_iff
    {d : Disk} {folder name : String}
    (hfolder : d.isFolder folder = true)
    (hname : IsName name) :
    d.holds (Path.join folder name) = true ↔
      Fits folder name ∧ (d.view? (d.destination folder ++ [name])).isSome := by
  simp only [holds_iff, find_join_iff hfolder hname, exists_and_left, view?, Option.isSome_map,
    Option.isSome_iff_exists]

/-- What reading gives where something is seen. -/
def bytesOf : View → Except FileError ByteArray
  | .file content => .ok content
  | .folder => .error .isADirectory

theorem readBytes_join_of_view?
    {d : Disk} {folder name : String} {view : View}
    (hfolder : d.isFolder folder = true)
    (hname : IsName name)
    (hfits : Fits folder name)
    (hview : d.view? (d.destination folder ++ [name]) = some view) :
    d.readBytes (Path.join folder name) = bytesOf view := by
  obtain ⟨node, hnode, rfl⟩ := Option.map_eq_some_iff.mp hview
  have hfind := (find_join_iff hfolder hname).mpr ⟨hfits, hnode⟩
  rw [readBytes, hfind]
  cases node <;> rfl

end Disk

/-! ## Runs over names in a folder -/

open Disk

/-- Whether an entry is left alone, because something is there already. -/
def Entry.Stays (folder : String) (d : Disk) (e : Entry) : Prop :=
  e.overwrite = .ifMissing ∧ d.holds (e.fullPath folder) = true

instance (folder : String) (d : Disk) (e : Entry) : Decidable (e.Stays folder d) :=
  inferInstanceAs (Decidable (_ ∧ _))

section Step

variable {e e' : Entry} {folder : String} {d d' : Disk} {result : WriteResult}
  (hfolder : d.isFolder folder = true)
  (hname : IsName e.path)

include hfolder hname

/-- Handling one entry: it is left alone, or one place changes. -/
theorem Entry.write_name_cases
    (h : e.write folder d = (d', .ok result)) :
    (result = .skipped ∧ e.Stays folder d ∧ d' = d) ∨
    (result = .written ∧
      ¬ e.Stays folder d ∧
      Fits folder e.path ∧
      d.Puts d' (d.destination (e.fullPath folder)) (.file e.content.toUTF8)) := by
  rw [Entry.write, Overwrite.apply] at h
  split at h
  · rename_i hstays
    cases h
    exact Or.inl ⟨rfl, by simpa [Entry.Stays] using hstays, rfl⟩
  · rename_i hstays
    split at h
    · rename_i hwrite
      cases h
      have hfits := (Disk.ready_of_write hwrite).fits hname
      exact Or.inr ⟨rfl, by simpa [Entry.Stays] using hstays, hfits,
        write_name hfolder hname hwrite⟩
    · cases h

/-- A file that is written elsewhere does not decide whether an entry is left alone. -/
theorem Entry.stays_of_puts
    (hname' : IsName e'.path)
    (hne : e'.path ≠ e.path)
    {content : ByteArray}
    (hputs : d.Puts d' (d.destination (e.fullPath folder)) (.file content)) :
    e'.Stays folder d' ↔ e'.Stays folder d := by
  have hfolder' := hputs.overlays.keeps.isFolder hfolder
  have hview : d'.view? (d.destination folder ++ [e'.path]) =
      d.view? (d.destination folder ++ [e'.path]) := by
    rw [hputs.view?, Entry.fullPath, destination_join d folder hname, if_neg (by simpa using hne)]
  have hholds : d'.holds (e'.fullPath folder) = d.holds (e'.fullPath folder) := by
    rw [Bool.eq_iff_iff, Entry.fullPath, holds_join_iff hfolder' hname',
      holds_join_iff hfolder hname', destination_congr hputs.here, hview]
  rw [Entry.Stays, Entry.Stays, hholds]

end Step

/-- What a run leaves behind: the files that it writes, and everything else as it was. -/
structure Carried (folder : String) (es : List Entry) (d d' : Disk) : Prop where
  keeps : d.Keeps d'
  written : ∀ e ∈ es, ¬ e.Stays folder d →
    Fits folder e.path ∧
    d'.view? (d.destination (e.fullPath folder)) = some (.file e.content.toUTF8)
  others : ∀ place,
    (∀ e ∈ es, ¬ e.Stays folder d → place ≠ d.destination (e.fullPath folder)) →
    d'.view? place = d.view? place

/-- The statistics of a run: which entries are left alone is decided by the disk before it. -/
def WriteStats.after (folder : String) (d : Disk) (stats : WriteStats) (es : List Entry) :
    WriteStats :=
  { written :=
      stats.written ++ (es.filter fun e => ¬ e.Stays folder d).map Entry.path
    skipped := stats.skipped ++ (es.filter fun e => e.Stays folder d).map Entry.path }

section Run

variable {folder : String} {e : Entry} {es : List Entry} {d d₁ d' : Disk}

theorem Carried.cons_stays
    (hstays : e.Stays folder d)
    (h : Carried folder es d d') :
    Carried folder (e :: es) d d' := by
  refine ⟨h.keeps, ?_, ?_⟩
  · intro e' he' hmoves
    rcases List.mem_cons.mp he' with rfl | hlater
    · exact absurd hstays hmoves
    · exact h.written e' hlater hmoves
  · intro place hplace
    exact h.others place fun e' he' => hplace e' (List.mem_cons_of_mem e he')

theorem Carried.cons_written
    (hmoves : ¬ e.Stays folder d)
    (hfits : Fits folder e.path)
    (hputs : d.Puts d₁ (d.destination (e.fullPath folder)) (.file e.content.toUTF8))
    (hstays : ∀ e' ∈ es, (e'.Stays folder d₁ ↔ e'.Stays folder d))
    (hapart : ∀ e' ∈ es, d.destination (e.fullPath folder) ≠ d.destination (e'.fullPath folder))
    (h : Carried folder es d₁ d') :
    Carried folder (e :: es) d d' := by
  have hdest : ∀ path, d₁.destination path = d.destination path :=
    destination_congr hputs.here
  refine ⟨hputs.overlays.keeps.trans h.keeps, ?_, ?_⟩
  · intro e' he' hmoves'
    rcases List.mem_cons.mp he' with rfl | hlater
    · -- No later entry goes to this place.
      have hkept := h.others (d.destination (e'.fullPath folder)) fun e'' he'' _ => by
        rw [hdest]
        exact hapart e'' he''
      exact ⟨hfits, by rw [hkept, hputs.view?, if_pos rfl]⟩
    · rw [← hstays e' hlater] at hmoves'
      rw [← hdest]
      exact h.written e' hlater hmoves'
  · intro place hplace
    have hkept := h.others place fun e' he' hmoves' => by
      rw [hdest]
      exact hplace e' (List.mem_cons_of_mem e he') fun hs => hmoves' ((hstays e' he').mpr hs)
    rw [hkept, hputs.view?, if_neg (hplace e List.mem_cons_self hmoves)]

end Run

/--
Writing entries with distinct names into a folder that exists carries each of them out: the run
lemma over `Carried.cons_stays` and `Carried.cons_written`.
-/
theorem writeEntries_names
    {folder : String} {es : List Entry} {d d' : Disk} {stats stats' : WriteStats}
    (hfolder : d.isFolder folder = true)
    (hnames : ∀ e ∈ es, IsName e.path)
    (hnodup : (es.map Entry.path).Nodup)
    (h : writeEntries folder d stats es = (d', .ok stats')) :
    Carried folder es d d' ∧ stats' = stats.after folder d es := by
  induction es generalizing d stats with
  | nil =>
      cases h
      exact ⟨⟨Keeps.refl d', by simp, fun _ _ => rfl⟩, by simp [WriteStats.after]⟩
  | cons e es ih =>
      have hname := hnames e List.mem_cons_self
      have hnames' := fun e' he' => hnames e' (List.mem_cons_of_mem e he')
      obtain ⟨hnew, hnodup'⟩ := List.nodup_cons.mp hnodup
      rw [writeEntries] at h
      split at h
      · rename_i d₁ result hwrite
        rcases Entry.write_name_cases hfolder hname hwrite with
          ⟨rfl, hstays, rfl⟩ | ⟨rfl, hmoves, hfits, hputs⟩
        · obtain ⟨hcarried, hstats⟩ := ih hfolder hnames' hnodup' h
          refine ⟨hcarried.cons_stays hstays, ?_⟩
          rw [hstats]
          simp [WriteStats.after, WriteStats.add, hstays]
        · have hne : ∀ e' ∈ es, e'.path ≠ e.path := by
            intro e' he' hpath
            exact hnew (hpath ▸ List.mem_map_of_mem he')
          have hsame : ∀ e' ∈ es, (e'.Stays folder d₁ ↔ e'.Stays folder d) := fun e' he' =>
            Entry.stays_of_puts hfolder hname (hnames' e' he') (hne e' he') hputs
          have hapart : ∀ e' ∈ es,
              d.destination (e.fullPath folder) ≠ d.destination (e'.fullPath folder) := by
            intro e' he' hplace
            exact hne e' he'
              ((d.destination_join_inj folder hname (hnames' e' he')).mp hplace).symm
          obtain ⟨hcarried, hstats⟩ := ih (hputs.overlays.keeps.isFolder hfolder) hnames' hnodup' h
          refine ⟨hcarried.cons_written hmoves hfits hputs hsame hapart, ?_⟩
          have hmoved : (es.filter fun e' => ¬ e'.Stays folder d₁) =
              es.filter fun e' => ¬ e'.Stays folder d :=
            List.filter_congr fun e' he' => by simp [hsame e' he']
          have hstayed : (es.filter fun e' => e'.Stays folder d₁) =
              es.filter fun e' => e'.Stays folder d :=
            List.filter_congr fun e' he' => by simp [hsame e' he']
          rw [hstats, WriteStats.after, hmoved, hstayed]
          simp [WriteStats.after, WriteStats.add, hmoves]
      · cases h

end Files
end ContractGen
