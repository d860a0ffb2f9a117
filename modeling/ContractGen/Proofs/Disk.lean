import ContractGen.Failure
import ContractGen.Files.Places
import Mathlib.Data.List.TakeWhile

/-!
# What file operations change

A disk is looked at through its views: what stands at each place is a file with its bytes, a folder,
or nothing. A path names a place that can be read off the path alone, its destination, because
folders are the only things a path can go through. Every operation has one lemma that says how it
changes the views, and the others are built on these.

* `Disk.view?_put` is about the tree, `Disk.follow_cons_iff` about one step along a path.
* `Disk.makeFolders_grows` and `Disk.writeWithFolders_overlays` are about whole operations.
* `Disk.Overlays.readBytes` says what is read afterwards.
-/

namespace ContractGen
namespace Files

/-! ## Views -/

/-- What stands at a place. -/
inductive View
  | file (content : ByteArray)
  | folder

namespace Node

/-- A node without the entries of a folder. -/
def view : Node → View
  | file content => .file content
  | folder _ => .folder

@[simp] theorem view_folder
    (entries : List (String × Node)) :
    (folder entries).view = .folder := by
  rfl

@[simp] theorem view_file
    (content : ByteArray) :
    (file content).view = .file content := by
  rfl

theorem view_eq_folder_iff
    {node : Node} :
    node.view = .folder ↔ ∃ entries, node = folder entries := by
  cases node <;> simp

/-- After an insertion the name has the new node; every other name is looked up as before. -/
theorem lookup?_insert
    (name other : String)
    (node : Node)
    (entries : List (String × Node)) :
    lookup? other (insert name node entries) =
      if other = name then some node else lookup? other entries := by
  induction entries with
  | nil =>
      by_cases h : other = name
      · simp [insert, lookup?, h]
      · simp [insert, lookup?, h, Ne.symm h]
  | cons e entries ih =>
      simp only [lookup?] at ih
      by_cases he : e.1 = name
      · by_cases h : other = name
        · simp [insert, lookup?, he, h]
        · simp [insert, lookup?, he, h, Ne.symm h]
      · by_cases h : e.1 = other
        · have hne : other ≠ name := h ▸ he
          simp [insert, lookup?, h, hne]
        · simp [insert, lookup?, he, h, ih]

/-- Whether nothing is below a node. -/
def IsLeaf (node : Node) : Prop :=
  ∀ name names, node.at? (name :: names) = none

theorem isLeaf_file
    (content : ByteArray) :
    (file content).IsLeaf := by
  intro name names
  rfl

theorem isLeaf_emptyFolder :
    (folder []).IsLeaf := by
  intro name names
  rfl

/-- A modification below an existing child replaces that child alone. -/
theorem modifyAt_cons
    {names : List String}
    (hnames : names ≠ [])
    (f : Option Node → Option Node)
    (name : String)
    (entries : List (String × Node))
    {child : Node}
    (hchild : lookup? name entries = some child) :
    modifyAt f (name :: names) (folder entries) =
      folder (insert name (modifyAt f names child) entries) := by
  cases names with
  | nil =>
      exact absurd rfl hnames
  | cons next names =>
      simp [modifyAt, hchild]

/-- Nothing is below a place that holds no folder. -/
theorem bind_at?_eq_none
    {node? : Option Node}
    (h : node?.map view ≠ some .folder)
    (name : String)
    (names : List String) :
    node?.bind (at? (name :: names)) = none := by
  cases node? with
  | none =>
      rfl
  | some node =>
      cases node with
      | file content =>
          rfl
      | folder entries =>
          exact absurd rfl h

/-- Putting a leaf into a folder is seen at its place and nowhere else. -/
theorem view_modifyAt_leaf
    {leaf : Node}
    (hleaf : leaf.IsLeaf)
    {node : Node}
    {parent : Place}
    {name : String}
    {entries : List (String × Node)}
    (hparent : node.at? parent = some (folder entries))
    (hfree : (node.at? (parent ++ [name])).map view ≠ some .folder)
    (place : Place) :
    ((node.modifyAt (fun _ => some leaf) (parent ++ [name])).at? place).map view =
      if place = parent ++ [name] then some leaf.view else (node.at? place).map view := by
  induction parent generalizing node place with
  | nil =>
      cases hparent
      cases place with
      | nil =>
          simp [modifyAt, at?]
      | cons first rest =>
          simp only [List.nil_append, modifyAt, at?, lookup?_insert]
          by_cases hfirst : first = name
          · subst hfirst
            cases rest with
            | nil =>
                simp [at?]
            | cons next rest =>
                -- Below the new leaf there is nothing, and there was nothing before.
                have hempty : (lookup? first entries).map view ≠ some .folder := by
                  simpa [at?] using hfree
                simp [hleaf next rest, bind_at?_eq_none hempty next rest]
          · simp [hfirst]
  | cons step parent ih =>
      cases node with
      | file content =>
          simp [at?] at hparent
      | folder around =>
          obtain ⟨child, hchild, hbelow⟩ := Option.bind_eq_some_iff.mp hparent
          have hfree' : (child.at? (parent ++ [name])).map view ≠ some .folder := by
            simpa [at?, hchild] using hfree
          rw [List.cons_append, modifyAt_cons (by simp) _ _ _ hchild]
          cases place with
          | nil =>
              simp [at?]
          | cons first rest =>
              simp only [at?, lookup?_insert]
              by_cases hfirst : first = step
              · subst hfirst
                have hrest := ih hbelow hfree' rest
                simpa [hchild] using hrest
              · simp [hfirst]

end Node

namespace Disk

/-- What stands at a place of a disk. -/
def view? (d : Disk) (place : Place) : Option View :=
  (d.node? place).map Node.view

theorem view?_eq_folder_iff
    {d : Disk} {place : Place} :
    d.view? place = some .folder ↔ ∃ entries, d.node? place = some (.folder entries) := by
  simp only [view?, Option.map_eq_some_iff, Node.view_eq_folder_iff]
  constructor
  · rintro ⟨node, hnode, entries, rfl⟩
    exact ⟨entries, hnode⟩
  · rintro ⟨entries, hnode⟩
    exact ⟨_, hnode, entries, rfl⟩

/-- Putting a leaf at a free name of a folder changes what is seen at that place only. -/
theorem view?_put
    {d : Disk} {folder : Place} {name : String} {leaf : Node}
    (hfolder : d.view? folder = some .folder)
    (hleaf : leaf.IsLeaf)
    (hfree : d.view? (folder ++ [name]) ≠ some .folder)
    (place : Place) :
    (d.put (folder ++ [name]) leaf).view? place =
      if place = folder ++ [name] then some leaf.view else d.view? place := by
  obtain ⟨entries, hentries⟩ := view?_eq_folder_iff.mp hfolder
  exact Node.view_modifyAt_leaf hleaf hentries hfree place

/-! ## Destinations -/

/-- The place after one piece of a path. -/
def stepTo (place : Place) (piece : List Char) : Place :=
  if Path.isIdle piece then place
  else if piece = ['.', '.'] then place.dropLast
  else place ++ [String.ofList piece]

theorem toList_ne_of_notMem
    {name : String}
    (h : name ∉ ["", ".", ".."]) :
    name.toList ≠ [] ∧ name.toList ≠ ['.'] ∧ name.toList ≠ ['.', '.'] := by
  have hne : ∀ text ∈ ["", ".", ".."], name.toList ≠ text.toList := by
    intro text htext heq
    rw [String.toList_inj] at heq
    exact h (heq ▸ htext)
  exact ⟨hne "" (by simp), hne "." (by simp), hne ".." (by simp)⟩

/-- A piece that is a plain name leads one level down. -/
theorem stepTo_name
    {name : String}
    (h : name ∉ ["", ".", ".."])
    (place : Place) :
    stepTo place name.toList = place ++ [name] := by
  obtain ⟨h₁, h₂, h₃⟩ := toList_ne_of_notMem h
  unfold stepTo Path.isIdle
  simp [h₁, h₂, h₃]

/-- The place that a path leads to, whether or not anything is there. -/
def destination (d : Disk) (path : String) : Place :=
  (d.start path).2.foldl stepTo (d.start path).1

theorem start_congr
    {d d' : Disk}
    (h : d'.here = d.here)
    (path : String) :
    d'.start path = d.start path := by
  simp [start, h]

theorem destination_congr
    {d d' : Disk}
    (h : d'.here = d.here)
    (path : String) :
    d'.destination path = d.destination path := by
  rw [destination, destination, start_congr h]

/-- Whether a piece of a path can be followed from a folder. -/
def Passes (d : Disk) (place : Place) (piece : List Char) : Prop :=
  Path.isIdle piece = true ∨
    piece = ['.', '.'] ∨
    isTooLong (String.ofList piece) = false ∧
      (d.view? (place ++ [String.ofList piece])).isSome

theorem isSome_lookup?
    {d : Disk} {place : Place} {entries : List (String × Node)}
    (h : d.node? place = some (.folder entries))
    (name : String) :
    (Node.lookup? name entries).isSome = (d.view? (place ++ [name])).isSome := by
  have hat : d.node? (place ++ [name]) = Node.lookup? name entries := by
    rw [node?, Node.at?_append, ← node?, h]
    cases hl : Node.lookup? name entries <;> simp [Node.at?, hl]
  simp [view?, hat]

/-- Following a path by one piece. -/
theorem follow_cons_iff
    {d : Disk} {place place' : Place} {piece : List Char} {rest : List (List Char)} :
    d.follow place (piece :: rest) = .ok place' ↔
      d.view? place = some .folder ∧
      d.Passes place piece ∧
      d.follow (stepTo place piece) rest = .ok place' := by
  cases hnode : d.node? place with
  | none =>
      simp [follow, view?, hnode]
  | some node =>
      cases node with
      | file content =>
          simp [follow, view?, hnode]
      | folder entries =>
          have hview : d.view? place = some .folder := view?_eq_folder_iff.mpr ⟨entries, hnode⟩
          rw [follow]
          simp only [hnode, hview, true_and, Passes, stepTo, isSome_lookup? hnode]
          by_cases hidle : Path.isIdle piece
          · simp [hidle]
          · by_cases hdots : piece = ['.', '.']
            · subst hdots
              simp [show Path.isIdle ['.', '.'] = false by decide]
            · by_cases hlong : isTooLong (String.ofList piece)
              · simp [hidle, hdots, hlong]
              · by_cases hsome : (d.view? (place ++ [String.ofList piece])).isSome
                · simp [hidle, hdots, hlong, hsome]
                · simp [hidle, hdots, hlong, hsome]

/-- Where a walk over the folders succeeds, it ends where the pieces point, folders or not. -/
theorem follow_eq
    {d : Disk} {place place' : Place} {pieces : List (List Char)}
    (h : d.follow place pieces = .ok place') :
    place' = pieces.foldl stepTo place := by
  induction pieces generalizing place with
  | nil =>
      cases h
      rfl
  | cons piece rest ih =>
      obtain ⟨-, -, hrest⟩ := follow_cons_iff.mp h
      exact ih hrest

/-- A located path is located at its destination. -/
theorem locate_eq
    {d : Disk} {path : String} {place : Place}
    (h : d.locate path = .ok place) :
    place = d.destination path := by
  rw [locate] at h
  split at h
  · cases h
  · exact follow_eq h

/-- Pieces that are empty lead nowhere. -/
theorem foldl_stepTo_empty
    {pieces : List (List Char)}
    (h : ∀ piece ∈ pieces, piece = [])
    (place : Place) :
    pieces.foldl stepTo place = place := by
  induction pieces with
  | nil =>
      rfl
  | cons piece rest ih =>
      have hpiece : piece = [] := h piece (by simp)
      subst hpiece
      have hstep : stepTo place [] = place := rfl
      rw [List.foldl_cons, hstep]
      exact ih fun piece hmem => h piece (by simp [hmem])

theorem dropEnd_append
    {pieces idle : List (List Char)} {last : List Char}
    (hidle : ∀ piece ∈ idle, piece = [])
    (hlast : last ≠ []) :
    ((pieces ++ last :: idle).reverse.dropWhile (· = [])).reverse = pieces ++ [last] := by
  have hdrop : idle.reverse.dropWhile (· = []) = [] := by
    rw [List.dropWhile_eq_nil_iff]
    intro piece hmem
    simpa using hidle piece (List.mem_reverse.mp hmem)
  simp [List.dropWhile_append, hdrop, hlast]

/-- Where dropping the empty pieces at the end leaves a last piece, only empty ones follow it. -/
theorem exists_of_dropEnd
    {pieces front : List (List Char)} {last : List Char}
    (h : (pieces.reverse.dropWhile (· = [])).reverse = front ++ [last]) :
    last ≠ [] ∧ ∃ idle, pieces = front ++ last :: idle ∧ ∀ piece ∈ idle, piece = [] := by
  have hrest : pieces.reverse.dropWhile (· = []) = last :: front.reverse := by
    rw [← List.reverse_inj, h]
    simp
  constructor
  · have hnot := List.head?_dropWhile_not (· = []) pieces.reverse
    simpa [hrest] using hnot
  · refine ⟨(pieces.reverse.takeWhile (· = [])).reverse, ?_, ?_⟩
    · rw [← List.reverse_inj]
      simpa [hrest] using
        (List.takeWhile_append_dropWhile (p := (· = [])) (l := pieces.reverse)).symm
    · intro piece hmem
      simpa using List.mem_takeWhile_imp (List.mem_reverse.mp hmem)

/-- Something can be created under a path that goes through a folder and ends in a name. -/
theorem target_eq_ok_iff
    {d : Disk} {path : String} {folder : Place} {name : String} :
    d.target path = .ok (folder, some name) ↔
      pathFault? path = none ∧
      name ∉ ["", ".", ".."] ∧
      d.view? folder = some .folder ∧
      ∃ front idle,
        (d.start path).2 = front ++ name.toList :: idle ∧
        (∀ piece ∈ idle, piece = []) ∧
        d.follow (d.start path).1 front = .ok folder := by
  rw [target]
  constructor
  · intro h
    split at h
    · cases h
    · rename_i hfault
      dsimp only at h
      split at h
      · simp at h
      · rename_i last hlast
        obtain ⟨folder', hfollow, hname⟩ := bind_eq_ok_iff.mp h
        split at hname
        · cases hname
        · cases hname
        · rename_i entries hentries
          split at hname
          · cases hname
          · rename_i hdots
            cases hname
            obtain ⟨front, hfront⟩ := List.getLast?_eq_some_iff.mp hlast
            obtain ⟨hempty, idle, hpieces, hidle⟩ := exists_of_dropEnd hfront
            rw [hfront, List.dropLast_concat] at hfollow
            refine ⟨hfault, ?_, view?_eq_folder_iff.mpr ⟨entries, hentries⟩, front, idle, ?_, hidle,
              hfollow⟩
            · rw [not_or] at hdots
              simp [← String.toList_inj, hempty, hdots.1, hdots.2]
            · simpa using hpieces
  · rintro ⟨hfault, hname, hfolder, front, idle, hpieces, hidle, hfollow⟩
    obtain ⟨h₁, h₂, h₃⟩ := toList_ne_of_notMem hname
    obtain ⟨entries, hentries⟩ := view?_eq_folder_iff.mp hfolder
    simp only [hfault, hpieces, dropEnd_append hidle h₁, List.getLast?_concat,
      List.dropLast_concat]
    refine bind_eq_ok_iff.mpr ⟨folder, hfollow, ?_⟩
    simp [hentries, h₂, h₃]

/-- What is created or replaced is in a folder, at the destination of the path. -/
theorem target_spec
    {d : Disk} {path : String} {folder : Place} {name : String}
    (h : d.target path = .ok (folder, some name)) :
    d.view? folder = some .folder ∧ folder ++ [name] = d.destination path := by
  obtain ⟨-, hname, hfolder, front, idle, hpieces, hidle, hfollow⟩ := target_eq_ok_iff.mp h
  refine ⟨hfolder, ?_⟩
  have hlast : stepTo folder name.toList = folder ++ [name] := stepTo_name hname folder
  rw [destination, hpieces, List.foldl_append, ← follow_eq hfollow, List.foldl_cons, hlast,
    foldl_stepTo_empty hidle]

/-! ## Effects of operations -/

/-- One place is seen anew, and was not a folder before. -/
structure Puts (d d' : Disk) (place : Place) (view : View) : Prop where
  here : d'.here = d.here
  free : d.view? place ≠ some .folder
  view? : ∀ p, d'.view? p = if p = place then some view else d.view? p

/-- Nothing is different but some folders that are new. -/
structure Grows (d d' : Disk) : Prop where
  here : d'.here = d.here
  view? : ∀ p, d'.view? p = d.view? p ∨ d.view? p = none ∧ d'.view? p = some .folder

/-- A file is written to a place that was not a folder; besides, there may be new folders. -/
structure Overlays (d d' : Disk) (place : Place) (content : ByteArray) : Prop where
  here : d'.here = d.here
  free : d.view? place ≠ some .folder
  written : d'.view? place = some (.file content)
  others : ∀ p, p ≠ place → d'.view? p = d.view? p ∨ d.view? p = none ∧ d'.view? p = some .folder

theorem Grows.refl
    (d : Disk) :
    d.Grows d :=
  ⟨rfl, fun _ => Or.inl rfl⟩

theorem grown_trans
    {a b c : Option View}
    (h : b = a ∨ a = none ∧ b = some .folder)
    (h' : c = b ∨ b = none ∧ c = some .folder) :
    c = a ∨ a = none ∧ c = some .folder := by
  rcases h with rfl | ⟨rfl, rfl⟩
  · exact h'
  · rcases h' with rfl | ⟨hnone, -⟩
    · exact Or.inr ⟨rfl, rfl⟩
    · cases hnone

/-- Growth of a disk by folders composes. -/
theorem Grows.trans
    {d d' d'' : Disk}
    (h : d.Grows d')
    (h' : d'.Grows d'') :
    d.Grows d'' :=
  ⟨h'.here.trans h.here, fun p => grown_trans (h.view? p) (h'.view? p)⟩

theorem Puts.grows
    {d d' : Disk} {place : Place}
    (h : d.Puts d' place .folder)
    (hnone : d.view? place = none) :
    d.Grows d' := by
  refine ⟨h.here, ?_⟩
  intro p
  by_cases hp : p = place
  · subst hp
    exact Or.inr ⟨hnone, by simp [h.view?]⟩
  · exact Or.inl (by simp [h.view?, hp])

/--
A write succeeds at a name that is not too long, in an existing folder, where no folder stands; the
disk gets the file and nothing else.
-/
theorem writeBytes_eq_ok_iff
    {d d' : Disk} {path : String} {content : ByteArray} :
    d.writeBytes path content = .ok d' ↔
      ∃ folder name,
        d.target path = .ok (folder, some name) ∧
        path.toList.getLast? ≠ some '/' ∧
        isTooLong name = false ∧
        d.view? (folder ++ [name]) ≠ some .folder ∧
        d' = d.put (folder ++ [name]) (.file content) := by
  rw [writeBytes, bind_eq_ok_iff]
  constructor
  · rintro ⟨⟨folder, name?⟩, htarget, hwrite⟩
    cases name? with
    | none =>
        cases hwrite
    | some name =>
        dsimp only at hwrite
        split at hwrite
        · cases hwrite
        · rename_i hslash
          split at hwrite
          · cases hwrite
          · rename_i hshort
            split at hwrite
            · cases hwrite
            · rename_i hnode
              cases hwrite
              refine ⟨folder, name, htarget, hslash, by simpa using hshort, ?_, rfl⟩
              intro hview
              obtain ⟨entries, hentries⟩ := view?_eq_folder_iff.mp hview
              exact hnode entries hentries
  · rintro ⟨folder, name, htarget, hslash, hshort, hfree, rfl⟩
    refine ⟨_, htarget, ?_⟩
    dsimp only
    rw [if_neg hslash, if_neg (by simp [hshort])]
    split
    · rename_i entries hentries
      exact absurd (view?_eq_folder_iff.mpr ⟨entries, hentries⟩) hfree
    · rfl

/-- A write that succeeds puts the file at the path's destination. -/
theorem writeBytes_puts
    {d d' : Disk} {path : String} {content : ByteArray}
    (h : d.writeBytes path content = .ok d') :
    d.Puts d' (d.destination path) (.file content) := by
  obtain ⟨folder, name, htarget, -, -, hfree, rfl⟩ := writeBytes_eq_ok_iff.mp h
  obtain ⟨hfolder, hplace⟩ := target_spec htarget
  rw [← hplace]
  exact ⟨rfl, hfree, view?_put hfolder (Node.isLeaf_file content) hfree⟩

/-- A folder is made where nothing has been. -/
theorem put_of_makeFolder
    {d d' : Disk} {path : String}
    (h : d.makeFolder path = .ok d') :
    ∃ folder name,
      d.target path = .ok (folder, some name) ∧
      isTooLong name = false ∧
      d.view? (folder ++ [name]) = none ∧
      d' = d.put (folder ++ [name]) (.folder []) := by
  obtain ⟨⟨folder, name?⟩, htarget, hmake⟩ := bind_eq_ok_iff.mp h
  cases name? with
  | none =>
      cases hmake
  | some name =>
      dsimp only at hmake
      split at hmake
      · cases hmake
      · rename_i hshort
        split at hmake
        · cases hmake
        · rename_i hsome
          cases hmake
          exact ⟨folder, name, htarget, by simpa using hshort, by simpa [view?] using hsome, rfl⟩

/-- Making a folder only adds folders where nothing was. -/
theorem makeFolder_grows
    {d d' : Disk} {path : String}
    (h : d.makeFolder path = .ok d') :
    d.Grows d' := by
  obtain ⟨folder, name, htarget, -, hnone, rfl⟩ := put_of_makeFolder h
  obtain ⟨hfolder, -⟩ := target_spec htarget
  have hfree : d.view? (folder ++ [name]) ≠ some .folder := by
    simp [hnone]
  have hputs : d.Puts (d.put (folder ++ [name]) (.folder [])) (folder ++ [name]) .folder :=
    ⟨rfl, hfree, view?_put hfolder Node.isLeaf_emptyFolder hfree⟩
  exact hputs.grows hnone

/-- Ensuring that a folder is there, made or found, only adds a folder where nothing was. -/
theorem ensureFolder_grows
    {d d' : Disk} {path : String}
    (h : d.ensureFolder path = .ok d') :
    d.Grows d' := by
  rw [ensureFolder] at h
  split at h
  · rename_i hmake
    cases h
    exact makeFolder_grows hmake
  · split at h
    · cases h
      exact Grows.refl d
    · cases h

/-- Even when it fails, creating folders changes nothing else. -/
theorem makeFoldersWithin_grows
    (d : Disk)
    (path : String)
    (fuel : Nat) :
    d.Grows (d.makeFoldersWithin path fuel).1 := by
  induction fuel generalizing path with
  | zero =>
      exact Grows.refl d
  | succ fuel ih =>
      rw [makeFoldersWithin]
      split
      · exact Grows.refl d
      · split
        · rename_i hensure
          exact ensureFolder_grows hensure
        · split
          · exact Grows.refl d
          · rename_i parent hparent
            have hgrows := ih parent
            split
            · rename_i d' hmade
              rw [hmade] at hgrows
              cases hensure : d'.ensureFolder path with
              | ok d'' =>
                  exact hgrows.trans (ensureFolder_grows hensure)
              | error e =>
                  exact hgrows
            · rename_i d' e hmade
              rw [hmade] at hgrows
              exact hgrows
        · exact Grows.refl d

theorem makeFolders_grows
    (d : Disk)
    (path : String) :
    d.Grows (d.makeFolders path).1 :=
  makeFoldersWithin_grows d path _

/-- A file put after the folders leading to it were made overlays the disk with that file. -/
theorem Grows.overlays
    {d d' d'' : Disk} {place : Place} {content : ByteArray}
    (h : d.Grows d')
    (hputs : d'.Puts d'' place (.file content)) :
    d.Overlays d'' place content := by
  refine ⟨hputs.here.trans h.here, ?_, by simp [hputs.view?], ?_⟩
  · intro hfolder
    rcases h.view? place with hplace | ⟨hnone, -⟩
    · exact hputs.free (hplace.trans hfolder)
    · rw [hnone] at hfolder
      cases hfolder
  · intro p hp
    have hp'' : d''.view? p = d'.view? p := by
      simp [hputs.view?, hp]
    rw [hp'']
    exact h.view? p

theorem settle_ok
    {d d' : Disk} {result : Except FileError Disk}
    (h : d.settle result = (d', .ok ())) :
    result = .ok d' := by
  cases result with
  | error e =>
      simp [settle] at h
  | ok written =>
      simpa [settle] using h

/-- Writing a file comes after making the folders that it lies in. -/
theorem writeWithFolders_cases
    {d d' : Disk} {path : String} {content : ByteArray}
    (h : d.writeWithFolders path content = (d', .ok ())) :
    ∃ d₁,
      d₁.writeBytes path content = .ok d' ∧
      (Path.parent? path = none ∧ d₁ = d ∨
        ∃ parent, Path.parent? path = some parent ∧ d.makeFolders parent = (d₁, .ok ())) := by
  unfold writeWithFolders at h
  cases hparent : Path.parent? path with
  | none =>
      rw [hparent] at h
      exact ⟨d, settle_ok h, Or.inl ⟨rfl, rfl⟩⟩
  | some parent =>
      cases hfolders : d.makeFolders parent with
      | mk d₁ result =>
          rw [hparent] at h
          simp only [hfolders] at h
          cases result with
          | error e =>
              cases h
          | ok u =>
              exact ⟨d₁, settle_ok h, Or.inr ⟨parent, rfl, hfolders⟩⟩

/-- A write that first makes its parent folders changes, besides the new folders, the one file. -/
theorem writeWithFolders_overlays
    {d d' : Disk} {path : String} {content : ByteArray}
    (h : d.writeWithFolders path content = (d', .ok ())) :
    d.Overlays d' (d.destination path) content := by
  obtain ⟨d₁, hwrite, hmade⟩ := writeWithFolders_cases h
  have hgrows : d.Grows d₁ := by
    rcases hmade with ⟨-, rfl⟩ | ⟨parent, -, hfolders⟩
    · exact Grows.refl d₁
    · have hgrows := makeFolders_grows d parent
      rwa [hfolders] at hgrows
  rw [← destination_congr hgrows.here]
  exact hgrows.overlays (writeBytes_puts hwrite)

/-! ## Reading afterwards -/

/-- What stands at a place stays there, though a file may get other bytes. -/
structure Keeps (d d' : Disk) : Prop where
  here : d'.here = d.here
  folder : ∀ p, d.view? p = some .folder → d'.view? p = some .folder
  some : ∀ p, (d.view? p).isSome → (d'.view? p).isSome

theorem Overlays.keeps
    {d d' : Disk} {place : Place} {content : ByteArray}
    (h : d.Overlays d' place content) :
    d.Keeps d' := by
  refine ⟨h.here, ?_, ?_⟩
  · intro p hp
    have hne : p ≠ place := by
      rintro rfl
      exact h.free hp
    rcases h.others p hne with hsame | ⟨-, hnew⟩
    · exact hsame.trans hp
    · exact hnew
  · intro p hp
    by_cases hne : p = place
    · rw [hne, h.written]
      rfl
    · rcases h.others p hne with hsame | ⟨-, hnew⟩
      · rw [hsame]
        exact hp
      · rw [hnew]
        rfl

theorem Grows.keeps
    {d d' : Disk}
    (h : d.Grows d') :
    d.Keeps d' := by
  refine ⟨h.here, ?_, ?_⟩
  · intro p hp
    rcases h.view? p with hsame | ⟨hnone, -⟩
    · exact hsame.trans hp
    · rw [hnone] at hp
      cases hp
  · intro p hp
    rcases h.view? p with hsame | ⟨-, hnew⟩
    · rw [hsame]
      exact hp
    · rw [hnew]
      rfl

/-- A walk that succeeds still succeeds on a disk that keeps every folder. -/
theorem Keeps.follow
    {d d' : Disk}
    (h : d.Keeps d')
    {place place' : Place} {pieces : List (List Char)}
    (hfollow : d.follow place pieces = .ok place') :
    d'.follow place pieces = .ok place' := by
  induction pieces generalizing place with
  | nil =>
      exact hfollow
  | cons piece rest ih =>
      obtain ⟨hfolder, hpasses, hrest⟩ := follow_cons_iff.mp hfollow
      refine follow_cons_iff.mpr ⟨h.folder _ hfolder, ?_, ih hrest⟩
      rcases hpasses with hidle | hdots | ⟨hshort, hsome⟩
      · exact Or.inl hidle
      · exact Or.inr (Or.inl hdots)
      · exact Or.inr (Or.inr ⟨hshort, h.some _ hsome⟩)

/-- A located path stays located on a disk that keeps what is there. -/
theorem Keeps.locate
    {d d' : Disk}
    (h : d.Keeps d')
    {path : String} {place : Place}
    (hlocate : d.locate path = .ok place) :
    d'.locate path = .ok place := by
  unfold Disk.locate at hlocate ⊢
  split at hlocate
  · cases hlocate
  · rw [start_congr h.here]
    exact h.follow hlocate

theorem find_eq_ok_iff
    {d : Disk} {path : String} {node : Node} :
    d.find path = .ok node ↔
      d.locate path = .ok (d.destination path) ∧ d.node? (d.destination path) = some node := by
  rw [find, bind_eq_ok_iff]
  constructor
  · rintro ⟨place, hlocate, hplace⟩
    have heq := locate_eq hlocate
    subst heq
    refine ⟨hlocate, ?_⟩
    split at hplace
    · rename_i hnode
      cases hplace
      exact hnode
    · cases hplace
  · rintro ⟨hlocate, hnode⟩
    exact ⟨_, hlocate, by simp [hnode]⟩

theorem view?_eq_file_iff
    {d : Disk} {place : Place} {content : ByteArray} :
    d.view? place = some (.file content) ↔ d.node? place = some (.file content) := by
  rw [view?]
  cases d.node? place with
  | none =>
      simp
  | some node =>
      cases node <;> simp

theorem readBytes_eq_ok_iff
    {d : Disk} {path : String} {content : ByteArray} :
    d.readBytes path = .ok content ↔ d.find path = .ok (.file content) := by
  rw [readBytes, bind_eq_ok_iff]
  constructor
  · rintro ⟨node, hfind, hnode⟩
    cases node with
    | folder entries =>
        cases hnode
    | file bytes =>
        cases hnode
        exact hfind
  · intro hfind
    exact ⟨_, hfind, rfl⟩

/--
A path reads as a content exactly if it is located and the file with this content stands at its
destination.
-/
theorem readBytes_iff
    {d : Disk} {path : String} {content : ByteArray} :
    d.readBytes path = .ok content ↔
      d.locate path = .ok (d.destination path) ∧
      d.view? (d.destination path) = some (.file content) := by
  rw [readBytes_eq_ok_iff, find_eq_ok_iff, view?_eq_file_iff]

theorem holds_of_readBytes
    {d : Disk} {path : String} {content : ByteArray}
    (h : d.readBytes path = .ok content) :
    d.holds path = true := by
  simp [holds, readBytes_eq_ok_iff.mp h]

/-- A file that is there has new bytes if it was written over, and else the bytes it had. -/
theorem Overlays.readBytes
    {d d' : Disk} {place : Place} {content : ByteArray}
    (h : d.Overlays d' place content)
    {path : String} {bytes : ByteArray}
    (hread : d.readBytes path = .ok bytes) :
    d'.readBytes path = .ok (if place = d.destination path then content else bytes) := by
  obtain ⟨hlocate, hview⟩ := readBytes_iff.mp hread
  refine readBytes_iff.mpr ?_
  rw [destination_congr h.here]
  refine ⟨h.keeps.locate hlocate, ?_⟩
  by_cases hplace : place = d.destination path
  · rw [if_pos hplace, ← hplace]
    exact h.written
  · rw [if_neg hplace]
    rcases h.others _ (Ne.symm hplace) with hsame | ⟨hnone, -⟩
    · exact hsame.trans hview
    · rw [hnone] at hview
      cases hview

/-! ## Paths into a folder -/

/-- Whether a text is one name of a path. -/
def IsName (text : String) : Prop :=
  '/' ∉ text.toList ∧ text ∉ ["", ".", ".."]

instance (text : String) : Decidable (IsName text) :=
  inferInstanceAs (Decidable (_ ∧ _))

theorem splitAt_of_notMem
    {separator : Char} {cs : List Char}
    (h : separator ∉ cs) :
    Text.splitAt separator cs = [cs] := by
  induction cs with
  | nil =>
      rfl
  | cons c cs ih =>
      have hc : c ≠ separator := by
        rintro rfl
        simp at h
      have hcs : separator ∉ cs := by
        intro hmem
        simp [hmem] at h
      simp [Text.splitAt, hc, ih hcs]

/-- Splitting at a separator treats the parts on both sides of one occurrence apart. -/
theorem splitAt_append
    (separator : Char)
    (cs ds : List Char) :
    Text.splitAt separator (cs ++ separator :: ds) =
      Text.splitAt separator cs ++ Text.splitAt separator ds := by
  induction cs with
  | nil =>
      simp [Text.splitAt]
  | cons c cs ih =>
      by_cases hc : c = separator
      · simp [Text.splitAt, hc, ih]
      · simp only [List.cons_append, Text.splitAt, hc, if_false, ih]
        cases hsplit : Text.splitAt separator cs with
        | nil =>
            exact absurd hsplit (splitAt_ne_nil separator cs)
        | cons part parts =>
            rfl

theorem start_absolute
    (d : Disk)
    {path : String} {rest : List Char}
    (h : path.toList = '/' :: rest) :
    d.start path = ([], Path.pieces rest) := by
  simp [start, h]

theorem start_relative
    (d : Disk)
    {path : String}
    (h : path.toList.head? ≠ some '/') :
    d.start path = (d.here, Path.pieces path.toList) := by
  unfold start
  split
  · rename_i rest heq
    simp [heq] at h
  · rfl

/-- A path that goes on after a slash starts at the same place and has more pieces. -/
theorem start_append
    (d : Disk)
    {folder : String}
    (hfolder : folder ≠ "")
    (rest : String) :
    d.start (folder ++ "/" ++ rest) =
      ((d.start folder).1, (d.start folder).2 ++ Path.pieces rest.toList) := by
  cases hlist : folder.toList with
  | nil =>
      exact absurd (String.toList_eq_nil_iff.mp hlist) hfolder
  | cons c cs =>
      by_cases hc : c = '/'
      · subst hc
        have hchars : (folder ++ "/" ++ rest).toList = '/' :: (cs ++ '/' :: rest.toList) := by
          simp [hlist]
        rw [d.start_absolute hchars, d.start_absolute hlist]
        simp only [Path.pieces, splitAt_append]
      · have hhead : folder.toList.head? ≠ some '/' := by
          simpa [hlist] using hc
        have hhead' : (folder ++ "/" ++ rest).toList.head? ≠ some '/' := by
          simpa [hlist] using hc
        rw [d.start_relative hhead, d.start_relative hhead']
        simp [Path.pieces, splitAt_append]

/-- A name seen from a folder is one more piece, after those of the folder. -/
theorem start_join
    (d : Disk)
    (folder : String)
    {name : String}
    (h : IsName name) :
    ∃ front idle,
      (∀ piece ∈ idle, piece = []) ∧
      (d.start folder).2 = front ++ idle ∧
      d.start (Path.join folder name) = ((d.start folder).1, front ++ [name.toList]) := by
  have hhead : name.toList.head? ≠ some '/' := by
    intro hhead
    exact h.1 (List.mem_of_mem_head? hhead)
  have hpieces : Path.pieces name.toList = [name.toList] := splitAt_of_notMem h.1
  unfold Path.join
  rw [if_neg (by simpa [Path.isAbsolute] using hhead)]
  split
  · rename_i hends
    by_cases hnil : folder = ""
    · subst hnil
      refine ⟨[], [[]], by simp, rfl, ?_⟩
      rw [String.empty_append, d.start_relative hhead, hpieces]
      rfl
    · have hslash : folder.toList.getLast? = some '/' := by
        simpa [hnil] using hends
      obtain ⟨front, hfront⟩ := List.getLast?_eq_some_iff.mp hslash
      have hfolder : folder = String.ofList front ++ "/" := by
        rw [← String.toList_inj]
        simp [hfront]
      by_cases hroot : String.ofList front = ""
      · rw [hroot, String.empty_append] at hfolder
        subst hfolder
        refine ⟨[], [[]], by simp, rfl, ?_⟩
        have hslashed : ("/" ++ name).toList = '/' :: name.toList := by
          simp
        rw [d.start_absolute hslashed, hpieces]
        rfl
      · have hstart := d.start_append hroot ""
        rw [String.append_empty, ← hfolder] at hstart
        refine ⟨(d.start (String.ofList front)).2, [[]], by simp, by rw [hstart]; rfl, ?_⟩
        rw [hstart, hfolder, d.start_append hroot, hpieces]
  · rename_i hends
    have hnil : folder ≠ "" := by
      rintro rfl
      simp at hends
    refine ⟨(d.start folder).2, [], by simp, by simp, ?_⟩
    rw [d.start_append hnil, hpieces]

/-- A name seen from a folder leads to the place of that name in the folder. -/
theorem destination_join
    (d : Disk)
    (folder : String)
    {name : String}
    (h : IsName name) :
    d.destination (Path.join folder name) = d.destination folder ++ [name] := by
  obtain ⟨front, idle, hidle, hfolder, hjoin⟩ := d.start_join folder h
  rw [destination, destination, hjoin, hfolder, List.foldl_append, List.foldl_append,
    foldl_stepTo_empty hidle]
  exact stepTo_name h.2 _

/-- Below one folder, two names lead to one place only if they are the same name. -/
theorem destination_join_inj
    (d : Disk)
    (folder : String)
    {name other : String}
    (h : IsName name)
    (h' : IsName other) :
    d.destination (Path.join folder name) = d.destination (Path.join folder other) ↔
      name = other := by
  simp [destination_join d folder h, destination_join d folder h']

end Disk
end Files
end ContractGen
