import ContractGen.Files.Disk

/-!
# The places of a disk

A disk has finitely many places. What a path names is one of them, so a search that visits each
place once comes to an end.
-/

namespace ContractGen
namespace Files

mutual

/-- The places below a node, as seen from it. -/
def Node.places : Node → List Place
  | .file _ => [[]]
  | .folder entries => [] :: Node.entryPlaces entries

/-- The places below the entries of a folder. -/
def Node.entryPlaces : List (String × Node) → List Place
  | [] => []
  | (name, node) :: rest => node.places.map (name :: ·) ++ Node.entryPlaces rest

end

namespace Node

/-- A node is a place of itself. -/
theorem nil_mem_places
    (node : Node) :
    [] ∈ node.places := by
  cases node <;> simp [places]

/-- The places below an entry are places below the entries. -/
theorem cons_mem_entryPlaces
    {name : String} {node : Node} {place : Place} {entries : List (String × Node)}
    (hmem : (name, node) ∈ entries)
    (hplace : place ∈ node.places) :
    name :: place ∈ entryPlaces entries := by
  induction entries with
  | nil => cases hmem
  | cons e rest ih =>
    obtain ⟨name', node'⟩ := e
    rcases List.mem_cons.mp hmem with heq | hrest
    · cases heq
      simp [entryPlaces, hplace]
    · simp [entryPlaces, ih hrest]

/-- An entry that is found is an entry. -/
theorem mem_of_lookup?
    {name : String} {node : Node} {entries : List (String × Node)}
    (h : lookup? name entries = some node) :
    (name, node) ∈ entries := by
  obtain ⟨e, he, rfl⟩ := Option.map_eq_some_iff.mp h
  have hname := List.find?_some he
  have hmem := List.mem_of_find?_eq_some he
  simp only [decide_eq_true_eq] at hname
  subst hname
  exact hmem

/-- Every place that holds a node is listed. -/
theorem mem_places_of_at?
    {place : Place} {node found : Node}
    (h : node.at? place = some found) :
    place ∈ node.places := by
  induction place generalizing node with
  | nil => exact node.nil_mem_places
  | cons name names ih =>
    cases node with
    | file _ => simp [at?] at h
    | folder entries =>
      obtain ⟨child, hchild, hrest⟩ := Option.bind_eq_some_iff.mp h
      simp only [places, List.mem_cons, reduceCtorEq, false_or]
      exact cons_mem_entryPlaces (mem_of_lookup? hchild) (ih hrest)

/-- Going to a place and on from there is going along both. -/
theorem at?_append
    (place more : Place)
    (node : Node) :
    node.at? (place ++ more) = (node.at? place).bind (at? more) := by
  induction place generalizing node with
  | nil => simp [at?]
  | cons name names ih =>
    cases node with
    | file _ => simp [at?]
    | folder entries =>
      simp only [List.cons_append, at?]
      cases lookup? name entries with
      | none => rfl
      | some child => exact ih child

/-- The folder of a place holds a node if the place does. -/
theorem at?_dropLast_isSome
    {place : Place} {node : Node}
    (h : (node.at? place).isSome) :
    (node.at? place.dropLast).isSome := by
  rcases List.eq_nil_or_concat place with rfl | ⟨names, name, rfl⟩
  · exact h
  · rw [List.concat_eq_append] at h ⊢
    rw [List.dropLast_concat]
    rw [at?_append] at h
    cases hn : node.at? names with
    | none => simp [hn] at h
    | some _ => rfl

end Node

namespace Disk

/-- The places of a disk. -/
def places (d : Disk) : List Place :=
  d.root.places

/-- Following a path ends where something is, if it starts where something is. -/
theorem follow_isSome
    (d : Disk)
    {place place' : Place} {pieces : List (List Char)}
    (h : d.follow place pieces = .ok place')
    (hplace : (d.node? place).isSome) :
    (d.node? place').isSome := by
  induction pieces generalizing place with
  | nil =>
    cases h
    exact hplace
  | cons piece rest ih =>
    rw [follow] at h
    split at h
    · cases h
    · cases h
    · rename_i entries hentries
      split at h
      · exact ih h hplace
      · split at h
        · exact ih h (Node.at?_dropLast_isSome hplace)
        · split at h
          · cases h
          · split at h
            · rename_i hlookup
              refine ih h ?_
              simp only [node?] at hentries ⊢
              rw [Node.at?_append, hentries]
              cases hl : Node.lookup? (String.ofList piece) entries with
              | none => simp [hl] at hlookup
              | some _ => simp [Node.at?, hl]
            · cases h

/-- A path has at least one piece. -/
theorem splitAt_ne_nil
    (c : Char)
    (text : List Char) :
    Text.splitAt c text ≠ [] := by
  cases text with
  | nil => simp [Text.splitAt]
  | cons x xs =>
    rw [Text.splitAt]
    split
    · simp
    · split <;> simp

/-- Something must be where following a path starts. -/
theorem node?_isSome_of_follow
    (d : Disk)
    {place place' : Place} {pieces : List (List Char)}
    (h : d.follow place pieces = .ok place')
    (hpieces : pieces ≠ []) :
    (d.node? place).isSome := by
  cases pieces with
  | nil => exact absurd rfl hpieces
  | cons piece rest =>
    rw [follow] at h
    split at h
    · cases h
    · cases h
    · rename_i hentries
      rw [hentries]
      rfl

/-- A path leads to a place of the disk. -/
theorem mem_places_of_canonicalize
    {d : Disk} {path : String} {place : Place}
    (h : d.canonicalize path = .ok place) :
    place ∈ d.places := by
  rw [canonicalize] at h
  split at h
  · cases h
  · have hpieces : (d.start path).2 ≠ [] := by
      rw [start]
      split <;> exact splitAt_ne_nil _ _
    have hsome := d.follow_isSome h (d.node?_isSome_of_follow h hpieces)
    obtain ⟨node, hnode⟩ := Option.isSome_iff_exists.mp hsome
    exact Node.mem_places_of_at? hnode

end Disk
end Files
end ContractGen
