import ContractGen.Domain.Loading

/-!
# Loading a model with all that it imports

Imports are found breadth first, starting at a root file. A file counts as the place that its path
leads to, so each one is loaded once, whatever the spelling of its path and even if files import
each other. Every file that is found takes a place away from those not yet visited, so the search
ends.
-/

namespace ContractGen
namespace Domain

open Files

/-- The folder that the references of a model are relative to. -/
def ModelSource.folder (s : ModelSource) : String :=
  (Path.parent? s.path).getD "."

/-- How many places of a file system have not been visited. -/
def unvisited (fs : FileSystem) (visited : List Place) : Nat :=
  fs.places.countP fun place => place ∉ visited

/-- What an import of a source adds: its place and the model there, or nothing if it was visited. -/
def loadImport (fs : FileSystem) (s : ModelSource) (visited : List Place) (name : String) :
    Except ModelError (Option (Place × ModelSource)) :=
  let path := Path.join s.folder name
  match fs.canonicalize path with
  | .error cause => .error (.badImport s.path name (.unreadable path cause))
  | .ok place =>
    if place ∈ visited then
      .ok none
    else
      match Model.load fs path with
      | .error cause => .error (.badImport s.path name cause)
      | .ok model => .ok (some (place, { path, model }))

/-- Load the imports of a source that are new: the places visited then, and what was found. -/
def loadImports (fs : FileSystem) (s : ModelSource) (visited : List Place) :
    List String → Except ModelError (List Place × List ModelSource)
  | [] => .ok (visited, [])
  | name :: names =>
    match loadImport fs s visited name with
    | .error e => .error e
    | .ok none => loadImports fs s visited names
    | .ok (some (place, source)) =>
      match loadImports fs s (place :: visited) names with
      | .error e => .error e
      | .ok (visited', found) => .ok (visited', source :: found)

/-- An import that adds a source is visited before those after it are loaded. -/
theorem loadImports_cons
    (fs : FileSystem)
    (s : ModelSource)
    (visited : List Place)
    (name : String)
    (names : List String) :
    loadImports fs s visited (name :: names) =
      match loadImport fs s visited name with
      | .error e => .error e
      | .ok none => loadImports fs s visited names
      | .ok (some (place, source)) =>
        match loadImports fs s (place :: visited) names with
        | .error e => .error e
        | .ok (visited', found) => .ok (visited', source :: found) := by
  exact rfl

/-- Visiting a place that there is and that is new leaves fewer to visit. -/
theorem unvisited_cons_lt
    {fs : FileSystem} {visited : List Place} {place : Place}
    (hmem : place ∈ fs.places)
    (hnew : place ∉ visited) :
    unvisited fs (place :: visited) < unvisited fs visited := by
  have hle : ∀ places : List Place, places.countP (fun p => p ∉ place :: visited) ≤
      places.countP (fun p => p ∉ visited) := fun places =>
    List.countP_mono_left fun p _ hp => by simp_all
  have hlt : ∀ places : List Place, place ∈ places →
      places.countP (fun p => p ∉ place :: visited) < places.countP (fun p => p ∉ visited) := by
    intro places
    induction places with
    | nil => simp
    | cons p places ih =>
      intro hp
      by_cases heq : p = place
      · have := hle places
        simp only [List.countP_cons, heq]
        simp [hnew] at this ⊢
        omega
      · have := ih ((List.mem_cons.mp hp).resolve_left fun h => heq h.symm)
        simp only [List.countP_cons]
        by_cases hv : p ∈ visited <;> simp [hv, heq] at this ⊢ <;> omega
  exact hlt fs.places hmem

/-- What an import adds lies at a place that there is and that is new. -/
theorem mem_places_of_loadImport
    {fs : FileSystem} {s : ModelSource} {visited : List Place} {name : String} {place : Place}
    {source : ModelSource}
    (h : loadImport fs s visited name = .ok (some (place, source))) :
    place ∈ fs.places ∧ place ∉ visited := by
  unfold loadImport at h
  dsimp only at h
  split at h
  · cases h
  · rename_i hplace
    split at h
    · cases h
    · rename_i hnew
      split at h
      · cases h
      · cases h
        exact ⟨fs.mem_places hplace, hnew⟩

/-- What is found was not visited before. -/
theorem unvisited_add_length_le
    {fs : FileSystem} {s : ModelSource} {visited visited' : List Place} {names : List String}
    {found : List ModelSource}
    (h : loadImports fs s visited names = .ok (visited', found)) :
    unvisited fs visited' + found.length ≤ unvisited fs visited := by
  induction names generalizing visited visited' found with
  | nil =>
    cases h
    simp
  | cons name names ih =>
    rw [loadImports_cons] at h
    split at h
    · cases h
    · exact ih h
    · rename_i hstep
      split at h
      · cases h
      · rename_i hrest
        cases h
        obtain ⟨hmem, hnew⟩ := mem_places_of_loadImport hstep
        have hlt := unvisited_cons_lt hmem hnew
        have hle := ih hrest
        simp only [List.length_cons]
        omega

/-- The sources of a queue and what they import, in the order of discovery. -/
def followSources (fs : FileSystem) (visited : List Place) (queue : List ModelSource) :
    Except ModelError (List ModelSource) :=
  match queue with
  | [] => .ok []
  | s :: queue =>
    match _h : loadImports fs s visited s.model.imports with
    | .error e => .error e
    | .ok (visited', found) =>
      match followSources fs visited' (queue ++ found) with
      | .error e => .error e
      | .ok sources => .ok (s :: sources)
termination_by unvisited fs visited + queue.length
decreasing_by
  have hle := unvisited_add_length_le _h
  simp only [List.length_append, List.length_cons]
  omega

/-- Load a model file and all files that it imports, directly or not. The file itself is first. -/
def resolveModels (fs : FileSystem) (root : String) : Except ModelError (List ModelSource) := do
  match fs.canonicalize root with
  | .error cause => .error (.unreadable root cause)
  | .ok place =>
    let model ← Model.load fs root
    followSources fs [place] [{ path := root, model }]

end Domain
end ContractGen
