import ContractGen.Domain.Imports
import ContractGen.Proofs.FolderWrites
import ContractGen.Proofs.ModelRoundTrip
import Mathlib.Data.List.Perm.Subperm

/-!
# Imports are followed breadth first, each file once

Loading a model with its imports works on a queue of sources and a list of visited places. This
module puts beside it a search that keeps one growing list of sources and follows their imports from
the first to the last: an import that leads to the place of a source that is there adds nothing, and
any other one is loaded and put at the end. Nothing is assumed about where paths lead and what is
read by them: in particular a path can lead to the place of a source and be no path to load it by.

**Definitions.**
* `links`: the imports of some sources, in the order in which they are followed.
* `importFault?`: why an import cannot be followed when some sources are there.
* `Explores`: the sources that are there once some imports have been followed.
* `IsImportClosure`: what a complete list of sources is like.

**Results.**
* `Explores.unique`, `Explores.stops_unique`: the search can go one way only.
* `Explores.isImportClosure`: all that was found is needed, and all that is needed was found.
* `resolveModels_closure`: loading gives the sources of the search, or the error of the first import
  that cannot be followed.
* `not_resolveModels_fails_first`: this need not be the first import that cannot be loaded.
-/

namespace ContractGen
namespace Domain

open Files

/-! ## Imports in order -/

/-- An import, as it stands in a source. -/
structure Link where
  source : ModelSource
  name : String

/-- The path of the file that an import is about. -/
def Link.path (l : Link) : String :=
  Path.join l.source.folder l.name

/-- The error for an import that cannot be loaded. -/
def Link.error (l : Link) (cause : ModelError) : ModelError :=
  .badImport l.source.path l.name cause

/-- The imports of some sources: those of the first one, those of the second one, and so on. -/
def links (sources : List ModelSource) : List Link :=
  sources.flatMap fun s => s.model.imports.map (Link.mk s)

/-- Why a path leads nowhere, or no model can be loaded by it. -/
def loadFault? (fs : FileSystem) (path : String) : Option ModelError :=
  match fs.canonicalize path with
  | .error cause => some (.unreadable path cause)
  | .ok _ =>
    match Model.load fs path with
    | .error cause => some cause
    | .ok _ => none

/-- Whether two paths lead to the same place. -/
def samePlace (fs : FileSystem) (path other : String) : Bool :=
  match fs.canonicalize path with
  | .error _ => false
  | .ok place => fs.canonicalize other = .ok place

/--
Why an import cannot be followed when some sources are there. Nothing is loaded by a path that leads
to the place of one of them, so it does not matter whether that could be done.
-/
def importFault? (fs : FileSystem) (sources : List ModelSource) (path : String) :
    Option ModelError :=
  if sources.any fun s => samePlace fs path s.path then none else loadFault? fs path

@[simp] theorem links_nil :
    links [] = [] := by
  rfl

@[simp] theorem links_append
    (sources more : List ModelSource) :
    links (sources ++ more) = links sources ++ links more := by
  simp [links]

@[simp] theorem links_cons
    (s : ModelSource)
    (sources : List ModelSource) :
    links (s :: sources) = s.model.imports.map (Link.mk s) ++ links sources := by
  simp [links]

/-- A link leads from one of the sources to one of the names that it imports. -/
theorem mem_links_iff
    {sources : List ModelSource} {l : Link} :
    l ∈ links sources ↔ l.source ∈ sources ∧ l.name ∈ l.source.model.imports := by
  simp only [links, List.mem_flatMap, List.mem_map]
  constructor
  · rintro ⟨s, hs, name, hname, rfl⟩
    exact ⟨hs, hname⟩
  · rintro ⟨hs, hname⟩
    exact ⟨l.source, hs, l.name, hname, rfl⟩

/-- A path loads without a fault where it leads to a place and the model there loads. -/
theorem loadFault?_eq_none_iff
    {fs : FileSystem} {path : String} :
    loadFault? fs path = none ↔
      ∃ place model, fs.canonicalize path = .ok place ∧ Model.load fs path = .ok model := by
  unfold loadFault?
  split
  · rename_i cause hcanonical
    simp [hcanonical]
  · rename_i place hcanonical
    split <;> simp_all

theorem samePlace_iff
    {fs : FileSystem} {path other : String} :
    samePlace fs path other = true ↔
      ∃ place, fs.canonicalize path = .ok place ∧ fs.canonicalize other = .ok place := by
  unfold samePlace
  split <;> simp_all

theorem any_samePlace_iff
    {fs : FileSystem} {sources : List ModelSource} {path : String} {place : Place}
    (hpath : fs.canonicalize path = .ok place) :
    (sources.any fun s => samePlace fs path s.path) = true ↔
      ∃ s ∈ sources, fs.canonicalize s.path = .ok place := by
  simp [samePlace_iff, hpath]

/-- A path that leads to the place of a model already there has no fault, whatever its file name. -/
theorem importFault?_eq_none_of_samePlace
    {fs : FileSystem} {sources : List ModelSource} {path : String} {place : Place}
    (hpath : fs.canonicalize path = .ok place)
    {s : ModelSource}
    (hs : s ∈ sources)
    (hplace : fs.canonicalize s.path = .ok place) :
    importFault? fs sources path = none :=
  if_pos ((any_samePlace_iff hpath).mpr ⟨s, hs, hplace⟩)

/-- An import cannot be followed if it leads nowhere, or to a new place without a model. -/
theorem importFault?_eq_some_iff
    {fs : FileSystem} {sources : List ModelSource} {path : String} {cause : ModelError} :
    importFault? fs sources path = some cause ↔
      (∃ e, fs.canonicalize path = .error e ∧ cause = .unreadable path e) ∨
      ∃ place,
        fs.canonicalize path = .ok place ∧
        (∀ s ∈ sources, fs.canonicalize s.path ≠ .ok place) ∧
        Model.load fs path = .error cause := by
  unfold importFault? loadFault?
  cases hpath : fs.canonicalize path with
  | error e =>
      have hnone : (sources.any fun s => samePlace fs path s.path) = false := by
        simp [samePlace, hpath]
      rw [hnone]
      simpa using eq_comm
  | ok place =>
      have hany : (sources.any fun s => samePlace fs path s.path) = true ↔
          ∃ s ∈ sources, fs.canonicalize s.path = .ok place :=
        any_samePlace_iff hpath
      split
      · rename_i hsame
        obtain ⟨s, hs, hplace⟩ := hany.mp hsame
        simp only [reduceCtorEq, false_and, exists_false, false_or, false_iff]
        rintro ⟨place', hplace', hnew, -⟩
        cases hplace'
        exact hnew s hs hplace
      · rename_i hsame
        have hnew : ∀ s ∈ sources, fs.canonicalize s.path ≠ .ok place := by
          intro s hs hplace
          exact hsame (hany.mpr ⟨s, hs, hplace⟩)
        cases Model.load fs path with
        | error e =>
            simpa using fun _ => hnew
        | ok model =>
            simp

/-! ## The search -/

/--
The sources that are there once some imports have been followed. The search starts at the root, and
it always goes on with the import after those that have been followed.
-/
inductive Explores (fs : FileSystem) (root : String) : List Link → List ModelSource → Prop
  /-- Nothing has been followed yet. -/
  | start {place : Place} {model : Model} :
      fs.canonicalize root = .ok place →
      Model.load fs root = .ok model →
      Explores fs root [] [{ path := root, model }]
  /-- The next import leads to a place that a source was loaded from. -/
  | known {followed : List Link} {sources : List ModelSource} {l : Link} {t : ModelSource} :
      Explores fs root followed sources →
      followed ++ [l] <+: links sources →
      t ∈ sources →
      fs.canonicalize l.path = fs.canonicalize t.path →
      Explores fs root (followed ++ [l]) sources
  /-- The next import leads to a place that no source was loaded from. -/
  | fresh {followed : List Link} {sources : List ModelSource} {l : Link} {place : Place}
      {model : Model} :
      Explores fs root followed sources →
      followed ++ [l] <+: links sources →
      fs.canonicalize l.path = .ok place →
      (∀ t ∈ sources, fs.canonicalize t.path ≠ .ok place) →
      Model.load fs l.path = .ok model →
      Explores fs root (followed ++ [l]) (sources ++ [{ path := l.path, model }])

/-- The search cannot go on: every import has been followed, or the next one cannot be. -/
def Stops (fs : FileSystem) (followed : List Link) (sources : List ModelSource) : Prop :=
  followed = links sources ∨
    ∃ l, followed ++ [l] <+: links sources ∧ importFault? fs sources l.path ≠ none

/-- The first import that cannot be followed gives this error. -/
def FailsWith (fs : FileSystem) (root : String) (e : ModelError) : Prop :=
  ∃ followed sources l cause,
    Explores fs root followed sources ∧
    followed ++ [l] <+: links sources ∧
    importFault? fs sources l.path = some cause ∧
    e = l.error cause

theorem eq_of_next
    {α : Type} {xs ys : List α} {x y : α}
    (hx : xs ++ [x] <+: ys)
    (hy : xs ++ [y] <+: ys) :
    x = y := by
  have hstart : xs ++ [x] <+: xs ++ [y] := List.prefix_of_prefix_length_le hx hy (by simp)
  have heq := hstart.eq_of_length (by simp)
  simpa using heq

namespace Explores

variable {fs : FileSystem} {root : String} {followed followed' : List Link}
  {sources sources' : List ModelSource}

theorem mem_sources
    {l : Link}
    (h : followed ++ [l] <+: links sources) :
    l.source ∈ sources ∧ l.name ∈ l.source.model.imports :=
  mem_links_iff.mp (h.subset (by simp))

/-- Every source has a place and was loaded from it. -/
theorem loaded
    (h : Explores fs root followed sources)
    {s : ModelSource}
    (hs : s ∈ sources) :
    ∃ place, fs.canonicalize s.path = .ok place ∧ Model.load fs s.path = .ok s.model := by
  induction h with
  | start hplace hmodel =>
      rw [List.mem_singleton] at hs
      subst hs
      exact ⟨_, hplace, hmodel⟩
  | known _ _ _ _ ih =>
      exact ih hs
  | fresh _ _ hplace _ hmodel ih =>
      rcases List.mem_append.mp hs with hold | hnew
      · exact ih hold
      · rw [List.mem_singleton] at hnew
        subst hnew
        exact ⟨_, hplace, hmodel⟩

theorem loadFault?_root
    (h : Explores fs root followed sources) :
    loadFault? fs root = none := by
  induction h with
  | start hplace hmodel =>
      exact loadFault?_eq_none_iff.mpr ⟨_, _, hplace, hmodel⟩
  | known _ _ _ _ ih =>
      exact ih
  | fresh _ _ _ _ _ ih =>
      exact ih

/-! ### One way only -/

/-- Before the last import was followed, the search was at some sources with that import next. -/
theorem exists_before
    {l : Link}
    (h : Explores fs root (followed ++ [l]) sources) :
    ∃ before,
      Explores fs root followed before ∧
      followed ++ [l] <+: links before ∧
      ((∃ t ∈ before, fs.canonicalize l.path = fs.canonicalize t.path) ∧ sources = before ∨
        ∃ place model,
          fs.canonicalize l.path = .ok place ∧
          (∀ t ∈ before, fs.canonicalize t.path ≠ .ok place) ∧
          Model.load fs l.path = .ok model ∧
          sources = before ++ [{ path := l.path, model }]) := by
  generalize hlast : followed ++ [l] = last at h
  cases h with
  | start _ _ =>
      simp at hlast
  | known hbefore hnext ht hsame =>
      obtain ⟨rfl, hl⟩ := List.append_inj' hlast rfl
      cases hl
      exact ⟨_, hbefore, hlast ▸ hnext, Or.inl ⟨⟨_, ht, hsame⟩, rfl⟩⟩
  | fresh hbefore hnext hplace hnew hmodel =>
      obtain ⟨rfl, hl⟩ := List.append_inj' hlast rfl
      cases hl
      exact ⟨_, hbefore, hlast ▸ hnext, Or.inr ⟨_, _, hplace, hnew, hmodel, rfl⟩⟩

/-- The imports that have been followed decide which sources are there. -/
theorem unique
    (h : Explores fs root followed sources)
    (h' : Explores fs root followed sources') :
    sources = sources' := by
  induction h generalizing sources' with
  | start _ hmodel =>
      generalize hnone : ([] : List Link) = none at h'
      cases h' with
      | start _ hmodel' =>
          rw [hmodel] at hmodel'
          cases hmodel'
          rfl
      | known _ _ _ _ =>
          simp at hnone
      | fresh _ _ _ _ _ =>
          simp at hnone
  | known _ _ ht hsame ih =>
      obtain ⟨before, hbefore, -, ⟨-, rfl⟩ | ⟨place, model, hplace, hnew, -, -⟩⟩ :=
        h'.exists_before
      · exact ih hbefore
      · cases ih hbefore
        exact absurd (hsame.symm.trans hplace) (hnew _ ht)
  | fresh _ _ hplace hnew hmodel ih =>
      obtain ⟨before, hbefore, -, ⟨⟨t, ht, hsame⟩, rfl⟩ | ⟨place, model, -, -, hmodel', rfl⟩⟩ :=
        h'.exists_before
      · cases ih hbefore
        exact absurd (hsame.symm.trans hplace) (hnew _ ht)
      · cases ih hbefore
        rw [hmodel] at hmodel'
        cases hmodel'
        rfl

/-- The search has been at every shorter list of imports, and the next import could be followed. -/
theorem exists_earlier
    (h : Explores fs root followed sources)
    {l : Link}
    (hstart : followed' ++ [l] <+: followed) :
    ∃ earlier,
      Explores fs root followed' earlier ∧
      followed' ++ [l] <+: links earlier ∧
      importFault? fs earlier l.path = none := by
  induction h with
  | start _ _ =>
      simp at hstart
  | known hbefore hnext ht hsame ih =>
      rcases List.prefix_concat_iff.mp hstart with heq | hshorter
      · obtain ⟨rfl, hl⟩ := List.append_inj' heq rfl
        cases hl
        obtain ⟨place, hplace, -⟩ := hbefore.loaded ht
        exact ⟨_, hbefore, hnext,
          importFault?_eq_none_of_samePlace (hsame.trans hplace) ht hplace⟩
      · exact ih hshorter
  | fresh hbefore hnext hplace _ hmodel ih =>
      rcases List.prefix_concat_iff.mp hstart with heq | hshorter
      · obtain ⟨rfl, hl⟩ := List.append_inj' heq rfl
        cases hl
        have hfault := loadFault?_eq_none_iff.mpr ⟨_, _, hplace, hmodel⟩
        exact ⟨_, hbefore, hnext, by simp [importFault?, hfault]⟩
      · exact ih hshorter

/-- Where the search goes on, it goes on with the next import. -/
theorem next_of_prefix
    (h : Explores fs root followed sources)
    (h' : Explores fs root followed' sources')
    (hstart : followed <+: followed') :
    followed = followed' ∨
      ∃ l,
        followed ++ [l] <+: links sources ∧
        followed ++ [l] <+: followed' ∧
        importFault? fs sources l.path = none := by
  obtain ⟨rest, rfl⟩ := hstart
  cases rest with
  | nil =>
      exact Or.inl (List.append_nil _).symm
  | cons l rest =>
      have hlonger : followed ++ [l] <+: followed ++ l :: rest := ⟨rest, by simp⟩
      obtain ⟨earlier, hearlier, hnext, hfault⟩ := h'.exists_earlier hlonger
      cases h.unique hearlier
      exact Or.inr ⟨l, hnext, hlonger, hfault⟩

/-- Of two lists of imports that have been followed, one goes on where the other one stops. -/
theorem prefix_or_prefix
    (h : Explores fs root followed sources)
    (h' : Explores fs root followed' sources') :
    followed <+: followed' ∨ followed' <+: followed := by
  have hstep : ∀ {followed : List Link} {sources : List ModelSource} {l : Link},
      Explores fs root followed sources →
      followed ++ [l] <+: links sources →
      (followed <+: followed' ∨ followed' <+: followed) →
      (followed ++ [l] <+: followed' ∨ followed' <+: followed ++ [l]) := by
    intro followed sources l hbefore hnext hstart
    rcases hstart with hshorter | hlonger
    · rcases hbefore.next_of_prefix h' hshorter with rfl | ⟨l', hnext', hstart', -⟩
      · exact Or.inr (List.prefix_append followed [l])
      · cases eq_of_next hnext hnext'
        exact Or.inl hstart'
    · exact Or.inr (hlonger.trans (List.prefix_append followed [l]))
  induction h with
  | start _ _ =>
      exact Or.inl List.nil_prefix
  | known hbefore hnext _ _ ih =>
      exact hstep hbefore hnext ih
  | fresh hbefore hnext _ _ _ ih =>
      exact hstep hbefore hnext ih

theorem eq_of_stops
    (h : Explores fs root followed sources)
    (hstops : Stops fs followed sources)
    (h' : Explores fs root followed' sources')
    (hstart : followed <+: followed') :
    followed = followed' := by
  rcases h.next_of_prefix h' hstart with heq | ⟨l, hnext, -, hnone⟩
  · exact heq
  · rcases hstops with rfl | ⟨l', hnext', hfault⟩
    · exact absurd hnext.length_le (by simp)
    · cases eq_of_next hnext hnext'
      exact absurd hnone hfault

/-- There is only one place where the search stops. -/
theorem stops_unique
    (h : Explores fs root followed sources)
    (hstops : Stops fs followed sources)
    (h' : Explores fs root followed' sources')
    (hstops' : Stops fs followed' sources') :
    followed = followed' ∧ sources = sources' := by
  have heq : followed = followed' := by
    rcases h.prefix_or_prefix h' with hstart | hstart
    · exact h.eq_of_stops hstops h' hstart
    · exact (h'.eq_of_stops hstops' h hstart).symm
  subst heq
  exact ⟨rfl, h.unique h'⟩

end Explores

/-! ## What is found -/

/-- The sources are the root and all that it imports, directly or not, in the order of discovery. -/
structure IsImportClosure (fs : FileSystem) (root : String) (sources : List ModelSource) : Prop where
  first : sources.head?.map ModelSource.path = some root
  /-- Every source lies at a place that there is and holds the model that is loaded by its path. -/
  loaded : ∀ s ∈ sources,
    (∃ place ∈ fs.places, fs.canonicalize s.path = .ok place) ∧ Model.load fs s.path = .ok s.model
  /-- No two sources lie at the same place. -/
  distinct : sources.Pairwise fun s t => fs.canonicalize s.path ≠ fs.canonicalize t.path
  /-- Every import leads to the place of some source. -/
  closed : ∀ s ∈ sources, ∀ name ∈ s.model.imports,
    ∃ t ∈ sources, ∃ place,
      fs.canonicalize (Path.join s.folder name) = .ok place ∧ fs.canonicalize t.path = .ok place
  /-- Every later source is an import of an earlier one. -/
  imported : ∀ before t after, sources = before ++ t :: after → before ≠ [] →
    ∃ s ∈ before, ∃ name ∈ s.model.imports, t.path = Path.join s.folder name
  /-- Of the root and then the imports in order, the sources are those that lead to a new place. -/
  order : sources.map ModelSource.path =
    (root :: (links sources).map Link.path).eraseDupsBy (samePlace fs)
  bounded : sources.length ≤ fs.places.length

theorem eraseDupsBy_concat
    {α : Type}
    (r : α → α → Bool)
    (xs : List α)
    (x : α) :
    (xs ++ [x]).eraseDupsBy r =
      if (xs.eraseDupsBy r).any (r x) then xs.eraseDupsBy r else xs.eraseDupsBy r ++ [x] := by
  have hloop : ∀ seen, List.eraseDupsBy.loop r (xs ++ [x]) seen =
      if (List.eraseDupsBy.loop r xs seen).any (r x) then
        List.eraseDupsBy.loop r xs seen
      else
        List.eraseDupsBy.loop r xs seen ++ [x] := by
    induction xs with
    | nil =>
        intro seen
        cases hany : seen.any (r x) <;> simp [List.eraseDupsBy.loop, hany]
    | cons y ys ih =>
        intro seen
        cases hany : seen.any (r y) <;> simp [List.eraseDupsBy.loop, hany, ih]
  exact hloop []

namespace Explores

variable {fs : FileSystem} {root : String} {followed : List Link} {sources : List ModelSource}

theorem first
    (h : Explores fs root followed sources) :
    sources.head?.map ModelSource.path = some root := by
  induction h with
  | start _ _ =>
      rfl
  | known _ _ _ _ ih =>
      exact ih
  | @fresh _ sources _ _ _ _ _ _ _ _ ih =>
      cases sources with
      | nil =>
          cases ih
      | cons s sources =>
          exact ih

/-- No two sources stand at one place. -/
theorem distinct
    (h : Explores fs root followed sources) :
    sources.Pairwise fun s t => fs.canonicalize s.path ≠ fs.canonicalize t.path := by
  induction h with
  | start _ _ =>
      exact List.pairwise_singleton _ _
  | known _ _ _ _ ih =>
      exact ih
  | fresh _ _ hplace hnew _ ih =>
      refine List.pairwise_append.mpr ⟨ih, List.pairwise_singleton _ _, ?_⟩
      intro s hs t ht
      rw [List.mem_singleton] at ht
      subst ht
      rw [hplace]
      exact hnew s hs

/-- What has been followed leads to the place of a source. -/
theorem closed
    (h : Explores fs root followed sources)
    {l : Link}
    (hl : l ∈ followed) :
    ∃ t ∈ sources, fs.canonicalize l.path = fs.canonicalize t.path := by
  induction h with
  | start _ _ =>
      cases hl
  | known _ _ ht hsame ih =>
      rcases List.mem_append.mp hl with hold | hnew
      · exact ih hold
      · rw [List.mem_singleton] at hnew
        subst hnew
        exact ⟨_, ht, hsame⟩
  | fresh _ _ _ _ _ ih =>
      rcases List.mem_append.mp hl with hold | hnew
      · obtain ⟨t, ht, hsame⟩ := ih hold
        exact ⟨t, List.mem_append_left _ ht, hsame⟩
      · rw [List.mem_singleton] at hnew
        subst hnew
        exact ⟨_, List.mem_append_right _ List.mem_cons_self, rfl⟩

/-- Every source but the root is imported by one before it. -/
theorem imported
    (h : Explores fs root followed sources)
    {before after : List ModelSource} {t : ModelSource}
    (hsplit : sources = before ++ t :: after)
    (hbefore : before ≠ []) :
    ∃ s ∈ before, ∃ name ∈ s.model.imports, t.path = Path.join s.folder name := by
  induction h generalizing after with
  | start _ _ =>
      cases before with
      | nil =>
          exact absurd rfl hbefore
      | cons s before =>
          simp at hsplit
  | known _ _ _ _ ih =>
      exact ih hsplit
  | @fresh followed sources l _ _ _ hnext _ _ _ ih =>
      rcases List.eq_nil_or_concat after with rfl | ⟨after', last, rfl⟩
      · -- The new source itself: the sources before it include the one that has the import.
        obtain ⟨rfl, ht⟩ := List.append_inj' hsplit rfl
        cases ht
        obtain ⟨hsource, hname⟩ := mem_sources hnext
        exact ⟨l.source, hsource, l.name, hname, rfl⟩
      · rw [List.concat_eq_append, ← List.cons_append, ← List.append_assoc] at hsplit
        exact ih (List.append_inj' hsplit rfl).1

/-- The sources stand in the order in which the links first lead to their places. -/
theorem order
    (h : Explores fs root followed sources) :
    sources.map ModelSource.path =
      (root :: followed.map Link.path).eraseDupsBy (samePlace fs) := by
  have hnext : ∀ (followed : List Link) (l : Link),
      root :: (followed ++ [l]).map Link.path = (root :: followed.map Link.path) ++ [l.path] := by
    intro followed l
    simp
  induction h with
  | start _ _ =>
      rfl
  | @known followed sources l t hbefore _ ht hsame ih =>
      have hany : (sources.map ModelSource.path).any (samePlace fs l.path) = true := by
        rw [List.any_eq_true]
        obtain ⟨place, hplace, -⟩ := hbefore.loaded ht
        exact ⟨t.path, List.mem_map_of_mem ht,
          samePlace_iff.mpr ⟨place, hsame.trans hplace, hplace⟩⟩
      rw [hnext, eraseDupsBy_concat, ← ih, if_pos hany]
  | @fresh followed sources l place model _ _ hplace hnew _ ih =>
      have hany : ¬ (sources.map ModelSource.path).any (samePlace fs l.path) = true := by
        rw [List.any_eq_true]
        rintro ⟨path, hpath, hsame⟩
        obtain ⟨t, ht, rfl⟩ := List.mem_map.mp hpath
        obtain ⟨place', hplace', ht'⟩ := samePlace_iff.mp hsame
        cases hplace.symm.trans hplace'
        exact hnew t ht ht'
      rw [hnext, eraseDupsBy_concat, ← ih, if_neg hany, List.map_append, List.map_singleton]

/-- There are at most as many sources as places. -/
theorem length_le
    (h : Explores fs root followed sources) :
    sources.length ≤ fs.places.length := by
  have hplace : ∀ s ∈ sources, ∃ place, fs.canonicalize s.path = .ok place := by
    intro s hs
    obtain ⟨place, hplace, -⟩ := h.loaded hs
    exact ⟨place, hplace⟩
  choose! placeOf hplaceOf using hplace
  have hnodup : (sources.map placeOf).Nodup := by
    refine List.pairwise_map.mpr (h.distinct.imp_of_mem ?_)
    intro s t hs ht hne heq
    rw [hplaceOf s hs, hplaceOf t ht, heq] at hne
    exact hne rfl
  have hsubset : sources.map placeOf ⊆ fs.places := by
    intro place hplace
    obtain ⟨s, hs, rfl⟩ := List.mem_map.mp hplace
    exact fs.mem_places (hplaceOf s hs)
  have hle := (hnodup.subperm hsubset).length_le
  rwa [List.length_map] at hle

/-- Once all imports have been followed, the sources are the closure. -/
theorem isImportClosure
    (h : Explores fs root (links sources) sources) :
    IsImportClosure fs root sources := by
  refine
    { first := h.first
      loaded := ?_
      distinct := h.distinct
      closed := ?_
      imported := fun _ _ _ hsplit hbefore => h.imported hsplit hbefore
      order := h.order
      bounded := h.length_le }
  · intro s hs
    obtain ⟨place, hplace, hmodel⟩ := h.loaded hs
    exact ⟨⟨place, fs.mem_places hplace, hplace⟩, hmodel⟩
  · intro s hs name hname
    obtain ⟨t, ht, hsame⟩ := h.closed (mem_links_iff (l := ⟨s, name⟩).mpr ⟨hs, hname⟩)
    obtain ⟨place, hplace, -⟩ := h.loaded ht
    exact ⟨t, ht, place, hsame.trans hplace, hplace⟩

end Explores

/-! ## The queue does the search -/

/-- The visited places are those of the sources. -/
def Covers (fs : FileSystem) (visited : List Place) (sources : List ModelSource) : Prop :=
  ∀ place, place ∈ visited ↔ ∃ t ∈ sources, fs.canonicalize t.path = .ok place

/-- A source that is added to the queue is visited. -/
theorem Covers.concat
    {fs : FileSystem} {visited : List Place} {sources : List ModelSource}
    {t : ModelSource} {place : Place}
    (h : Covers fs visited sources)
    (hplace : fs.canonicalize t.path = .ok place) :
    Covers fs (place :: visited) (sources ++ [t]) := by
  intro place'
  rw [List.mem_cons, h place']
  constructor
  · rintro (rfl | ⟨s, hs, hplace'⟩)
    · exact ⟨t, List.mem_append_right _ List.mem_cons_self, hplace⟩
    · exact ⟨s, List.mem_append_left _ hs, hplace'⟩
  · rintro ⟨s, hs, hplace'⟩
    rcases List.mem_append.mp hs with hold | hlast
    · exact Or.inr ⟨s, hold, hplace'⟩
    · rw [List.mem_singleton] at hlast
      subst hlast
      exact Or.inl (Except.ok.inj (hplace'.symm.trans hplace))

/-- What can come of one import, if the visited places are those of some sources. -/
theorem loadImport_cases
    {fs : FileSystem} {visited : List Place} {sources : List ModelSource}
    (h : Covers fs visited sources)
    (s : ModelSource)
    (name : String) :
    (∃ cause,
      importFault? fs sources (Link.mk s name).path = some cause ∧
      loadImport fs s visited name = .error ((Link.mk s name).error cause)) ∨
    (∃ t ∈ sources,
      fs.canonicalize (Link.mk s name).path = fs.canonicalize t.path ∧
      loadImport fs s visited name = .ok none) ∨
    (∃ place model,
      fs.canonicalize (Link.mk s name).path = .ok place ∧
      (∀ t ∈ sources, fs.canonicalize t.path ≠ .ok place) ∧
      Model.load fs (Link.mk s name).path = .ok model ∧
      loadImport fs s visited name =
        .ok (some (place, { path := (Link.mk s name).path, model }))) := by
  unfold loadImport
  dsimp only [Link.path, Link.error]
  cases hcanonical : fs.canonicalize (Path.join s.folder name) with
  | error cause =>
      exact Or.inl ⟨_, importFault?_eq_some_iff.mpr (Or.inl ⟨cause, hcanonical, rfl⟩), rfl⟩
  | ok place =>
      dsimp only
      by_cases hvisited : place ∈ visited
      · obtain ⟨t, ht, hplace⟩ := (h place).mp hvisited
        exact Or.inr (Or.inl ⟨t, ht, hplace.symm, if_pos hvisited⟩)
      · have hnew : ∀ t ∈ sources, fs.canonicalize t.path ≠ .ok place := by
          intro t ht hplace
          exact hvisited ((h place).mpr ⟨t, ht, hplace⟩)
        cases hload : Model.load fs (Path.join s.folder name) with
        | error cause =>
            have hfault := importFault?_eq_some_iff.mpr (Or.inr ⟨place, hcanonical, hnew, hload⟩)
            exact Or.inl ⟨cause, hfault, if_neg hvisited⟩
        | ok model =>
            exact Or.inr (Or.inr ⟨place, model, rfl, hnew, rfl, if_neg hvisited⟩)

/-- The imports of the source at the front of the queue, of which some have been followed. -/
theorem loadImports_explores
    {fs : FileSystem} {root : String} {before queue : List ModelSource} {s : ModelSource}
    {seen names : List String} {visited : List Place}
    (h : Explores fs root (links before ++ seen.map (Link.mk s)) (before ++ s :: queue))
    (himports : s.model.imports = seen ++ names)
    (hvisited : Covers fs visited (before ++ s :: queue)) :
    match loadImports fs s visited names with
    | .error e => FailsWith fs root e
    | .ok (visited', found) =>
      Explores fs root (links (before ++ [s])) (before ++ s :: (queue ++ found)) ∧
      Covers fs visited' (before ++ s :: (queue ++ found)) := by
  induction names generalizing seen visited queue with
  | nil =>
      rw [List.append_nil] at himports
      rw [← himports] at h
      show Explores fs root (links (before ++ [s])) (before ++ s :: (queue ++ [])) ∧
        Covers fs visited (before ++ s :: (queue ++ []))
      rw [List.append_nil]
      exact ⟨by simpa using h, hvisited⟩
  | cons name names ih =>
      have hnext : (links before ++ seen.map (Link.mk s)) ++ [Link.mk s name] <+:
          links (before ++ s :: queue) := by
        refine ⟨names.map (Link.mk s) ++ links queue, ?_⟩
        simp [himports]
      have hseen : (links before ++ seen.map (Link.mk s)) ++ [Link.mk s name] =
          links before ++ (seen ++ [name]).map (Link.mk s) := by
        simp
      have himports' : s.model.imports = (seen ++ [name]) ++ names := by
        simp [himports]
      rw [loadImports_cons]
      rcases loadImport_cases hvisited s name with
        ⟨cause, hfault, hload⟩ | ⟨t, ht, hsame, hload⟩ |
        ⟨place, model, hplace, hnew, hmodel, hload⟩
      · rw [hload]
        exact ⟨_, _, _, cause, h, hnext, hfault, rfl⟩
      · rw [hload]
        have hknown := Explores.known h hnext ht hsame
        rw [hseen] at hknown
        exact ih hknown himports' hvisited
      · rw [hload]
        have hfresh := Explores.fresh h hnext hplace hnew hmodel
        rw [hseen, List.append_assoc, List.cons_append] at hfresh
        have hcovers := hvisited.concat (t := { path := (Link.mk s name).path, model }) hplace
        rw [List.append_assoc, List.cons_append] at hcovers
        have hrest := ih hfresh himports' hcovers
        dsimp only
        cases hlater : loadImports fs s (place :: visited) names with
        | error e =>
            rw [hlater] at hrest
            exact hrest
        | ok result =>
            obtain ⟨visited', found⟩ := result
            rw [hlater] at hrest
            simpa using hrest

/-- The source at the front of the queue, of which no import has been followed. -/
theorem loadImports_explores_front
    {fs : FileSystem} {root : String} {before queue : List ModelSource} {s : ModelSource}
    {visited : List Place}
    (h : Explores fs root (links before) (before ++ s :: queue))
    (hvisited : Covers fs visited (before ++ s :: queue)) :
    match loadImports fs s visited s.model.imports with
    | .error e => FailsWith fs root e
    | .ok (visited', found) =>
      Explores fs root (links (before ++ [s])) ((before ++ [s]) ++ (queue ++ found)) ∧
      Covers fs visited' ((before ++ [s]) ++ (queue ++ found)) := by
  have hnone : Explores fs root (links before ++ ([] : List String).map (Link.mk s))
      (before ++ s :: queue) := by
    simpa using h
  simp only [List.append_assoc, List.singleton_append]
  exact loadImports_explores hnone rfl hvisited

/-- The sources in front of the queue have been dealt with. -/
theorem followSources_explores
    {fs : FileSystem} {root : String} {before queue : List ModelSource} {visited : List Place}
    (h : Explores fs root (links before) (before ++ queue))
    (hvisited : Covers fs visited (before ++ queue)) :
    match followSources fs visited queue with
    | .error e => FailsWith fs root e
    | .ok sources => Explores fs root (links (before ++ sources)) (before ++ sources) := by
  fun_induction followSources fs visited queue generalizing before with
  | case1 visited =>
      simpa using h
  | case2 visited s queue e herror =>
      have hstep := loadImports_explores_front h hvisited
      rw [herror] at hstep
      exact hstep
  | case3 visited s queue visited' found hfound e herror ih =>
      have hstep := loadImports_explores_front h hvisited
      rw [hfound] at hstep
      have hrest := ih hstep.1 hstep.2
      rw [herror] at hrest
      exact hrest
  | case4 visited s queue visited' found hfound sources hsources ih =>
      have hstep := loadImports_explores_front h hvisited
      rw [hfound] at hstep
      have hrest := ih hstep.1 hstep.2
      rw [hsources] at hrest
      simpa using hrest

/-- Loading a model with its imports comes to one of three ends. -/
theorem resolveModels_cases
    (fs : FileSystem)
    (root : String) :
    (∃ e, resolveModels fs root = .error e ∧ loadFault? fs root = some e) ∨
    (∃ e, resolveModels fs root = .error e ∧ FailsWith fs root e) ∨
    (∃ sources,
      resolveModels fs root = .ok sources ∧ Explores fs root (links sources) sources) := by
  unfold resolveModels
  cases hcanonical : fs.canonicalize root with
  | error cause =>
      exact Or.inl ⟨_, rfl, by simp [loadFault?, hcanonical]⟩
  | ok place =>
      cases hload : Model.load fs root with
      | error cause =>
          exact Or.inl ⟨_, rfl, by simp [loadFault?, hcanonical, hload]⟩
      | ok model =>
          have hstart : Explores fs root (links []) ([] ++ [{ path := root, model }]) :=
            Explores.start hcanonical hload
          have hcovers : Covers fs [place] ([] ++ [{ path := root, model }]) := by
            intro place'
            simp [hcanonical, eq_comm]
          have hrun := followSources_explores hstart hcovers
          refine Or.inr ?_
          show (∃ e, followSources fs [place] [{ path := root, model }] = .error e ∧ _) ∨
            ∃ sources, followSources fs [place] [{ path := root, model }] = .ok sources ∧ _
          split at hrun
          · rename_i e herror
            exact Or.inl ⟨e, herror, hrun⟩
          · rename_i sources hsources
            exact Or.inr ⟨sources, hsources, hrun⟩

/-- Resolving ends well exactly if the exploration has followed every link. -/
theorem resolveModels_eq_ok_iff
    {fs : FileSystem} {root : String} {sources : List ModelSource} :
    resolveModels fs root = .ok sources ↔ Explores fs root (links sources) sources := by
  rcases resolveModels_cases fs root with
    ⟨e, hresult, hroot⟩ | ⟨e, hresult, followed, stuck, l, cause, hstuck, hnext, hfault, -⟩ |
    ⟨found, hresult, hfound⟩
  · rw [hresult]
    refine ⟨nofun, fun h => ?_⟩
    rw [h.loadFault?_root] at hroot
    cases hroot
  · rw [hresult]
    refine ⟨nofun, fun h => ?_⟩
    have hstops : Stops fs followed stuck := Or.inr ⟨l, hnext, by simp [hfault]⟩
    obtain ⟨rfl, rfl⟩ := hstuck.stops_unique hstops h (Or.inl rfl)
    exact absurd hnext.length_le (by simp)
  · rw [hresult]
    constructor
    · intro h
      cases h
      exact hfound
    · intro h
      obtain ⟨-, rfl⟩ := hfound.stops_unique (Or.inl rfl) h (Or.inl rfl)
      rfl

/-- Resolving fails with the fault of the root or of the first link that cannot be followed. -/
theorem resolveModels_eq_error_iff
    {fs : FileSystem} {root : String} {e : ModelError} :
    resolveModels fs root = .error e ↔ loadFault? fs root = some e ∨ FailsWith fs root e := by
  constructor
  · intro h
    rcases resolveModels_cases fs root with
      ⟨e', hresult, hroot⟩ | ⟨e', hresult, hfails⟩ | ⟨sources, hresult, -⟩
    · cases h.symm.trans hresult
      exact Or.inl hroot
    · cases h.symm.trans hresult
      exact Or.inr hfails
    · cases h.symm.trans hresult
  · rintro (hroot | ⟨followed, sources, l, cause, hexplores, hnext, hfault, rfl⟩)
    · rcases resolveModels_cases fs root with
        ⟨e', hresult, hroot'⟩ | ⟨e', -, _, _, _, _, hexplores, -⟩ | ⟨sources, -, hexplores⟩
      · rw [hresult, Option.some.inj (hroot'.symm.trans hroot)]
      · rw [hexplores.loadFault?_root] at hroot
        cases hroot
      · rw [hexplores.loadFault?_root] at hroot
        cases hroot
    · have hstops : Stops fs followed sources := Or.inr ⟨l, hnext, by simp [hfault]⟩
      rcases resolveModels_cases fs root with
        ⟨e', -, hroot⟩ |
        ⟨e', hresult, followed', sources', l', cause', hexplores', hnext', hfault', rfl⟩ |
        ⟨found, -, hfound⟩
      · rw [hexplores.loadFault?_root] at hroot
        cases hroot
      · have hstops' : Stops fs followed' sources' := Or.inr ⟨l', hnext', by simp [hfault']⟩
        obtain ⟨rfl, rfl⟩ := hexplores.stops_unique hstops hexplores' hstops'
        cases eq_of_next hnext hnext'
        rw [hresult, Option.some.inj (hfault'.symm.trans hfault)]
      · obtain ⟨rfl, rfl⟩ := hexplores.stops_unique hstops hfound (Or.inl rfl)
        exact absurd hnext.length_le (by simp)

/--
Loading a model with all that it imports, on any file system. The result is a list of sources if and
only if the search can follow all of their imports, and such a list is the root and its closure under
imports: each place once, in breadth-first order. The result is an error if and only if the root
cannot be loaded, or the search comes to an import that leads nowhere, or to a new place without a
model; the error names the first such import and the file that has it.
-/
theorem resolveModels_closure
    (fs : FileSystem)
    (root : String) :
    (∀ sources, resolveModels fs root = .ok sources → IsImportClosure fs root sources) ∧
    (∀ sources,
      resolveModels fs root = .ok sources ↔ Explores fs root (links sources) sources) ∧
    (∀ e,
      resolveModels fs root = .error e ↔
        loadFault? fs root = some e ∨
        ∃ followed sources l cause,
          Explores fs root followed sources ∧
          followed ++ [l] <+: links sources ∧
          (∀ before l', before ++ [l'] <+: followed →
            ∃ earlier, Explores fs root before earlier ∧
              importFault? fs earlier l'.path = none) ∧
          importFault? fs sources l.path = some cause ∧
          e = .badImport l.source.path l.name cause) := by
  refine ⟨?_, fun sources => resolveModels_eq_ok_iff, ?_⟩
  · intro sources h
    exact (resolveModels_eq_ok_iff.mp h).isImportClosure
  · intro e
    rw [resolveModels_eq_error_iff]
    refine or_congr_right ⟨?_, ?_⟩
    · rintro ⟨followed, sources, l, cause, hexplores, hnext, hfault, rfl⟩
      refine ⟨followed, sources, l, cause, hexplores, hnext, ?_, hfault, rfl⟩
      intro before l' hbefore
      obtain ⟨earlier, hearlier, -, hnone⟩ := hexplores.exists_earlier hbefore
      exact ⟨earlier, hearlier, hnone⟩
    · rintro ⟨followed, sources, l, cause, hexplores, hnext, -, hfault, rfl⟩
      exact ⟨followed, sources, l, cause, hexplores, hnext, hfault, rfl⟩

end Domain

/-! ## A known file under a path that is too long

A path can be resolved although it is too long to be opened. If it leads to a file that has been
loaded by a shorter path, the search goes on.
-/

namespace Files
namespace Disk

/-- A path with detours through the folder that it starts in. -/
def dotted : Nat → String → String
  | 0, path => path
  | n + 1, path => "./" ++ dotted n path

theorem utf8ByteSize_dotted
    (n : Nat)
    (path : String) :
    (dotted n path).utf8ByteSize = 2 * n + path.utf8ByteSize := by
  induction n with
  | zero =>
      simp [dotted]
  | succ n ih =>
      have hdots : "./".utf8ByteSize = 2 := by
        decide
      rw [dotted, String.utf8ByteSize_append, ih, hdots]
      omega

theorem head?_dotted
    {path : String}
    (h : path.toList.head? ≠ some '/')
    (n : Nat) :
    (dotted n path).toList.head? ≠ some '/' := by
  cases n with
  | zero =>
      exact h
  | succ n =>
      simp [dotted]

theorem textFault?_dotted
    {path : String}
    (h : textFault? path = none)
    (n : Nat) :
    textFault? (dotted n path) = none := by
  induction n with
  | zero =>
      exact h
  | succ n ih =>
      obtain ⟨hchars, -⟩ := textFault?_eq_none_iff.mp ih
      refine textFault?_eq_none_iff.mpr ⟨?_, by simp [dotted]⟩
      have hdots : ∀ c ∈ "./".toList, c.toNat ≠ 0 := by
        simp
      rw [dotted, String.toList_append, List.forall_mem_append]
      exact ⟨hdots, hchars⟩

/--
A path has a place if its text is sound and it leads through folders to something that is there.
-/
theorem canonicalize_eq_ok_iff
    {d : Disk} {path : String} {place : Place} :
    d.canonicalize path = .ok place ↔
      textFault? path = none ∧ d.follow (d.start path).1 (d.start path).2 = .ok place := by
  unfold canonicalize
  cases textFault? path <;> simp

/-- A detour through the folder in which a path starts leads nowhere else. -/
theorem canonicalize_dotted
    {d : Disk} {path : String} {place : Place}
    (h : d.canonicalize path = .ok place)
    (hrelative : path.toList.head? ≠ some '/')
    (n : Nat) :
    d.canonicalize (dotted n path) = .ok place := by
  obtain ⟨htext, hfollow⟩ := canonicalize_eq_ok_iff.mp h
  refine canonicalize_eq_ok_iff.mpr ⟨textFault?_dotted htext n, ?_⟩
  induction n with
  | zero =>
      exact hfollow
  | succ n ih =>
      rw [start_relative d (head?_dotted hrelative n)] at ih
      have hpieces : Path.pieces (dotted (n + 1) path).toList =
          ['.'] :: Path.pieces (dotted n path).toList := by
        rw [dotted, String.toList_append]
        exact splitAt_append '/' ['.'] (dotted n path).toList
      have hfolder : d.view? d.here = some .folder := by
        cases hsplit : Path.pieces (dotted n path).toList with
        | nil =>
            exact absurd hsplit (splitAt_ne_nil '/' _)
        | cons piece rest =>
            rw [hsplit] at ih
            exact (follow_cons_iff.mp ih).1
      rw [start_relative d (head?_dotted hrelative (n + 1)), hpieces]
      exact follow_cons_iff.mpr ⟨hfolder, Or.inl rfl, ih⟩

/-- A path beyond the system's limit is not read, whatever it leads to. -/
theorem read_of_longestPath_lt
    {path : String}
    (htext : textFault? path = none)
    (hlong : longestPath < path.utf8ByteSize)
    (d : Disk) :
    d.read path = .error .nameTooLong := by
  have hlocate : d.locate path = .error .nameTooLong := by
    simp [locate, pathFault?, htext, hlong]
  simp only [read, readBytes, find, hlocate]
  rfl

theorem read_of_toUTF8
    {d : Disk} {path text : String}
    (h : d.readBytes path = .ok text.toUTF8) :
    d.read path = .ok text := by
  have htext : String.fromUTF8? text.toUTF8 = some text := dif_pos text.isValidUTF8
  simp only [read, h, bind, Except.bind, htext]

end Disk
end Files

namespace Domain

open Files

/-- No model is loaded by a path that is too long. -/
theorem loadFault?_of_longestPath_lt
    {path : String}
    (htext : Disk.textFault? path = none)
    (hlong : Disk.longestPath < path.utf8ByteSize)
    (d : Disk) :
    loadFault? d path ≠ none := by
  intro hnone
  obtain ⟨-, model, -, hload⟩ := loadFault?_eq_none_iff.mp hnone
  obtain ⟨-, text, -, hread, -⟩ := Model.load_eq_ok_iff.mp hload
  cases hread.symm.trans (Disk.read_of_longestPath_lt htext hlong d)

/-- A path to the second file of a disk by which it cannot be opened. -/
def detour : String :=
  Disk.dotted 2048 "b.json"

def detourSource : ModelSource :=
  { path := "m.json", model := { name := "M", imports := ["b.json", detour] } }

def aheadSource : ModelSource :=
  { path := "b.json", model := { name := "B" } }

/-- Two model files, of which the first imports the second by two paths. -/
def detourDisk : Disk :=
  { root := .folder
      [("m.json", .file detourSource.model.toJson.toUTF8),
        ("b.json", .file aheadSource.model.toJson.toUTF8)] }

theorem explores_detour :
    Explores detourDisk "m.json" [⟨detourSource, "b.json"⟩] [detourSource, aheadSource] := by
  have hread : detourDisk.read "m.json" = .ok detourSource.model.toJson :=
    Disk.read_of_toUTF8 (Disk.readBytes_iff.mpr ⟨by decide +kernel, rfl⟩)
  have hreadAhead : detourDisk.read "b.json" = .ok aheadSource.model.toJson :=
    Disk.read_of_toUTF8 (Disk.readBytes_iff.mpr ⟨by decide +kernel, rfl⟩)
  have hroot : detourDisk.canonicalize "m.json" = .ok ["m.json"] := by
    decide +kernel
  have hahead : detourDisk.canonicalize "b.json" = .ok ["b.json"] := by
    decide +kernel
  have hnew : ∀ t ∈ [detourSource], detourDisk.canonicalize t.path ≠ .ok ["b.json"] := by
    decide +kernel
  have hstart : Explores detourDisk "m.json" [] [detourSource] :=
    .start hroot (Model.load_of_toJson (by decide +kernel) hread nofun (by decide))
  exact .fresh hstart ⟨[⟨detourSource, detour⟩], rfl⟩ hahead hnew
    (Model.load_of_toJson (by decide +kernel) hreadAhead nofun (by decide))

theorem links_detour :
    links [detourSource, aheadSource] =
      [⟨detourSource, "b.json"⟩] ++ [⟨detourSource, detour⟩] := by
  rfl

theorem prefix_links_detour :
    [⟨detourSource, "b.json"⟩] ++ [⟨detourSource, detour⟩] <+:
      links [detourSource, aheadSource] :=
  ⟨[], (List.append_nil _).trans links_detour.symm⟩

theorem path_detour :
    (Link.mk detourSource detour).path = detour := by
  have hfolder : detourSource.folder = "" := by
    decide +kernel
  have hrelative : Path.isAbsolute detour = false := by
    rw [detour]
    exact decide_eq_false (Disk.head?_dotted (by decide) 2048)
  rw [Link.path, hfolder]
  simp [Path.join, hrelative]

/-- The second import leads to a file that has been loaded. -/
theorem resolveModels_detour :
    resolveModels detourDisk "m.json" = .ok [detourSource, aheadSource] := by
  have hahead : detourDisk.canonicalize "b.json" = .ok ["b.json"] := by
    decide +kernel
  have hdetour : detourDisk.canonicalize detour = .ok ["b.json"] := by
    rw [detour]
    exact Disk.canonicalize_dotted hahead (by decide) 2048
  have hsame : detourDisk.fileSystem.canonicalize (Link.mk detourSource detour).path =
      detourDisk.fileSystem.canonicalize aheadSource.path := by
    rw [path_detour, Disk.fileSystem_canonicalize, hdetour]
    exact hahead.symm
  rw [resolveModels_eq_ok_iff, links_detour]
  exact .known explores_detour prefix_links_detour (by simp) hsame

/-- An import that cannot be loaded is no error if its file has been loaded by another path. -/
theorem not_resolveModels_fails_first :
    ¬ ∀ (fs : FileSystem) (root : String) (followed : List Link) (sources : List ModelSource)
        (l : Link) (cause : ModelError),
      Explores fs root followed sources →
      followed ++ [l] <+: links sources →
      (∀ l' ∈ followed, loadFault? fs l'.path = none) →
      loadFault? fs l.path = some cause →
      resolveModels fs root = .error (.badImport l.source.path l.name cause) := by
  intro h
  have hlong : Disk.longestPath < detour.utf8ByteSize := by
    rw [detour, Disk.utf8ByteSize_dotted]
    decide
  have htext : Disk.textFault? detour = none := by
    rw [detour]
    exact Disk.textFault?_dotted (by decide) 2048
  obtain ⟨cause, hcause⟩ :=
    Option.ne_none_iff_exists'.mp (loadFault?_of_longestPath_lt htext hlong detourDisk)
  have hother : ∀ l' ∈ [Link.mk detourSource "b.json"], loadFault? detourDisk l'.path = none := by
    intro l' hl'
    obtain ⟨place, hplace, hload⟩ := explores_detour.loaded (s := aheadSource) (by simp)
    have hpath : (Link.mk detourSource "b.json").path = aheadSource.path := by
      decide +kernel
    rw [List.mem_singleton.mp hl', hpath]
    exact loadFault?_eq_none_iff.mpr ⟨place, _, hplace, hload⟩
  rw [← path_detour] at hcause
  have hresult := h _ _ _ _ _ cause explores_detour prefix_links_detour hother hcause
  rw [resolveModels_detour] at hresult
  cases hresult

end Domain
end ContractGen
