import ContractGen.Proofs.Placement
import Mathlib.Data.List.Basic

/-!
# The lints foretell what lowering drops

Lowering drops the structures of a model that come before its first contract, and says so. The
lints look at the structures only and say beforehand which ones will be dropped. Both tell it in
words, so the announcements and the records are read back from the messages: a kind of declaration,
a name in quotes, and an ending that is fixed for each of the two.

* `Drop.readFrom?_eq_some_iff`: a message is read in exactly one way.
* `filterMap_contractNotes`: nothing that is said about a contract can be taken for a drop.
* `lints_foretell_drops`: the lints and lowering tell of the same drops, in the same order.
-/

namespace ContractGen
namespace Pipeline

open Behavior Lowering
open Domain (ComplexType ModelSource)

/-! ## Drops in messages -/

/-- A declaration that ends up nowhere, as a message tells it. -/
structure Drop where
  kind : String
  name : String
  location : Option String
deriving DecidableEq, Repr

/-- The words for the kinds of declarations. -/
def dropKinds : List String :=
  ["contract", "struct", "event", "error", "enum"]

/-- The text between a given start and a given end. -/
def textBetween? (start ending text : String) : Option String :=
  ((text.toList.dropPrefix? start.toList).bind fun rest =>
    rest.dropSuffix? ending.toList).map String.ofList

namespace Drop

/-- What stands in front of the name in a message. -/
def opening (kind : String) : String :=
  kind ++ " '"

/-- The drop that a warning of some phase tells of, if it ends as told. -/
def readFrom? (phase ending : String) (d : Diagnostic) : Option Drop :=
  if d.isWarning ∧ d.phase = phase then
    dropKinds.findSome? fun kind =>
      (textBetween? (opening kind) ending d.message).map fun name =>
        { kind, name, location := d.location }
  else
    none

/-- The drop that the lint about the order of declarations announces. -/
def announced? : Diagnostic → Option Drop :=
  readFrom? lintPhase "' is declared before any contract and will be dropped"

/-- The drop that lowering records. -/
def recorded? : Diagnostic → Option Drop :=
  readFrom? phaseName "' dropped: no contract to attach it to"

/-- The drop of a structure of a model. -/
def ofStructure (model : String) (s : Domain.Structure) : Drop :=
  { kind := (classify s).text, name := s.name, location := some (model ++ "." ++ s.name) }

end Drop

theorem textBetween?_eq_some_iff
    {start ending text name : String} :
    textBetween? start ending text = some name ↔ text = start ++ name ++ ending := by
  simp only [textBetween?, Option.map_eq_some_iff, Option.bind_eq_some_iff,
    List.dropPrefix?_eq_some_iff, List.dropSuffix?_eq_some_iff, beq_iff_eq]
  constructor
  · rintro ⟨cs, ⟨rest, ⟨_, htext, rfl⟩, _, hrest, rfl⟩, rfl⟩
    rw [← String.toList_inj, htext, hrest]
    simp
  · rintro rfl
    exact ⟨name.toList, ⟨name.toList ++ ending.toList, ⟨_, by simp, rfl⟩, _, by simp, rfl⟩,
      by simp⟩

/-- Two texts of which neither starts with the other cannot both start a third one. -/
theorem not_starts_both
    {first second : String}
    (h : ¬ first.toList <+: second.toList ∧ ¬ second.toList <+: first.toList)
    (rest rest' : String) :
    first ++ rest ≠ second ++ rest' := by
  intro heq
  have hfirst : first.toList <+: (first ++ rest).toList := by
    simp
  have hsecond : second.toList <+: (first ++ rest).toList := by
    rw [heq]
    simp
  rcases List.prefix_or_prefix_of_prefix hfirst hsecond with hprefix | hprefix
  · exact h.1 hprefix
  · exact h.2 hprefix

theorem opening_apart :
    ∀ kind ∈ dropKinds, ∀ other ∈ dropKinds, kind ≠ other →
      ¬ (Drop.opening kind).toList <+: (Drop.opening other).toList ∧
      ¬ (Drop.opening other).toList <+: (Drop.opening kind).toList := by
  decide

namespace Drop

/-- A message tells of one drop at most, and its words say which. -/
theorem readFrom?_eq_some_iff
    {phase ending : String} {d : Diagnostic} {x : Drop} :
    readFrom? phase ending d = some x ↔
      (d.severity = .warning ∧ d.phase = phase) ∧
      x.kind ∈ dropKinds ∧
      d.message = opening x.kind ++ x.name ++ ending ∧
      x.location = d.location := by
  have hsound : ∀ y : Drop, readFrom? phase ending d = some y →
      (d.severity = .warning ∧ d.phase = phase) ∧
      y.kind ∈ dropKinds ∧
      d.message = opening y.kind ++ y.name ++ ending ∧
      y.location = d.location := by
    intro y hy
    unfold readFrom? at hy
    split at hy
    · rename_i hwarning
      obtain ⟨kind, hkind, hread⟩ := List.exists_of_findSome?_eq_some hy
      obtain ⟨name, hname, rfl⟩ := Option.map_eq_some_iff.mp hread
      exact ⟨by simpa [Diagnostic.isWarning] using hwarning, hkind,
        textBetween?_eq_some_iff.mp hname, rfl⟩
    · cases hy
  constructor
  · exact hsound x
  · rintro ⟨hwarning, hkind, hmessage, hlocation⟩
    have hsome : (readFrom? phase ending d).isSome := by
      rw [readFrom?, if_pos (by simpa [Diagnostic.isWarning] using hwarning),
        List.findSome?_isSome_iff]
      refine ⟨x.kind, hkind, ?_⟩
      rw [textBetween?_eq_some_iff.mpr hmessage]
      rfl
    obtain ⟨y, hy⟩ := Option.isSome_iff_exists.mp hsome
    obtain ⟨-, hkind', hmessage', hlocation'⟩ := hsound y hy
    -- The same message cannot open with two kinds, and the rest of it is the name.
    have hsame : y.kind = x.kind := by
      by_contra hne
      rw [hmessage', String.append_assoc, String.append_assoc] at hmessage
      exact not_starts_both (opening_apart _ hkind' _ hkind hne) _ _ hmessage
    have hname : y.name = x.name := by
      rw [hmessage', hsame] at hmessage
      simpa using hmessage
    have hxy : y = x := by
      obtain ⟨kind, name, location⟩ := x
      obtain ⟨kind', name', location'⟩ := y
      simp_all
    rw [hy, hxy]

theorem text_mem_dropKinds
    (c : Classification) :
    c.text ∈ dropKinds := by
  cases c <;> decide

theorem recorded?_droppedNote
    (model : String)
    (s : Domain.Structure) :
    recorded? (droppedNote model s) = some (ofStructure model s) := by
  refine readFrom?_eq_some_iff.mpr ⟨⟨rfl, rfl⟩, text_mem_dropKinds _, ?_, rfl⟩
  rfl

theorem announced?_finding
    (model : String)
    (s : Domain.Structure) :
    announced?
        (finding .warning
          ((classify s).text ++ " '" ++ s.name ++
            "' is declared before any contract and will be dropped")
          (model ++ "." ++ s.name)) =
      some (ofStructure model s) := by
  refine readFrom?_eq_some_iff.mpr ⟨⟨rfl, rfl⟩, text_mem_dropKinds _, ?_, rfl⟩
  rfl

/-- Whether a text goes another way than every message about a drop. -/
def StartsApart (start : String) : Prop :=
  ∀ kind ∈ dropKinds,
    ¬ start.toList <+: (opening kind).toList ∧ ¬ (opening kind).toList <+: start.toList

instance (start : String) : Decidable (StartsApart start) :=
  inferInstanceAs (Decidable (∀ kind ∈ dropKinds, _))

theorem recorded?_warning
    (start : String)
    (h : StartsApart start)
    (rest location : String) :
    recorded? (warning (start ++ rest) location) = none := by
  rw [Option.eq_none_iff_forall_ne_some]
  intro x hx
  obtain ⟨-, hkind, hmessage, -⟩ := readFrom?_eq_some_iff.mp hx
  rw [String.append_assoc] at hmessage
  exact not_starts_both (h _ hkind) _ _ hmessage

theorem recorded?_stayingNote
    (contract : String)
    (b : StayingBranch) :
    recorded? (stayingNote contract b) = none := by
  rw [Option.eq_none_iff_forall_ne_some]
  intro x hx
  obtain ⟨⟨hseverity, -⟩, -⟩ := readFrom?_eq_some_iff.mp hx
  cases hseverity

theorem recorded?_mergeNotes
    {r : MergeReport} {d : Diagnostic}
    (h : d ∈ mergeNotes r) :
    recorded? d = none := by
  unfold mergeNotes at h
  split at h
  · rw [List.mem_singleton, String.append_assoc] at h
    subst h
    exact recorded?_warning "state diagram " (by decide) _ _
  · simp only [List.mem_singleton, String.append_assoc] at h
    subst h
    exact recorded?_warning "diagram " (by decide) _ _
  · obtain ⟨b, -, rfl⟩ := List.mem_map.mp h
    exact recorded?_stayingNote _ _

theorem recorded?_addBehavior
    {around : Surroundings} {c : Target.Contract} {diagram : String} {d : Diagnostic}
    (h : d ∈ (addBehavior around c diagram).diagnostics) :
    recorded? d = none := by
  unfold addBehavior at h
  dsimp only at h
  split at h
  · simp only [List.mem_singleton, String.append_assoc] at h
    subst h
    exact recorded?_warning "state behavior '" (by decide) _ _
  · split at h
    · simp only [List.mem_singleton, String.append_assoc] at h
      subst h
      exact recorded?_warning "could not compile diagram " (by decide) _ _
    · exact recorded?_mergeNotes h

end Drop

theorem filterMap_contractNotes
    (around : Surroundings)
    (types : List ComplexType) :
    (contractNotes around types).filterMap Drop.recorded? = [] := by
  rw [List.filterMap_eq_nil_iff]
  intro d hd
  obtain ⟨x, -, hx⟩ := List.mem_flatMap.mp hd
  unfold contractResponse at hx
  split at hx
  · exact Drop.recorded?_addBehavior hx
  · cases hx

theorem filterMap_droppedNotes
    (around : Surroundings)
    (types : List ComplexType) :
    (droppedNotes around types).filterMap Drop.recorded? =
      (types.filterMap ComplexType.structure?).map
        (Drop.ofStructure around.source.model.name) := by
  rw [droppedNotes, List.filterMap_map]
  refine List.filterMap_eq_map_iff_forall_eq_some.mpr ?_
  intro s _
  exact Drop.recorded?_droppedNote _ s

/-! ## The structures before the first contract -/

/-- Cutting the types at the first contract is cutting the structures there. -/
theorem structures_leading
    (types : List ComplexType) :
    (leading types).filterMap ComplexType.structure? =
      (types.filterMap ComplexType.structure?).takeWhile fun s => classify s ≠ .contract := by
  induction types with
  | nil =>
      rfl
  | cons t types ih =>
      cases t with
      | enumeration e =>
          rw [leading_cons_of_not_opens rfl]
          simpa [List.filterMap_cons, ComplexType.structure?] using ih
      | struct s =>
          by_cases hs : classify s = .contract
          · rw [leading_cons_of_opens (by simp [opensSection, hs])]
            simp [ComplexType.structure?, hs]
          · rw [leading_cons_of_not_opens (by simp [opensSection, hs])]
            simpa [ComplexType.structure?, hs] using ih

/-- What lowering drops are the structures in front of the first contract, in order. -/
theorem filterMap_sourceNotes
    (around : Surroundings) :
    (sourceNotes around).filterMap Drop.recorded? =
      (around.source.model.structures.takeWhile fun s => classify s ≠ .contract).map
        (Drop.ofStructure around.source.model.name) := by
  rw [sourceNotes, List.filterMap_append, filterMap_contractNotes, List.append_nil,
    filterMap_droppedNotes, structures_leading]
  rfl

theorem map_announced?_declarationOrder
    (source : ModelSource) :
    (Lint.declarationOrder.check source).map Drop.announced? =
      (structuresBeforeContract source.model.structures).map fun s =>
        some (Drop.ofStructure source.model.name s) := by
  simp only [Lint.declarationOrder, List.map_map]
  refine List.map_congr_left ?_
  intro s _
  exact Drop.announced?_finding _ s

theorem structuresBeforeContract_of_exists
    {structures : List Domain.Structure}
    (h : ∃ s ∈ structures, classify s = .contract) :
    structuresBeforeContract structures =
      structures.takeWhile fun s => classify s ≠ .contract := by
  rw [structuresBeforeContract, if_pos (by simpa using h)]

theorem structuresBeforeContract_of_forall
    {structures : List Domain.Structure}
    (h : ∀ s ∈ structures, classify s ≠ .contract) :
    structuresBeforeContract structures = [] := by
  rw [structuresBeforeContract, if_neg (by simpa using h)]

theorem declarationOrder_of_forall
    {source : ModelSource}
    (h : ∀ s ∈ source.model.structures, classify s ≠ .contract) :
    Lint.declarationOrder.check source = [] := by
  simp only [Lint.declarationOrder, structuresBeforeContract_of_forall h, List.map_nil]

theorem contractCount_of_forall
    {source : ModelSource}
    (hsome : source.model.structures ≠ [])
    (h : ∀ s ∈ source.model.structures, classify s ≠ .contract) :
    Lint.contractCount.check source =
      [finding .warning
        ("model '" ++ source.model.name ++
          "' has structures but no contract; structs, events and errors will be dropped")
        source.path] := by
  have hnone : (source.model.structures.filter fun s => classify s = .contract) = [] := by
    simpa using h
  simp only [Lint.contractCount, List.isEmpty_iff, if_neg hsome, hnone]
  rfl

/--
What the lints announce about a model is what lowering drops of it, whatever has been lowered
before. If there is a contract, the announcements are the records, one by one. If there are only
other structures, the lint about the order is silent, the one about the number of contracts warns
once, and every structure is dropped. Without structures there is nothing to announce or to drop.
-/
theorem lints_foretell_drops
    (compiler : Option Compiler)
    (header : Header)
    (p : Progress)
    (source : ModelSource) :
    ∃ notes,
      (({ handlers := Handler.builtin, compiler } : Lowerer).lowerModel
        header p source).diagnostics = p.diagnostics ++ notes ∧
      ((∃ s ∈ source.model.structures, classify s = .contract) →
        (Lint.declarationOrder.check source).map Drop.announced? =
          (notes.filterMap Drop.recorded?).map some) ∧
      (source.model.structures ≠ [] →
        (∀ s ∈ source.model.structures, classify s ≠ .contract) →
        Lint.declarationOrder.check source = [] ∧
        Lint.contractCount.check source =
          [finding .warning
            ("model '" ++ source.model.name ++
              "' has structures but no contract; structs, events and errors will be dropped")
            source.path] ∧
        notes.filterMap Drop.recorded? =
          source.model.structures.map (Drop.ofStructure source.model.name)) ∧
      (source.model.structures = [] →
        Lint.declarationOrder.check source = [] ∧
        Lint.contractCount.check source = [] ∧
        notes.filterMap Drop.recorded? = []) := by
  obtain ⟨current, hlowered⟩ := lowerModel_spec header compiler p source
  refine ⟨sourceNotes { header, source, compiler }, by rw [hlowered], ?_, ?_, ?_⟩
  · intro hcontract
    rw [map_announced?_declarationOrder, structuresBeforeContract_of_exists hcontract,
      filterMap_sourceNotes, List.map_map]
    rfl
  · intro hsome hother
    refine ⟨declarationOrder_of_forall hother, contractCount_of_forall hsome hother, ?_⟩
    rw [filterMap_sourceNotes, List.takeWhile_eq_self_iff.mpr (by simpa using hother)]
  · intro hnone
    have hother : ∀ s ∈ source.model.structures, classify s ≠ .contract := by
      simp [hnone]
    refine ⟨declarationOrder_of_forall hother, ?_, ?_⟩
    · simp [Lint.contractCount, hnone]
    · rw [filterMap_sourceNotes, hnone]
      rfl

end Pipeline
end ContractGen
