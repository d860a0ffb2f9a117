import ContractGen.Data.Record
import Mathlib.Data.List.Nodup

/-!
# What the fields of a record give

A record is read by the names of its entries. This module says what the fields give in terms of the
entries: what is found under a name, and what a required field or one with a default is then.

**Definitions.**
* `lookup`: what some entries have under a name.
* `Fields.Shows`: fields give what the entries of a record have.

**Results.**
* `fields?_record_of_count`: a record is read if none of the known names occurs twice.
* `Fields.Shows.required`, `Fields.Shows.withDefault`: what a field gives is read.
-/

namespace ContractGen
namespace Data

/-! ## Fields of a record -/

/-- The value of a field among some entries. -/
def lookup (name : String) (entries : List (String × Value)) : Option Value :=
  (entries.find? fun e => e.1 = name).map Prod.snd

@[simp] theorem lookup_nil
    (name : String) :
    lookup name [] = none := by
  rfl

@[simp] theorem lookup_cons
    (name key : String)
    (v : Value)
    (entries : List (String × Value)) :
    lookup name ((key, v) :: entries) = if key = name then some v else lookup name entries := by
  by_cases h : key = name <;> simp [lookup, h]

@[simp] theorem lookup_append
    (name : String)
    (first second : List (String × Value)) :
    lookup name (first ++ second) = (lookup name first).or (lookup name second) := by
  simp [lookup, List.find?_append, Option.map_or]

theorem lookup_eq_none_iff
    {name : String} {entries : List (String × Value)} :
    lookup name entries = none ↔ name ∉ entries.map Prod.fst := by
  simp only [lookup, Option.map_eq_none_iff, List.find?_eq_none, List.mem_map, not_exists, not_and,
    decide_eq_true_eq]

namespace Fields

variable {v : Value} {f : Fields v} {entries : List (String × Value)} {name : String} {α : Type}

/-- Fields give what some entries have. -/
def Shows (f : Fields v) (entries : List (String × Value)) : Prop :=
  ∀ name, (f.get? name).map Subtype.val = lookup name entries

/-- A required field that is there decodes to its value. -/
theorem Shows.required
    (h : f.Shows entries)
    {w : Value} {decode : Inside v → Option α} {a : α}
    (hname : lookup name entries = some w)
    (hdecode : ∀ x : Inside v, x.val = w → decode x = some a) :
    f.required name decode = some a := by
  obtain ⟨x, hx, hval⟩ := Option.map_eq_some_iff.mp ((h name).trans hname)
  rw [Fields.required, hx]
  exact hdecode x hval

/-- A field with a default decodes to its value, or to the default where it is left out. -/
theorem Shows.withDefault
    (h : f.Shows entries)
    {default a : α} {decode : Inside v → Option α}
    (hnone : lookup name entries = none → a = default)
    (hsome : ∀ x : Inside v, lookup name entries = some x.val → decode x = some a) :
    f.withDefault name default decode = some a := by
  have hname := h name
  unfold Fields.withDefault
  cases hget : f.get? name with
  | none =>
      rw [hget] at hname
      rw [hnone hname.symm]
  | some x =>
      rw [hget] at hname
      exact hsome x hname.symm

theorem Shows.string
    (h : f.Shows entries)
    {s : String}
    (hname : lookup name entries = some (.string s)) :
    f.required name Inside.string = some s := by
  refine h.required hname ?_
  intro x hx
  rw [Inside.string, hx]
  rfl

theorem Shows.bool
    (h : f.Shows entries)
    {b default : Bool}
    (hname : lookup name entries = some (.bool b)) :
    f.withDefault name default Inside.bool = some b := by
  refine h.withDefault ?_ ?_
  · intro hnone
    rw [hname] at hnone
    cases hnone
  · intro x hx
    rw [hname] at hx
    rw [Inside.bool, ← Option.some.inj hx]
    rfl

end Fields

theorem mapM_map
    {α : Type} {encode : α → Value} {decode : Value → Option α} {items : List α}
    (h : ∀ a ∈ items, decode (encode a) = some a) :
    (items.map encode).mapM decode = some items := by
  induction items with
  | nil =>
      rfl
  | cons a items ih =>
      rw [List.forall_mem_cons] at h
      rw [List.map_cons, List.mapM_cons, h.1, ih h.2]
      rfl

/-- A list is read back if its items are. -/
theorem Fields.Shows.list
    {v : Value} {f : Fields v} {entries : List (String × Value)} {name : String} {α : Type}
    (h : f.Shows entries)
    {encode : α → Value} {decode : Value → Option α} {items : List α}
    (hname : lookup name entries = some (.list (items.map encode)))
    (hitems : ∀ a ∈ items, decode (encode a) = some a) :
    f.withDefault name [] (fun x => x.val.listOf? decode) = some items := by
  refine h.withDefault ?_ ?_
  · intro hnone
    rw [hname] at hnone
    cases hnone
  · intro x hx
    rw [hname] at hx
    rw [← Option.some.inj hx]
    exact mapM_map hitems

/-- Some entries have distinct keys out of some names, in their order. -/
def Named (names : List String) (entries : List (String × Value)) : Prop :=
  (entries.map Prod.fst).Sublist names

theorem named_self
    (entries : List (String × Value)) :
    Named (entries.map Prod.fst) entries :=
  List.Sublist.refl _

theorem Named.append
    {names more : List String} {first second : List (String × Value)}
    (hfirst : Named names first)
    (hsecond : Named more second) :
    Named (names ++ more) (first ++ second) := by
  rw [Named, List.map_append]
  exact List.Sublist.append hfirst hsecond

theorem entries?_record
    (entries : List (String × Value)) :
    ∃ inside,
      (Value.record entries).entries? = some inside ∧
      inside.map (fun e => (e.1, e.2.val)) = entries := by
  refine ⟨_, rfl, ?_⟩
  rw [List.map_map]
  exact List.attach_map_subtype_val entries

/-- What the entries of a record have is found under its name if no known name occurs twice. -/
theorem fields?_record_of_count
    {names : List String} {entries : List (String × Value)}
    (honce : ∀ name ∈ names, (entries.map Prod.fst).count name ≤ 1) :
    ∃ f, (Value.record entries).fields? names = some f ∧ f.positional = false ∧
      f.Shows entries := by
  obtain ⟨inside, hinside, hentries⟩ := entries?_record entries
  have hfst : inside.map Prod.fst = entries.map Prod.fst := by
    have hmap := congrArg (List.map Prod.fst) hentries
    rwa [List.map_map] at hmap
  have hcount : ∀ name ∈ names, occurrences name inside ≤ 1 := by
    intro name hname
    have heq : occurrences name inside = (inside.map Prod.fst).count name := by
      rw [List.count, List.countP_map]
      rfl
    rw [heq, hfst]
    exact honce name hname
  have hlookup : ∀ name,
      ((inside.find? fun e => e.1 = name).map Prod.snd).map Subtype.val = lookup name entries := by
    intro name
    have hmap : lookup name (inside.map fun e => (e.1, e.2.val)) =
        ((inside.find? fun e => e.1 = name).map Prod.snd).map Subtype.val := by
      rw [lookup, List.find?_map, Option.map_map, Option.map_map]
      rfl
    rw [← hmap, hentries]
  refine ⟨{ entries := inside, positional := false }, ?_, rfl, hlookup⟩
  rw [Value.fields?, hinside]
  simpa using hcount

/-- So it is if the names of the entries are distinct and all known. -/
theorem fields?_record
    {names : List String} {entries : List (String × Value)}
    (hkeys : Named names entries)
    (hnames : names.Nodup) :
    ∃ f, (Value.record entries).fields? names = some f ∧ f.Shows entries := by
  obtain ⟨f, hf, -, hshows⟩ := fields?_record_of_count fun name _ =>
    List.nodup_iff_count_le_one.mp (hnames.sublist hkeys) name
  exact ⟨f, hf, hshows⟩

end Data
end ContractGen
