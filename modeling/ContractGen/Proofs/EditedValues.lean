import ContractGen.Proofs.RecordFields
import ContractGen.Target.Codec
import Mathlib.Data.List.Forall2

/-!
# Values with members added, left out and lost

The data form of a tree is made of structures, which are records with a member for each field, and
of alternatives, which are records with the name of the alternative as their only entry. A member
that is absent is written as null. Three kinds of edits are looked at: a structure gets members
with names that it does not know, a null that may be absent is left out, and a member that is
needed is lost.

**Definitions.**
* `Edited`: a value after any number of such edits, at any depth; a flag tells of a loss.
* `outcome`: what reading gives, which is nothing after a loss.
* `Reads`, `ReadsItems`: every edit of a value or of items is read with its outcome.
* `Parts`: the fields of an edited structure, next to the members that are written for them.

**Results.**
* `Edited.refl`: a value without any edits.
* `MembersEdited.leaveOut`, `MembersEdited.remove`: a null left out, and a member lost.
* `Edited.fields`: the fields of an edited structure.
* `Parts.required`, `Parts.optional`: reading one field of it.
* `reads_record`, `reads_namedRecord`: reading a structure field by field.
* `ReadsItems.list`, `Reads.variant`: reading lists and alternatives.
-/

namespace ContractGen
namespace Target

open Data

/-! ## Edits -/

/-- The names of alternatives: what a record with one of them as its only entry stands for. -/
def variantNames : List String :=
  ["named", "enum", "mapping", "array", "expression", "call", "conditional", "return", "revert"]

/-- The names of members that may be absent. -/
def optionalNames : List String :=
  ["mutability", "location", "initializer", "otherwise"]

/-- Whether some entries stand for an alternative and not for a structure. -/
def isVariant : List (String × Value) → Bool
  | [(name, _)] => name ∈ variantNames
  | _ => false

/-- Whether a value has no parts. -/
def isScalar : Value → Bool
  | .list _ => false
  | .record _ => false
  | _ => true

section Parts

variable (R : Bool → Value → Value → Prop)

/-- The items of a list after some edits. -/
inductive ItemsEdited : Bool → List Value → List Value → Prop
  | nil : ItemsEdited false [] []
  | cons {lost more : Bool} {v v' : Value} {vs vs' : List Value}
      (h : R lost v v')
      (hs : ItemsEdited more vs vs') :
      ItemsEdited (lost || more) (v :: vs) (v' :: vs')

/-- One member of a structure after some edits; nothing is found of a member that is left out. -/
inductive MemberEdited : Bool → String × Value → Option Value → Prop
  | kept {lost : Bool} {name : String} {v v' : Value}
      (h : R lost v v') :
      MemberEdited lost (name, v) (some v')
  | omitted {name : String}
      (hname : name ∈ optionalNames) :
      MemberEdited false (name, .null) none
  | removed {name : String} {v : Value}
      (hname : name ∉ optionalNames) :
      MemberEdited true (name, v) none

/-- The members of a structure, and after some edits the names that were added and all members. -/
inductive MembersEdited :
    Bool → List (String × Value) → List String → List (String × Value) → Prop
  | nil : MembersEdited false [] [] []
  | member {lost more : Bool} {name : String} {v : Value} {found : Option Value}
      {entries entries' : List (String × Value)} {added : List String}
      (h : MemberEdited R lost (name, v) found)
      (hs : MembersEdited more entries added entries') :
      MembersEdited (lost || more) ((name, v) :: entries) added
        ((found.map fun v' => (name, v')).toList ++ entries')
  | extra {lost : Bool} {name : String} {v : Value} {entries entries' : List (String × Value)}
      {added : List String}
      (hs : MembersEdited lost entries added entries') :
      MembersEdited lost entries (name :: added) ((name, v) :: entries')

end Parts

/--
A value and what it has become after some edits; the flag tells whether a member was lost that is
needed.
-/
inductive Edited : Bool → Value → Value → Prop
  | scalar {v : Value} (h : isScalar v = true) : Edited false v v
  | list {lost : Bool} {items items' : List Value}
      (h : ItemsEdited Edited lost items items') :
      Edited lost (.list items) (.list items')
  | content {lost : Bool} {name : String} {v v' : Value}
      (hname : name ∈ variantNames)
      (h : Edited lost v v') :
      Edited lost (.record [(name, v)]) (.record [(name, v')])
  | emptied {name : String} {v : Value}
      (hname : name ∈ variantNames) :
      Edited true (.record [(name, v)]) (.record [])
  | members {lost : Bool} {entries entries' : List (String × Value)} {added : List String}
      (hplain : isVariant entries = false)
      (hnew : ∀ name ∈ added, name ∉ entries.map Prod.fst)
      (h : MembersEdited Edited lost entries added entries') :
      Edited lost (.record entries) (.record entries')

mutual

/-- A value without any edits. -/
theorem Edited.refl :
    ∀ v : Value, Edited false v v
  | .null => .scalar rfl
  | .bool _ => .scalar rfl
  | .number _ => .scalar rfl
  | .string _ => .scalar rfl
  | .unusable => .scalar rfl
  | .invalidNumber => .scalar rfl
  | .list items => .list (ItemsEdited.refl items)
  | .record [] => .members rfl (List.forall_mem_nil _) .nil
  | .record [(name, v)] => by
      by_cases hname : name ∈ variantNames
      · exact .content hname (Edited.refl v)
      · exact .members (by simpa [isVariant] using hname) (List.forall_mem_nil _)
          (.member (.kept (Edited.refl v)) .nil)
  | .record (e :: e' :: entries) =>
    .members rfl (List.forall_mem_nil _) (MembersEdited.refl (e :: e' :: entries))

theorem ItemsEdited.refl :
    ∀ items : List Value, ItemsEdited Edited false items items
  | [] => .nil
  | v :: vs => .cons (Edited.refl v) (ItemsEdited.refl vs)

theorem MembersEdited.refl :
    ∀ entries : List (String × Value), MembersEdited Edited false entries [] entries
  | [] => .nil
  | (_, v) :: entries => .member (.kept (Edited.refl v)) (MembersEdited.refl entries)

end

theorem MembersEdited.leaveOut
    {R : Bool → Value → Value → Prop} {lost : Bool}
    {entries entries' : List (String × Value)} {added : List String}
    (h : MembersEdited R lost entries added entries')
    (name : String)
    (hname : name ∈ optionalNames) :
    MembersEdited R lost ((name, .null) :: entries) added entries' :=
  .member (.omitted hname) h

theorem MembersEdited.remove
    {R : Bool → Value → Value → Prop} {lost : Bool}
    {entries entries' : List (String × Value)} {added : List String}
    (h : MembersEdited R lost entries added entries')
    (name : String)
    (v : Value)
    (hname : name ∉ optionalNames) :
    MembersEdited R true ((name, v) :: entries) added entries' :=
  .member (.removed hname) h

/-- Edits behind some members that stay as they are. -/
theorem MembersEdited.behind
    {lost : Bool} {entries entries' : List (String × Value)} {added : List String}
    (h : MembersEdited Edited lost entries added entries')
    (before : List (String × Value)) :
    MembersEdited Edited lost (before ++ entries) added (before ++ entries') := by
  induction before with
  | nil =>
      exact h
  | cons e before ih =>
      exact .member (.kept (Edited.refl e.2)) ih

/-- Edits in one member of a structure. -/
theorem Edited.inside
    {lost : Bool} {name : String} {v v' : Value} {before after : List (String × Value)}
    (h : Edited lost v v')
    (hplain : isVariant (before ++ (name, v) :: after) = false) :
    Edited lost (.record (before ++ (name, v) :: after))
      (.record (before ++ (name, v') :: after)) := by
  have hmember : MembersEdited Edited (lost || false) ((name, v) :: after) []
      ((name, v') :: after) :=
    .member (.kept h) (MembersEdited.refl after)
  rw [Bool.or_false] at hmember
  exact .members hplain (List.forall_mem_nil _) (hmember.behind before)

/-! ## What edits leave -/

section Edits

variable {lost : Bool} {v v' : Value}

theorem Edited.eq_of_isScalar
    (h : Edited lost v v')
    (hv : isScalar v = true) :
    lost = false ∧ v' = v := by
  cases h with
  | scalar _ =>
      exact ⟨rfl, rfl⟩
  | list _ =>
      cases hv
  | content _ _ =>
      cases hv
  | emptied _ =>
      cases hv
  | members _ _ _ =>
      cases hv

theorem Edited.isNull_eq
    (h : Edited lost v v') :
    v'.isNull = v.isNull := by
  cases h <;> rfl

/-- An alternative is emptied, or it keeps its name. -/
theorem Edited.variant_cases
    {name : String}
    (h : Edited lost (.record [(name, v)]) v')
    (hname : name ∈ variantNames) :
    (lost = true ∧ v' = .record []) ∨ ∃ w, v' = .record [(name, w)] ∧ Edited lost v w := by
  cases h with
  | scalar hv =>
      cases hv
  | content _ h =>
      exact Or.inr ⟨_, rfl, h⟩
  | emptied _ =>
      exact Or.inl ⟨rfl, rfl⟩
  | members hplain _ _ =>
      exact absurd hplain (by simpa [isVariant] using hname)

variable {R : Bool → Value → Value → Prop}
variable {entries entries' : List (String × Value)} {added : List String}

/-- A member of which something is found was kept. -/
theorem MemberEdited.of_some
    {name : String}
    (h : MemberEdited R lost (name, v) (some v')) :
    R lost v v' := by
  cases h with
  | kept h =>
      exact h

/-- A member of which nothing is found was absent, or it is lost. -/
theorem MemberEdited.none_cases
    {name : String}
    (h : MemberEdited R lost (name, v) none) :
    (lost = false ∧ v = .null ∧ name ∈ optionalNames) ∨ (lost = true ∧ name ∉ optionalNames) := by
  cases h with
  | omitted hname =>
      exact Or.inl ⟨rfl, rfl, hname⟩
  | removed hname =>
      exact Or.inr ⟨rfl, hname⟩

/-- A name that was not added occurs as often as before at most. -/
theorem MembersEdited.count_le
    {name : String}
    (h : MembersEdited R lost entries added entries')
    (hname : name ∉ added) :
    (entries'.map Prod.fst).count name ≤ (entries.map Prod.fst).count name := by
  induction h with
  | nil =>
      exact Nat.le_refl _
  | @member _ _ other _ found _ _ _ _ _ ih =>
      have htail := ih hname
      by_cases hother : other = name
      · cases found <;> simp [hother] <;> omega
      · cases found <;> simp [List.count_cons_of_ne hother] <;> omega
  | extra _ ih =>
      rw [List.mem_cons, not_or] at hname
      rw [List.map_cons, List.count_cons_of_ne (Ne.symm hname.1)]
      exact ih hname.2

/-- What is found under the names of some members, and whether one of them is lost. -/
inductive Parts (R : Bool → Value → Value → Prop) (find : String → Option Value) :
    List (String × Value) → Bool → Prop
  | nil : Parts R find [] false
  | cons {name : String} {v : Value} {entries : List (String × Value)} {lost more : Bool}
      (h : MemberEdited R lost (name, v) (find name))
      (hs : Parts R find entries more) :
      Parts R find ((name, v) :: entries) (lost || more)

/-- What is found in an edited structure under the names of its members. -/
theorem MembersEdited.parts
    {find : String → Option Value}
    (h : MembersEdited R lost entries added entries')
    (hnew : ∀ name ∈ added, name ∉ entries.map Prod.fst)
    (hnodup : (entries.map Prod.fst).Nodup)
    (hfind : ∀ name ∈ entries.map Prod.fst, find name = lookup name entries') :
    Parts R find entries lost := by
  induction h with
  | nil =>
      exact .nil
  | @member lost _ name v found entries entries' added hmember hs ih =>
      simp only [List.map_cons, List.mem_cons, not_or] at hnew hfind
      rw [List.map_cons, List.nodup_cons] at hnodup
      have hhead : find name = found := by
        rw [hfind name (Or.inl rfl)]
        cases found with
        | some w =>
            simp
        | none =>
            -- The name is not among the remaining members, and it was not added.
            have hcount := hs.count_le fun hmem => (hnew name hmem).1 rfl
            rw [List.count_eq_zero_of_not_mem hnodup.1, Nat.le_zero, List.count_eq_zero] at hcount
            exact lookup_eq_none_iff.mpr hcount
      refine .cons (hhead ▸ hmember) (ih (fun other hother => (hnew other hother).2) hnodup.2 ?_)
      intro other hother
      have hne : name ≠ other := fun heq => hnodup.1 (heq ▸ hother)
      rw [hfind other (Or.inr hother)]
      cases found <;> simp [hne]
  | @extra _ name _ _ _ _ _ ih =>
      rw [List.forall_mem_cons] at hnew
      refine ih hnew.2 hnodup fun other hother => ?_
      have hne : name ≠ other := fun heq => hnew.1 (heq ▸ hother)
      rw [hfind other hother, lookup_cons, if_neg hne]

/-- The value of a field, wherever it stands. -/
def find (f : Fields v) (name : String) : Option Value :=
  (f.get? name).map Subtype.val

/-- The fields of an edited structure. -/
theorem Edited.fields
    {names : List String}
    (h : Edited lost (.record entries) v)
    (hplain : isVariant entries = false)
    (hnames : entries.map Prod.fst = names)
    (hnodup : names.Nodup) :
    ∃ f : Fields v,
      v.fields? names = some f ∧ f.positional = false ∧ Parts Edited (find f) entries lost := by
  subst hnames
  cases h with
  | scalar hv =>
      cases hv
  | content hname _ =>
      exact absurd hplain (by simpa [isVariant] using hname)
  | emptied hname =>
      exact absurd hplain (by simpa [isVariant] using hname)
  | members _ hnew hs =>
      obtain ⟨f, hf, hpositional, hshows⟩ := fields?_record_of_count fun name hname =>
        Nat.le_trans (hs.count_le fun hadded => hnew name hadded hname)
          (List.nodup_iff_count_le_one.mp hnodup name)
      exact ⟨f, hf, hpositional, hs.parts hnew hnodup fun name _ => hshows name⟩

end Edits

/-! ## Reading after edits -/

section Reading

variable {α : Type}

/-- What reading gives: nothing after a loss. -/
def outcome (lost : Bool) (a : α) : Option α :=
  if lost then none else some a

theorem outcome_false
    (a : α) :
    outcome false a = some a := by
  rfl

theorem map_outcome
    {β : Type} (g : α → β)
    (lost : Bool)
    (a : α) :
    (outcome lost a).map g = outcome lost (g a) := by
  cases lost <;> rfl

/-- One after the other nothing may be lost. -/
theorem bind_outcome
    {β : Type} {first more : Bool} {a : α} {b : β} {o : Option α} {g : α → Option β}
    (h : o = outcome first a)
    (hg : g a = outcome more b) :
    (o >>= g) = outcome (first || more) b := by
  subst h
  cases first with
  | true =>
      rfl
  | false =>
      exact hg

/-- A value is read, after any edits, with its outcome. -/
def Reads (decode : Value → Option α) (v : Value) (a : α) : Prop :=
  ∀ ⦃lost : Bool⦄ ⦃v' : Value⦄, Edited lost v v' → decode v' = outcome lost a

theorem reads_string
    (s : String) :
    Reads Value.string? (.string s) s := by
  intro lost v' h
  obtain ⟨rfl, rfl⟩ := h.eq_of_isScalar rfl
  rfl

theorem reads_bool
    (b : Bool) :
    Reads Value.bool? (.bool b) b := by
  intro lost v' h
  obtain ⟨rfl, rfl⟩ := h.eq_of_isScalar rfl
  rfl

/-- Items are read, after any edits, with their outcome. -/
def ReadsItems (decode : Value → Option α) (vs : List Value) (as : List α) : Prop :=
  ∀ ⦃lost : Bool⦄ ⦃vs' : List Value⦄,
    ItemsEdited Edited lost vs vs' → vs'.mapM decode = outcome lost as

variable {decode : Value → Option α}

theorem readsItems_nil :
    ReadsItems decode [] [] := by
  rintro lost vs' ⟨⟩
  rfl

theorem ReadsItems.cons
    {v : Value} {a : α} {vs : List Value} {as : List α}
    (h : Reads decode v a)
    (hs : ReadsItems decode vs as) :
    ReadsItems decode (v :: vs) (a :: as) := by
  rintro lost vs' (_ | ⟨hhead, htail⟩)
  rw [List.mapM_cons]
  refine bind_outcome (h hhead) ?_
  have hrest := bind_outcome (g := fun as => some (a :: as)) (hs htail) (outcome_false _).symm
  rwa [Bool.or_false] at hrest

theorem readsItems_map
    {encode : α → Value}
    (h : ∀ a, Reads decode (encode a) a)
    (as : List α) :
    ReadsItems decode (as.map encode) as := by
  induction as with
  | nil =>
      exact readsItems_nil
  | cons a as ih =>
      exact ReadsItems.cons (h a) ih

/-- A list is read if its items are. -/
theorem ReadsItems.list
    {vs : List Value} {as : List α}
    (h : ReadsItems decode vs as) :
    Reads (Value.listOf? decode) (.list vs) as := by
  rintro lost v' hv
  cases hv with
  | scalar hv =>
      cases hv
  | list hitems =>
      exact h hitems

theorem reads_listValue
    {encode : α → Value}
    (h : ∀ a, Reads decode (encode a) a)
    (as : List α) :
    Reads (Value.listOf? decode) (listValue encode as) as :=
  (readsItems_map h as).list

theorem reads_strings
    (ss : List String) :
    Reads Value.strings? (.strings ss) ss :=
  (readsItems_map reads_string ss).list

section Fields

variable {β : Type} {v x : Value} {f : Fields v} {name : String}
variable {entries : List (String × Value)} {lost : Bool} {a : α} {b : β}

/-- A field that must be given is read, and then the others are. -/
theorem Parts.required
    {g : α → Option β}
    (h : Parts Edited (find f) ((name, x) :: entries) lost)
    (hname : name ∉ optionalNames)
    (hread : Reads decode x a)
    (hrest : ∀ more, Parts Edited (find f) entries more → g a = outcome more b) :
    (f.required name (fun w => decode w.val) >>= g) = outcome lost b := by
  obtain _ | ⟨hmember, hothers⟩ := h
  refine bind_outcome ?_ (hrest _ hothers)
  unfold find at hmember
  unfold Fields.required
  cases hget : f.get? name with
  | none =>
      rw [hget] at hmember
      rcases hmember.none_cases with ⟨-, -, hoptional⟩ | ⟨rfl, -⟩
      · exact absurd hoptional hname
      · rfl
  | some w =>
      rw [hget] at hmember
      exact hread hmember.of_some

/-- So is a field that may be absent, whether it is null or left out then. -/
theorem Parts.optional
    {encode : α → Value} {a? : Option α} {g : Option α → Option β}
    (h : Parts Edited (find f) ((name, Value.optional encode a?) :: entries) lost)
    (hpositional : f.positional = false)
    (hname : name ∈ optionalNames)
    (hnull : ∀ a, (encode a).isNull = false)
    (hread : ∀ a ∈ a?, Reads decode (encode a) a)
    (hrest : ∀ more, Parts Edited (find f) entries more → g a? = outcome more b) :
    (f.optional name (fun w => decode w.val) >>= g) = outcome lost b := by
  obtain _ | ⟨hmember, hothers⟩ := h
  refine bind_outcome ?_ (hrest _ hothers)
  unfold find at hmember
  unfold Fields.optional
  cases hget : f.get? name with
  | none =>
      rw [hget] at hmember
      rcases hmember.none_cases with ⟨rfl, hvalue, -⟩ | ⟨-, hnot⟩
      · cases a? with
        | none =>
            simp [hpositional, outcome]
        | some a =>
            have hnever := hnull a
            rw [show encode a = .null from hvalue] at hnever
            cases hnever
      · exact absurd hname hnot
  | some w =>
      rw [hget] at hmember
      have hedited : Edited _ (Value.optional encode a?) w.val := hmember.of_some
      have hsame := hedited.isNull_eq
      cases a? with
      | none =>
          obtain ⟨rfl, hw⟩ := hedited.eq_of_isScalar rfl
          simp [hw, Value.optional, Value.isNull, outcome]
      | some a =>
          rw [Value.optional, hnull] at hsame
          simp only [hsame]
          rw [hread a rfl hedited]
          exact map_outcome some _ a

/-- After the last field nothing more can be lost. -/
theorem Parts.done
    (h : Parts Edited (find f) [] lost)
    (b : β) :
    some b = outcome lost b := by
  cases h
  rfl

/-- A structure is read after any edits if its fields are, one after the other. -/
theorem reads_record
    {names : List String} {decode : Value → Option α} {body : (v : Value) → Fields v → Option α}
    (hdecode : ∀ v, decode v = v.fields? names >>= body v)
    (hnames : entries.map Prod.fst = names)
    (hnodup : names.Nodup)
    (hplain : isVariant entries = false)
    (hbody : ∀ {v : Value} {f : Fields v} {lost : Bool}, f.positional = false →
      Parts Edited (find f) entries lost → body v f = outcome lost a) :
    Reads decode (.record entries) a := by
  intro lost v h
  obtain ⟨f, hf, hpositional, hparts⟩ := h.fields hplain hnames hnodup
  rw [hdecode, hf]
  exact hbody hpositional hparts

/-- So it is if it has to give its fields by name. -/
theorem reads_namedRecord
    {names : List String} {decode : Value → Option α} {body : (v : Value) → Fields v → Option α}
    (hdecode : ∀ v, decode v = v.namedFields? names >>= body v)
    (hnames : entries.map Prod.fst = names)
    (hnodup : names.Nodup)
    (hplain : isVariant entries = false)
    (hbody : ∀ {v : Value} {f : Fields v} {lost : Bool},
      Parts Edited (find f) entries lost → body v f = outcome lost a) :
    Reads decode (.record entries) a := by
  intro lost v h
  obtain ⟨f, hf, hpositional, hparts⟩ := h.fields hplain hnames hnodup
  have hnamed : v.namedFields? names = some f := by
    rw [Value.namedFields?, hf, Option.filter_some, if_pos (by rw [hpositional]; rfl)]
  rw [hdecode, hnamed]
  exact hbody hparts

end Fields

end Reading

end Target
end ContractGen
