import ContractGen.Proofs.JsonRoundTrip
import ContractGen.Proofs.Loading
import ContractGen.Proofs.RecordFields

/-!
# Loading a model that was written

A model is written as a record and read back from the same record. What may be left out when it is
empty or absent is filled in again, and what is written by name is found by name.

**Definitions.**
* `Aspect.IsExact`, `TypeRef.IsCanonical`: what a file can tell apart.

**Results.**
* `shows_listEntry`: a list that is left out when it is empty is read back.
* `Structure.ofValueWith?_record`, `ComplexType.ofValue?_toValue`: so is every declared type.
* `Model.parse_toJson`: the text of a model holds this model.
-/

namespace ContractGen
namespace Data

/-! ## Values without a gap -/

/-- What no item of a list has in it, the list does not have in it. -/
theorem listAny_eq_false
    {p : Value → Bool} {items : List Value}
    (h : ∀ v ∈ items, v.any p = false) :
    Value.listAny p items = false := by
  induction items with
  | nil =>
      rfl
  | cons v vs ih =>
      rw [List.forall_mem_cons] at h
      rw [Value.listAny, h.1, ih h.2]
      rfl

/-- What no entry of a record has in it, the record does not have in it. -/
theorem recordAny_eq_false
    {p : Value → Bool} {entries : List (String × Value)}
    (h : ∀ e ∈ entries, e.2.any p = false) :
    Value.recordAny p entries = false := by
  induction entries with
  | nil =>
      rfl
  | cons e es ih =>
      rw [List.forall_mem_cons] at h
      rw [Value.recordAny, h.1, ih h.2]
      rfl

/-- In a value that can be stored nothing has to be passed over. -/
theorem any_isUnusable_of_storable
    {limit : Nat} {v : Value}
    (h : Json.Storable limit v) :
    v.any Value.isUnusable = false := by
  induction h with
  | null limit =>
      rfl
  | bool limit b =>
      rfl
  | integer limit hword =>
      rfl
  | string limit s =>
      rfl
  | list _ ih =>
      rw [Value.any, listAny_eq_false ih]
      rfl
  | record _ ih =>
      rw [Value.any, recordAny_eq_false ih]
      rfl

end Data

namespace Domain

open Data

/-! ## Names of entries -/

/-- A list that was left out is not found, any other one is found under its key. -/
theorem lookup_listEntry
    {α : Type}
    (name key : String)
    (encode : α → Value)
    (items : List α) :
    lookup name (listEntry key encode items) =
      if key = name ∧ items ≠ [] then some (.list (items.map encode)) else none := by
  cases items with
  | nil =>
      simp [listEntry]
  | cons a items =>
      simp [listEntry]

/-- A list that may be left out is an entry with one possible name. -/
theorem named_listEntry
    {α : Type}
    (key : String)
    (encode : α → Value)
    (items : List α) :
    Named [key] (listEntry key encode items) := by
  cases items with
  | nil =>
      exact List.nil_sublist _
  | cons a items =>
      exact List.Sublist.refl _

/-- A list that is left out when it is empty is read back. -/
theorem shows_listEntry
    {v : Value} {f : Fields v} {entries : List (String × Value)} {name : String} {α : Type}
    (h : f.Shows entries)
    {encode : α → Value} {decode : Value → Option α} {items : List α}
    (hname : lookup name entries = lookup name (listEntry name encode items))
    (hitems : ∀ a ∈ items, decode (encode a) = some a) :
    f.withDefault name [] (fun x => x.val.listOf? decode) = some items := by
  rw [lookup_listEntry] at hname
  by_cases hempty : items = []
  · refine h.withDefault (fun _ => hempty) ?_
    intro x hx
    rw [hname, if_neg (by simp [hempty])] at hx
    cases hx
  · rw [if_pos ⟨rfl, hempty⟩] at hname
    exact h.list hname hitems

/-! ## Types and aspects -/

/-- Only a primitive type has the name of one. -/
def TypeRef.IsCanonical : TypeRef → Prop
  | primitive _ => True
  | complex name => Primitive.ofName? name = none

instance : DecidablePred TypeRef.IsCanonical
  | .primitive _ => .isTrue trivial
  | .complex name => inferInstanceAs (Decidable (Primitive.ofName? name = none))

/-- A canonical type reference is recovered from its name. -/
theorem TypeRef.ofName_name
    {t : TypeRef}
    (h : t.IsCanonical) :
    TypeRef.ofName t.name = t := by
  cases t with
  | primitive p =>
      cases p <;> rfl
  | complex name =>
      rw [TypeRef.name, TypeRef.ofName, show Primitive.ofName? name = none from h]

/-- A canonical type reference is read as it was written. -/
theorem TypeRef.ofValue?_toValue
    {t : TypeRef}
    (h : t.IsCanonical) :
    TypeRef.ofValue? t.toValue = some t := by
  rw [TypeRef.ofValue?, TypeRef.toValue, Value.string?, Option.map_some, ofName_name h]

/-- A value that is read as it was written: all but numbers with a fraction and large ones. -/
def PropertyValue.IsExact : PropertyValue → Prop
  | bool _ => True
  | integer n => fitsSigned 64 n = true
  | float _ => False
  | string _ => True

instance : DecidablePred PropertyValue.IsExact
  | .bool _ => .isTrue trivial
  | .integer n => inferInstanceAs (Decidable (fitsSigned 64 n = true))
  | .float _ => .isFalse id
  | .string _ => .isTrue trivial

/-- A property is read as it was written, as long as its number is one that the format keeps. -/
theorem PropertyValue.ofValue?_toValue
    {v : PropertyValue}
    (h : v.IsExact) :
    PropertyValue.ofValue? v.toValue = some v := by
  cases v with
  | bool b =>
      rfl
  | integer n =>
      exact if_pos h
  | float x =>
      cases h
  | string s =>
      rfl

/-- An aspect with distinct keys, whose values are read as they were written. -/
structure Aspect.IsExact (a : Aspect) : Prop where
  distinct : (a.properties.map Prod.fst).Nodup
  values : ∀ p ∈ a.properties, p.2.IsExact

instance : DecidablePred Aspect.IsExact := fun a =>
  decidable_of_iff
    ((a.properties.map Prod.fst).Nodup ∧ ∀ p ∈ a.properties, p.2.IsExact)
    ⟨fun h => ⟨h.1, h.2⟩, fun h => ⟨h.1, h.2⟩⟩

/-- A new property goes behind those that are there. -/
theorem setProperty_of_not_mem
    {key : String} {properties : List (String × PropertyValue)}
    (h : key ∉ properties.map Prod.fst)
    (value : PropertyValue) :
    setProperty key value properties = properties ++ [(key, value)] := by
  induction properties with
  | nil =>
      rfl
  | cons p ps ih =>
      rw [List.map_cons, List.mem_cons, not_or] at h
      rw [setProperty, if_neg (Ne.symm h.1), ih h.2, List.cons_append]

/-- Properties with different names are read one behind the other. -/
theorem foldlM_properties
    {before properties : List (String × PropertyValue)}
    (hdistinct : ((before ++ properties).map Prod.fst).Nodup)
    (hvalues : ∀ p ∈ properties, p.2.IsExact) :
    (properties.map fun p => (p.1, p.2.toValue)).foldlM
        (fun properties (e : String × Value) => do
          let value ← PropertyValue.ofValue? e.2
          return setProperty e.1 value properties) before =
      some (before ++ properties) := by
  induction properties generalizing before with
  | nil =>
      simp
  | cons p ps ih =>
      rw [List.forall_mem_cons] at hvalues
      have hkey : p.1 ∉ before.map Prod.fst := by
        rw [List.map_append, List.nodup_append] at hdistinct
        intro hmem
        exact hdistinct.2.2 p.1 hmem p.1 List.mem_cons_self rfl
      have hrest := @ih (before ++ [p]) (by simpa using hdistinct) hvalues.2
      simpa [PropertyValue.ofValue?_toValue hvalues.1, setProperty_of_not_mem hkey] using hrest

/-- The entry for properties, left out if there are none. -/
def propertiesEntry : List (String × PropertyValue) → List (String × Value)
  | [] => []
  | properties => [("properties", .record (properties.map fun p => (p.1, p.2.toValue)))]

theorem Aspect.toValue_eq
    (a : Aspect) :
    a.toValue = .record ([("name", .string a.name)] ++ propertiesEntry a.properties) := by
  obtain ⟨name, properties⟩ := a
  cases properties <;> rfl

theorem named_propertiesEntry
    (properties : List (String × PropertyValue)) :
    Named ["properties"] (propertiesEntry properties) := by
  cases properties with
  | nil =>
      exact List.nil_sublist _
  | cons p ps =>
      exact List.Sublist.refl _

theorem lookup_propertiesEntry
    (properties : List (String × PropertyValue)) :
    lookup "properties" (propertiesEntry properties) =
      if properties = [] then none
      else some (.record (properties.map fun p => (p.1, p.2.toValue))) := by
  cases properties with
  | nil =>
      rfl
  | cons p ps =>
      simp [propertiesEntry]

/-- An aspect is read as it was written, with its properties in order. -/
theorem Aspect.ofValue?_toValue
    {a : Aspect}
    (h : a.IsExact) :
    Aspect.ofValue? a.toValue = some a := by
  have hkeys : Named ["name", "properties"]
      ([("name", .string a.name)] ++ propertiesEntry a.properties) :=
    (named_self [_]).append (named_propertiesEntry _)
  obtain ⟨f, hf, hshows⟩ := fields?_record hkeys (by decide)
  have hname : f.required "name" Inside.string = some a.name := hshows.string (by simp)
  have hproperties :
      f.withDefault "properties" [] (fun x => propertiesOf? x.val) = some a.properties := by
    refine hshows.withDefault ?_ ?_
    · simp [lookup_propertiesEntry]
    · intro x hx
      have hval : x.val = .record (a.properties.map fun p => (p.1, p.2.toValue)) := by
        by_cases hempty : a.properties = []
        · simp [lookup_propertiesEntry, hempty] at hx
        · simpa [lookup_propertiesEntry, hempty] using hx.symm
      rw [hval]
      exact foldlM_properties h.distinct h.values
  rw [Aspect.toValue_eq, Aspect.ofValue?, hf]
  simp only [Option.bind_eq_bind, Option.bind_some, hname, hproperties]
  rfl

/-! ## Members -/

/-- A field whose type and aspects are read as they were written. -/
structure Field.IsExact (f : Field) : Prop where
  type : f.type.IsCanonical
  aspects : ∀ a ∈ f.aspects, a.IsExact

/-- A parameter whose type and aspects are read as they were written. -/
structure Parameter.IsExact (p : Parameter) : Prop where
  type : p.type.IsCanonical
  aspects : ∀ a ∈ p.aspects, a.IsExact

/-- An operation whose parameters, return type and aspects are read as they were written. -/
structure Operation.IsExact (o : Operation) : Prop where
  parameters : ∀ p ∈ o.parameters, p.IsExact
  returns : ∀ t ∈ o.returns, t.IsCanonical
  aspects : ∀ a ∈ o.aspects, a.IsExact

/-- A type reference that a record shows is read from it. -/
theorem shows_type
    {v : Value} {f : Fields v} {entries : List (String × Value)} {name : String} {t : TypeRef}
    (h : f.Shows entries)
    (hname : lookup name entries = some t.toValue)
    (ht : t.IsCanonical) :
    f.required name (fun x => TypeRef.ofValue? x.val) = some t := by
  refine h.required hname ?_
  intro x hx
  rw [hx, TypeRef.ofValue?_toValue ht]

/-- Aspects are left out if there are none. -/
theorem shows_aspects
    {v : Value} {f : Fields v} {entries : List (String × Value)} {aspects : List Aspect}
    (h : f.Shows entries)
    (hname : lookup "aspects" entries =
      lookup "aspects" (listEntry "aspects" Aspect.toValue aspects))
    (haspects : ∀ a ∈ aspects, a.IsExact) :
    f.withDefault "aspects" [] aspectsOf? = some aspects :=
  shows_listEntry h hname fun a ha => Aspect.ofValue?_toValue (haspects a ha)

/-- A field is read as it was written. -/
theorem Field.ofValue?_toValue
    {x : Field}
    (h : x.IsExact) :
    Field.ofValue? x.toValue = some x := by
  have hkeys : Named ["name", "type", "list", "hidden", "aspects"]
      ([("name", .string x.name), ("type", x.type.toValue), ("list", .bool x.list),
        ("hidden", .bool x.hidden)] ++ listEntry "aspects" Aspect.toValue x.aspects) :=
    (named_self [_, _, _, _]).append (named_listEntry _ _ _)
  obtain ⟨f, hf, hshows⟩ := fields?_record hkeys (by decide)
  have hname : f.required "name" Inside.string = some x.name := hshows.string (by simp)
  have htype : f.required "type" (fun y => TypeRef.ofValue? y.val) = some x.type :=
    shows_type hshows (by simp) h.type
  have hlist : f.withDefault "list" false Inside.bool = some x.list := hshows.bool (by simp)
  have hhidden : f.withDefault "hidden" false Inside.bool = some x.hidden := hshows.bool (by simp)
  have haspects : f.withDefault "aspects" [] aspectsOf? = some x.aspects :=
    shows_aspects hshows (by simp) h.aspects
  rw [Field.toValue, Field.ofValue?, hf]
  simp only [Option.bind_eq_bind, Option.bind_some, hname, htype, hlist, hhidden, haspects]
  rfl

/-- A parameter is read as it was written. -/
theorem Parameter.ofValue?_toValue
    {p : Parameter}
    (h : p.IsExact) :
    Parameter.ofValue? p.toValue = some p := by
  have hkeys : Named ["name", "type", "aspects"]
      ([("name", .string p.name), ("type", p.type.toValue)] ++
        listEntry "aspects" Aspect.toValue p.aspects) :=
    (named_self [_, _]).append (named_listEntry _ _ _)
  obtain ⟨f, hf, hshows⟩ := fields?_record hkeys (by decide)
  have hname : f.required "name" Inside.string = some p.name := hshows.string (by simp)
  have htype : f.required "type" (fun x => TypeRef.ofValue? x.val) = some p.type :=
    shows_type hshows (by simp) h.type
  have haspects : f.withDefault "aspects" [] aspectsOf? = some p.aspects :=
    shows_aspects hshows (by simp) h.aspects
  rw [Parameter.toValue, Parameter.ofValue?, hf]
  simp only [Option.bind_eq_bind, Option.bind_some, hname, htype, haspects]
  rfl

/-- The entry for a return type, left out if there is none. -/
def returnsEntry : Option TypeRef → List (String × Value)
  | none => []
  | some t => [("returns", t.toValue)]

theorem named_returnsEntry
    (returns : Option TypeRef) :
    Named ["returns"] (returnsEntry returns) := by
  cases returns with
  | none =>
      exact List.nil_sublist _
  | some t =>
      exact List.Sublist.refl _

/-- A return type that was left out is not found, any other one is found under its key. -/
theorem lookup_returnsEntry
    (name : String)
    (returns : Option TypeRef) :
    lookup name (returnsEntry returns) =
      if "returns" = name then returns.map TypeRef.toValue else none := by
  cases returns with
  | none =>
      simp [returnsEntry]
  | some t =>
      simp [returnsEntry]

theorem returnsOf?_toValue
    {t : TypeRef}
    (h : t.IsCanonical) :
    returnsOf? t.toValue = some (some t) := by
  rw [returnsOf?, TypeRef.ofValue?_toValue h]
  rfl

/-- The entries of an operation. -/
def Operation.entries (o : Operation) : List (String × Value) :=
  [("name", .string o.name), ("parameters", .list (o.parameters.map Parameter.toValue))] ++
    returnsEntry o.returns ++ [("hidden", .bool o.hidden)] ++
    listEntry "aspects" Aspect.toValue o.aspects

theorem Operation.toValue_eq
    (o : Operation) :
    o.toValue = .record o.entries := by
  rw [Operation.toValue, Operation.entries]
  cases o.returns <;> rfl

/-- An operation is read as it was written, whether or not it returns something. -/
theorem Operation.ofValue?_toValue
    {o : Operation}
    (h : o.IsExact) :
    Operation.ofValue? o.toValue = some o := by
  have hkeys : Named ["name", "parameters", "returns", "hidden", "aspects"] o.entries :=
    (((named_self [_, _]).append (named_returnsEntry _)).append (named_self [_])).append
      (named_listEntry _ _ _)
  obtain ⟨f, hf, hshows⟩ := fields?_record hkeys (by decide)
  have hname : f.required "name" Inside.string = some o.name :=
    hshows.string (by simp [entries])
  have hparameters : f.withDefault "parameters" [] (fun x => x.val.listOf? Parameter.ofValue?) =
      some o.parameters :=
    hshows.list (by simp [entries]) fun p hp => Parameter.ofValue?_toValue (h.parameters p hp)
  have hreturns : f.withDefault "returns" none (fun x => returnsOf? x.val) = some o.returns := by
    have hlookup : lookup "returns" o.entries = o.returns.map TypeRef.toValue := by
      simp [entries, lookup_returnsEntry, lookup_listEntry]
    refine hshows.withDefault ?_ ?_
    · intro hnone
      simpa [hlookup] using hnone
    · intro x hx
      obtain ⟨t, ht, hval⟩ := Option.map_eq_some_iff.mp (hlookup.symm.trans hx)
      rw [← hval, ht, returnsOf?_toValue (h.returns t ht)]
  have hhidden : f.withDefault "hidden" false Inside.bool = some o.hidden :=
    hshows.bool (by simp [entries, lookup_returnsEntry])
  have haspects : f.withDefault "aspects" [] aspectsOf? = some o.aspects :=
    shows_aspects hshows (by simp [entries, lookup_returnsEntry]) h.aspects
  rw [Operation.toValue_eq, Operation.ofValue?, hf]
  simp only [Option.bind_eq_bind, Option.bind_some, hname, hparameters, hreturns, hhidden, haspects]
  rfl

/-! ## Declared types -/

/-- A structure whose members and aspects are read as they were written. -/
structure Structure.IsExact (s : Structure) : Prop where
  aspects : ∀ a ∈ s.aspects, a.IsExact
  fields : ∀ f ∈ s.fields, f.IsExact
  operations : ∀ o ∈ s.operations, o.IsExact

/-- A feature is known by its name. -/
theorem Feature.ofDeclared?_name
    (f : Feature) :
    Feature.ofDeclared? (.string f.name) = some f := by
  cases f <;> rfl

theorem Structure.named_entries
    (s : Structure) :
    Named ["name", "features", "aspects", "fields", "operations"] s.entries :=
  (((named_self [_]).append (named_listEntry _ _ _)).append (named_listEntry _ _ _)).append
    (named_self [_, _])

/-- A structure is read as it was written, once the entry for its kind has been split off. -/
theorem Structure.ofValueWith?_entries
    {s : Structure}
    (h : s.IsExact) :
    Structure.ofValueWith? Feature.ofDeclared? (.record s.entries) = some s := by
  obtain ⟨f, hf, hshows⟩ := fields?_record s.named_entries (by decide)
  have hname : f.required "name" Inside.string = some s.name :=
    hshows.string (by simp [entries])
  have hfeatures : f.withDefault "features" [] (fun x => x.val.listOf? Feature.ofDeclared?) =
      some s.features :=
    shows_listEntry hshows (by simp [entries, lookup_listEntry]) fun x _ => Feature.ofDeclared?_name x
  have haspects : f.withDefault "aspects" [] aspectsOf? = some s.aspects :=
    shows_aspects hshows (by simp [entries, lookup_listEntry]) h.aspects
  have hfields : f.withDefault "fields" [] (fun x => x.val.listOf? Field.ofValue?) =
      some s.fields :=
    hshows.list (by simp [entries, lookup_listEntry]) fun x hx =>
      Field.ofValue?_toValue (h.fields x hx)
  have hoperations : f.withDefault "operations" [] (fun x => x.val.listOf? Operation.ofValue?) =
      some s.operations :=
    hshows.list (by simp [entries, lookup_listEntry]) fun o ho =>
      Operation.ofValue?_toValue (h.operations o ho)
  rw [Structure.ofValueWith?, hf]
  simp only [Option.bind_eq_bind, Option.bind_some, hname, hfeatures, haspects, hfields, hoperations]
  rfl

theorem Enumeration.named_entries
    (e : Enumeration) :
    Named ["name", "fields"] e.entries :=
  named_self [_, _]

/-- An enumeration is read as it was written. -/
theorem Enumeration.ofValue?_entries
    (e : Enumeration) :
    Enumeration.ofValue? (.record e.entries) = some e := by
  obtain ⟨f, hf, hshows⟩ := fields?_record e.named_entries (by decide)
  have hname : f.required "name" Inside.string = some e.name :=
    hshows.string (by simp [entries])
  have hstring : ∀ s ∈ e.values, (Value.string s).string? = some s := fun _ _ => rfl
  have hvalues : f.withDefault "fields" [] (fun x => x.val.strings?) = some e.values :=
    hshows.list (by simp [entries, Value.strings]) hstring
  rw [Enumeration.ofValue?, hf]
  simp only [Option.bind_eq_bind, Option.bind_some, hname, hvalues]
  rfl

/-- The kind of a declared type is taken off its other entries. -/
theorem splitKind?_record
    {names : List String} {entries : List (String × Value)}
    (hkeys : Named names entries)
    (hkind : "kind" ∉ names)
    (kind : Value) :
    splitKind? (.record (("kind", kind) :: entries)) = some (kind, .record entries) := by
  have hother : ∀ e ∈ entries, e.1 ≠ "kind" := by
    intro e he hkey
    exact hkind (hkey ▸ hkeys.subset (List.mem_map_of_mem he))
  have honce : occurrences "kind" (("kind", kind) :: entries) = 1 := by
    rw [occurrences, List.countP_cons_of_pos (by simp), List.countP_eq_zero.mpr]
    simpa using hother
  have hsame : (("kind", kind) :: entries).filter (fun e => e.1 ≠ "kind") = entries := by
    rw [List.filter_cons_of_neg (by simp), List.filter_eq_self]
    simpa using hother
  rw [splitKind?, if_pos honce, List.find?_cons_of_pos (by simp), hsame]
  rfl

/-- A declared type whose members and aspects are read as they were written. -/
def ComplexType.IsExact : ComplexType → Prop
  | struct s => s.IsExact
  | enumeration _ => True

/-- A declared type is read as it was written; its kind decides between the two forms. -/
theorem ComplexType.ofValue?_toValue
    {t : ComplexType}
    (h : t.IsExact)
    (husable : t.toValue.any Value.isUnusable = false) :
    ComplexType.ofValue? t.toValue = some t := by
  cases t with
  | struct s =>
      rw [ComplexType.ofValue?, if_neg (by simp [husable]), ComplexType.toValue,
        splitKind?_record s.named_entries (by decide)]
      simp only [Option.bind_eq_bind, Option.bind_some, Structure.ofValueWith?_entries h]
      rfl
  | enumeration e =>
      rw [ComplexType.ofValue?, if_neg (by simp [husable]), ComplexType.toValue,
        splitKind?_record e.named_entries (by decide)]
      simp only [Option.bind_eq_bind, Option.bind_some, Enumeration.ofValue?_entries]
      rfl

/-! ## What is written can be stored -/

section Storable

open Json (Storable)

/-- A list of values that can be stored can be stored, one level deeper. -/
theorem storable_map
    {limit : Nat} {α : Type} {encode : α → Value} {items : List α}
    (h : ∀ a ∈ items, Storable limit (encode a)) :
    Storable (limit + 1) (.list (items.map encode)) := by
  refine .list ?_
  rw [List.forall_mem_map]
  exact h

theorem storable_listEntry
    {limit : Nat} {α : Type} {encode : α → Value} {items : List α}
    (key : String)
    (h : ∀ a ∈ items, Storable limit (encode a)) :
    ∀ e ∈ listEntry key encode items, Storable (limit + 1) e.2 := by
  cases items with
  | nil =>
      exact nofun
  | cons a items =>
      exact List.forall_mem_singleton.mpr (storable_map h)

/-- A property can be stored at any depth. -/
theorem PropertyValue.storable_toValue
    {v : PropertyValue}
    (h : v.IsExact)
    (limit : Nat) :
    Storable limit v.toValue := by
  cases v with
  | bool b =>
      exact .bool limit b
  | integer n =>
      have hfits : fitsSigned 64 n = true := h
      simp only [fitsSigned, Bool.and_eq_true, decide_eq_true_eq] at hfits
      exact .integer limit ⟨hfits.1, Int.lt_trans hfits.2 (by decide)⟩
  | float x =>
      cases h
  | string s =>
      exact .string limit s

/-- An aspect can be stored: its properties lie two levels deep. -/
theorem Aspect.storable_toValue
    {a : Aspect}
    (h : a.IsExact)
    (limit : Nat) :
    Storable (limit + 2) a.toValue := by
  rw [Aspect.toValue_eq]
  refine .record (List.forall_mem_append.mpr ⟨?_, ?_⟩)
  · exact List.forall_mem_singleton.mpr (.string _ _)
  · have hvalues := h.values
    cases hproperties : a.properties with
    | nil =>
        exact nofun
    | cons p ps =>
        rw [hproperties] at hvalues
        refine List.forall_mem_singleton.mpr (.record ?_)
        rw [List.forall_mem_map]
        exact fun q hq => PropertyValue.storable_toValue (hvalues q hq) limit

theorem storable_aspects
    {aspects : List Aspect}
    (h : ∀ a ∈ aspects, a.IsExact)
    (limit : Nat) :
    ∀ e ∈ listEntry "aspects" Aspect.toValue aspects, Storable (limit + 3) e.2 :=
  storable_listEntry "aspects" fun a ha => Aspect.storable_toValue (h a ha) limit

/-- A field can be stored with its aspects. -/
theorem Field.storable_toValue
    {f : Field}
    (h : f.IsExact)
    (limit : Nat) :
    Storable (limit + 4) f.toValue := by
  refine .record (List.forall_mem_append.mpr ⟨?_, storable_aspects h.aspects limit⟩)
  simp only [List.forall_mem_cons]
  exact ⟨.string _ _, .string _ _, .bool _ _, .bool _ _, nofun⟩

theorem Parameter.storable_toValue
    {p : Parameter}
    (h : p.IsExact)
    (limit : Nat) :
    Storable (limit + 4) p.toValue := by
  refine .record (List.forall_mem_append.mpr ⟨?_, storable_aspects h.aspects limit⟩)
  simp only [List.forall_mem_cons]
  exact ⟨.string _ _, .string _ _, nofun⟩

/-- An operation can be stored with its parameters. -/
theorem Operation.storable_toValue
    {o : Operation}
    (h : o.IsExact)
    (limit : Nat) :
    Storable (limit + 6) o.toValue := by
  have hparameters : Storable (limit + 5) (.list (o.parameters.map Parameter.toValue)) :=
    storable_map fun p hp => Parameter.storable_toValue (h.parameters p hp) limit
  have hreturns : ∀ e ∈ returnsEntry o.returns, Storable (limit + 5) e.2 := by
    cases o.returns with
    | none =>
        exact nofun
    | some t =>
        exact List.forall_mem_singleton.mpr (.string _ _)
  rw [Operation.toValue_eq]
  refine .record ?_
  simp only [entries, List.forall_mem_append, List.forall_mem_cons]
  exact ⟨⟨⟨⟨.string _ _, hparameters, nofun⟩, hreturns⟩, .bool _ _, nofun⟩,
    storable_aspects h.aspects (limit + 2)⟩

/-- A structure can be stored with its operations. -/
theorem Structure.storable_entries
    {s : Structure}
    (h : s.IsExact)
    (limit : Nat) :
    ∀ e ∈ s.entries, Storable (limit + 7) e.2 := by
  have hfeatures : ∀ e ∈ listEntry "features" (fun f => .string f.name) s.features,
      Storable (limit + 7) e.2 :=
    storable_listEntry "features" fun f _ => .string _ _
  have hfields : Storable (limit + 7) (.list (s.fields.map Field.toValue)) :=
    storable_map fun f hf => Field.storable_toValue (h.fields f hf) (limit + 2)
  have hoperations : Storable (limit + 7) (.list (s.operations.map Operation.toValue)) :=
    storable_map fun o ho => Operation.storable_toValue (h.operations o ho) limit
  simp only [entries, List.forall_mem_append, List.forall_mem_cons]
  exact ⟨⟨⟨⟨.string _ _, nofun⟩, hfeatures⟩, storable_aspects h.aspects (limit + 4)⟩,
    hfields, hoperations, nofun⟩

theorem Enumeration.storable_entries
    (e : Enumeration)
    (limit : Nat) :
    ∀ x ∈ e.entries, Storable (limit + 7) x.2 := by
  have hvalues : Storable (limit + 7) (.strings e.values) :=
    storable_map fun s _ => .string _ s
  simp only [entries, List.forall_mem_cons]
  exact ⟨.string _ _, hvalues, nofun⟩

/-- A declared type can be stored, one level below its entries. -/
theorem ComplexType.storable_toValue
    {t : ComplexType}
    (h : t.IsExact)
    (limit : Nat) :
    Storable (limit + 8) t.toValue := by
  cases t with
  | struct s =>
      exact .record (List.forall_mem_cons.mpr ⟨.string _ _, Structure.storable_entries h limit⟩)
  | enumeration e =>
      exact .record (List.forall_mem_cons.mpr ⟨.string _ _, e.storable_entries limit⟩)

end Storable

/-! ## Models -/

/-- The types that a structure refers to. -/
def Structure.typeRefs (s : Structure) : List TypeRef :=
  s.fields.map Field.type ++
    s.operations.flatMap fun o => o.parameters.map Parameter.type ++ o.returns.toList

/-- The types that a model refers to. -/
def Model.typeRefs (m : Model) : List TypeRef :=
  m.structures.flatMap Structure.typeRefs

/-- A model refers to types by their names alone, and its aspects are read as they were written. -/
structure Model.IsExact (m : Model) : Prop where
  types : ∀ t ∈ m.typeRefs, t.IsCanonical
  aspects : ∀ a ∈ m.aspects, a.IsExact

instance : DecidablePred Model.IsExact := fun m =>
  decidable_of_iff
    ((∀ t ∈ m.typeRefs, t.IsCanonical) ∧ ∀ a ∈ m.aspects, a.IsExact)
    ⟨fun h => ⟨h.1, h.2⟩, fun h => ⟨h.1, h.2⟩⟩

/-- The structures of a model that a file can tell apart are such themselves. -/
theorem Model.IsExact.of_mem_structures
    {m : Model} {s : Structure}
    (h : m.IsExact)
    (hs : s ∈ m.structures) :
    s.IsExact := by
  obtain ⟨htypes, haspects⟩ := h
  simp only [Model.typeRefs, List.forall_mem_flatMap] at htypes
  simp only [Model.aspects, List.forall_mem_flatMap] at haspects
  have hs_types := htypes s hs
  have hs_aspects := haspects s hs
  simp only [Structure.typeRefs, List.forall_mem_append, List.forall_mem_map,
    List.forall_mem_flatMap] at hs_types
  simp only [List.forall_mem_append, List.forall_mem_flatMap] at hs_aspects
  obtain ⟨hfieldTypes, hoperationTypes⟩ := hs_types
  obtain ⟨⟨hown, hfieldAspects⟩, hoperationAspects⟩ := hs_aspects
  refine ⟨hown, ?_, ?_⟩
  · intro f hf
    exact ⟨hfieldTypes f hf, hfieldAspects f hf⟩
  · intro o ho
    obtain ⟨hparameterTypes, hreturns⟩ := hoperationTypes o ho
    obtain ⟨haspects, hparameterAspects⟩ := hoperationAspects o ho
    refine ⟨?_, by simpa using hreturns, haspects⟩
    intro p hp
    exact ⟨hparameterTypes p hp, hparameterAspects p hp⟩

/-- The types of a model that a file can tell apart are such themselves. -/
theorem Model.IsExact.of_mem_types
    {m : Model} {t : ComplexType}
    (h : m.IsExact)
    (ht : t ∈ m.types) :
    t.IsExact := by
  cases t with
  | struct s =>
      exact h.of_mem_structures (List.mem_filterMap.mpr ⟨_, ht, rfl⟩)
  | enumeration e =>
      trivial

/-- A model is read from the record that it is written as. -/
theorem Model.ofValue?_toValue
    {m : Model}
    (h : m.IsExact) :
    Model.ofValue? m.toValue = some m := by
  have hkeys : Named ["name", "imports", "types"]
      ([("name", .string m.name)] ++ listEntry "imports" .string m.imports ++
        [("types", .list (m.types.map ComplexType.toValue))]) :=
    ((named_self [_]).append (named_listEntry _ _ _)).append (named_self [_])
  obtain ⟨f, hf, hshows⟩ := fields?_record hkeys (by decide)
  have hname : f.required "name" Inside.string = some m.name := hshows.string (by simp)
  have hstring : ∀ s ∈ m.imports, (Value.string s).string? = some s := fun _ _ => rfl
  have himports : f.withDefault "imports" [] (fun x => x.val.strings?) = some m.imports :=
    shows_listEntry hshows (by simp [lookup_listEntry]) hstring
  have htype : ∀ t ∈ m.types, ComplexType.ofValue? t.toValue = some t := by
    intro t ht
    have hexact := h.of_mem_types ht
    exact ComplexType.ofValue?_toValue hexact
      (any_isUnusable_of_storable (ComplexType.storable_toValue hexact 0))
  have htypes : f.withDefault "types" [] (fun x => x.val.listOf? ComplexType.ofValue?) =
      some m.types :=
    hshows.list (by simp [lookup_listEntry]) htype
  rw [Model.toValue, Model.ofValue?, hf]
  simp only [Option.bind_eq_bind, Option.bind_some, hname, himports, htypes]
  rfl

/-- A model can be stored: nothing in it lies deeper than a fixed number of levels. -/
theorem Model.storable_toValue
    {m : Model}
    (h : m.IsExact)
    (limit : Nat) :
    Json.Storable (limit + 10) m.toValue := by
  have himports : ∀ e ∈ listEntry "imports" .string m.imports, Json.Storable (limit + 9) e.2 :=
    storable_listEntry "imports" fun s _ => .string _ s
  have htypes : Json.Storable (limit + 9) (.list (m.types.map ComplexType.toValue)) :=
    storable_map fun t ht => ComplexType.storable_toValue (h.of_mem_types ht) limit
  refine .record ?_
  simp only [List.forall_mem_append, List.forall_mem_cons]
  exact ⟨⟨⟨.string _ _, nofun⟩, himports⟩, htypes, nofun⟩

/-- The text of a model holds this model, and no name in it is reported. -/
theorem Model.read_toJson
    {m : Model}
    (hnames : ∀ d ∈ m.declaredNames, nameFault? d.name = none)
    (hexact : m.IsExact) :
    (Format.json.read m.toJson).bind Model.ofValue? = some m ∧ nameError? m.toJson m = none := by
  have hread : Format.json.read m.toJson = some m.toValue :=
    Json.read_compact (Model.storable_toValue hexact 117)
  constructor
  · rw [hread, Option.bind_some, Model.ofValue?_toValue hexact]
  · rw [nameError?, List.findSome?_eq_none_iff]
    intro d hd
    rw [hnames d hd]
    rfl

/-- A file with the text of a model is loaded as this model. -/
theorem Model.load_of_toJson
    {fs : Files.FileSystem} {path : String} {m : Model}
    (hformat : Format.ofPath path = .ok .json)
    (hread : fs.read path = .ok m.toJson)
    (hnames : ∀ d ∈ m.declaredNames, nameFault? d.name = none)
    (hexact : m.IsExact) :
    Model.load fs path = .ok m :=
  Model.load_eq_ok_iff.mpr ⟨.json, m.toJson, hformat, hread, Model.read_toJson hnames hexact⟩

/-- A model that is written as JSON is loaded as it was. -/
theorem Model.parse_toJson
    {m : Model}
    (hnames : ∀ d ∈ m.declaredNames, nameFault? d.name = none)
    (hexact : m.IsExact)
    (path : String) :
    Model.parse .json path m.toJson = .ok m :=
  Model.parse_eq_ok_iff.mpr (Model.read_toJson hnames hexact)

/-- A model with strange texts, the least and the greatest integers, and much that is left out. -/
def ledgerModel : Model :=
  { name := "\"Ledger\" \\ \u0000\t\n\u001f \u007f é 😀"
    types :=
      [.struct
        { name := "Ledger"
          features := [.aggregate, .valueObject]
          aspects :=
            [{ name := "Limits"
               properties :=
                 [("most", .integer 9223372036854775807), ("", .bool false),
                  ("least", .integer (-9223372036854775808)), ("mark", .string "\u0008\u000c\r")] },
             { name := "Limits" }]
          fields := [{ name := "owner", type := .complex "Account", list := true }]
          operations :=
            [{ name := "close"
               parameters := [{ name := "when", type := .primitive .date }]
               returns := some (.primitive .boolean) },
             { name := "open_" }] },
      .enumeration { name := "State" },
      .struct { name := "Account" }] }

/-- The strange model is read back as it was. -/
theorem Model.parse_toJson_ledger :
    (∀ d ∈ ledgerModel.declaredNames, nameFault? d.name = none) ∧
      ledgerModel.IsExact ∧
      Model.parse .json "ledger.json" ledgerModel.toJson = .ok ledgerModel :=
  ⟨by decide, by decide, Model.parse_toJson (by decide) (by decide) "ledger.json"⟩

end Domain
end ContractGen
