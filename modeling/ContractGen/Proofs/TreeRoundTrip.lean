import ContractGen.Proofs.EditedValues

/-!
# Trees read back from their data form

Every node of the tree is read back from its data form, at any depth. Members that a structure does
not know are passed over, members that are absent may be left out, and without a member that is
needed nothing is read.

**Results.**
* `Reads.variant`: an alternative is read if what it carries is.
* `TypeExpr.reads`, `Statement.reads`, `Definitions.reads`: one lemma for each kind of node.
* `SourceUnit.ofValue?_edited`: whole units.
-/

namespace ContractGen
namespace Target

open Data

/-! ## Alternatives, keywords and nested lists -/

section Readers

variable {α β : Type} {decode inner : Value → Option α} {v : Value} {a : α}

/-- An alternative is read if what it carries is. -/
theorem Reads.variant
    {name : String}
    (h : Reads inner v a)
    (hname : name ∈ variantNames)
    (hempty : decode (.record []) = none)
    (hdecode : ∀ x, decode (.record [(name, x)]) = inner x) :
    Reads decode (.record [(name, v)]) a := by
  intro lost v' hedited
  rcases hedited.variant_cases hname with ⟨rfl, rfl⟩ | ⟨w, rfl, hw⟩
  · exact hempty
  · rw [hdecode]
    exact h hw

/-- What is made of a value that is read is read itself. -/
theorem Reads.map
    (h : Reads decode v a)
    (g : α → β) :
    Reads (fun x => do return g (← decode x)) v (g a) := by
  intro lost v' hedited
  show (decode v' >>= fun b => some (g b)) = outcome lost (g a)
  rw [h hedited]
  cases lost <;> rfl

/-- A keyword is read if it is known by its text. -/
theorem reads_keyword
    {ofKeyword? : String → Option α} {keyword : α → String}
    (h : ∀ a, ofKeyword? (keyword a) = some a)
    (a : α) :
    Reads (keywordOf? ofKeyword?) (.string (keyword a)) a := by
  intro lost v hedited
  obtain ⟨rfl, rfl⟩ := hedited.eq_of_isScalar rfl
  exact h a

/-- The items inside a list are its items. -/
theorem items?_bind_mapM
    (decode : Value → Option α)
    (v : Value) :
    (v.items?.bind fun items => items.mapM fun item => decode item.val) = v.listOf? decode := by
  cases v with
  | list items =>
      have hitems : items.attach.map Subtype.val = items :=
        List.attach_map_subtype_val items
      conv_rhs => rw [Value.listOf?, Value.list?, Option.bind_some, ← hitems]
      simp only [Value.items?, Option.bind_some, List.mapM_map]
      rfl
  | _ =>
      rfl

/-- Items are read alike whether or not they remember the list that they are in. -/
theorem Reads.items
    {as : List α}
    (h : Reads (Value.listOf? decode) v as) :
    Reads (fun v => v.items?.bind fun items => items.mapM fun item => decode item.val) v as := by
  intro lost v' hedited
  exact (items?_bind_mapM decode v').trans (h hedited)

end Readers

/-! ## Types -/

section Types

theorem TypeExpr.ofValue?_empty :
    TypeExpr.ofValue? (.record []) = none := by
  rw [TypeExpr.ofValue?]
  rfl

/-- A type is read as it was written, however deep it is nested. -/
theorem TypeExpr.reads
    (t : TypeExpr) :
    Reads TypeExpr.ofValue? t.toValue t := by
  induction t with
  | named name =>
      exact ((reads_string name).map named).variant (by decide) ofValue?_empty fun x => by
        rw [ofValue?]
        rfl
  | enumeration name =>
      exact ((reads_string name).map enumeration).variant (by decide) ofValue?_empty fun x => by
        rw [ofValue?]
        rfl
  | mapping key value ihKey ihValue =>
      have hcontent : Reads
          (fun x => do
            let f ← x.namedFields? ["key", "value"]
            let key ← f.required "key" fun k => ofValue? k.val
            let value ← f.required "value" fun k => ofValue? k.val
            return mapping key value)
          (.record [("key", key.toValue), ("value", value.toValue)]) (mapping key value) := by
        refine reads_namedRecord (fun _ => rfl) rfl (by decide) rfl fun hparts => ?_
        refine hparts.required (by decide) ihKey fun _ hparts => ?_
        refine hparts.required (by decide) ihValue fun _ hparts => ?_
        exact hparts.done _
      exact hcontent.variant (by decide) ofValue?_empty fun x => by
        rw [ofValue?]
        rfl
  | array element ih =>
      exact (ih.map array).variant (by decide) ofValue?_empty fun x => by
        rw [ofValue?]
        rfl

end Types

/-! ## Statements -/

section Statements

theorem Statement.ofValue?_empty :
    Statement.ofValue? (.record []) = none := by
  rw [Statement.ofValue?]
  rfl

/-- The branch that may be missing is written like any other member that may be missing. -/
theorem Statement.optionToValue_eq
    (o : Option (List Statement)) :
    Statement.optionToValue o = .optional (fun ss => .list (Statement.listToValues ss)) o := by
  cases o <;> rfl

/-- The value of a return, which may be null, is read. -/
theorem reads_return
    (value : Option String) :
    Reads
      (fun x => if x.isNull then some (Statement.ret none) else do
        return .ret (some (← x.string?)))
      (.optional .string value) (.ret value) := by
  intro lost v hedited
  cases value with
  | none =>
      obtain ⟨rfl, rfl⟩ := hedited.eq_of_isScalar rfl
      rfl
  | some s =>
      obtain ⟨rfl, rfl⟩ := hedited.eq_of_isScalar rfl
      rfl

mutual

/-- A statement is read as it was written, with the statements in its branches. -/
theorem Statement.reads :
    ∀ s : Statement, Reads Statement.ofValue? s.toValue s
  | .expression text =>
      ((reads_string text).map Statement.expression).variant (by decide) Statement.ofValue?_empty
        fun x => by
          rw [Statement.ofValue?]
          rfl
  | .call function arguments => by
      have hcontent : Reads
          (fun x => do
            let f ← x.namedFields? ["function", "arguments"]
            let function ← f.required "function" Inside.string
            let arguments ← f.required "arguments" Inside.string
            return Statement.call function arguments)
          (.record [("function", .string function), ("arguments", .string arguments)])
          (.call function arguments) := by
        refine reads_namedRecord (fun _ => rfl) rfl (by decide) rfl fun hparts => ?_
        refine hparts.required (by decide) (reads_string function) fun _ hparts => ?_
        refine hparts.required (by decide) (reads_string arguments) fun _ hparts => ?_
        exact hparts.done _
      exact hcontent.variant (by decide) Statement.ofValue?_empty fun x => by
        rw [Statement.ofValue?]
        rfl
  | .conditional branches otherwise => by
      have hbranches := Branch.readsItems branches
      have hotherwise := Statement.readsOption otherwise
      have hcontent : Reads
          (fun x => do
            let f ← x.fields? ["branches", "otherwise"]
            let branches ← f.required "branches" fun b =>
              b.val.items?.bind fun items => items.mapM fun item => Branch.ofValue? item.val
            let otherwise ← f.optional "otherwise" fun o =>
              o.val.items?.bind fun items => items.mapM fun item => Statement.ofValue? item.val
            return Statement.conditional branches otherwise)
          (.record [("branches", .list (Branch.listToValues branches)),
            ("otherwise", Statement.optionToValue otherwise)])
          (.conditional branches otherwise) := by
        rw [Statement.optionToValue_eq]
        refine reads_record (fun _ => rfl) rfl (by decide) rfl fun hpositional hparts => ?_
        refine hparts.required (by decide) hbranches.list.items fun _ hparts => ?_
        refine hparts.optional hpositional (by decide) (fun _ => rfl)
          (fun ss hss => (hotherwise ss hss).list.items) fun _ hparts => ?_
        exact hparts.done _
      exact hcontent.variant (by decide) Statement.ofValue?_empty fun x => by
        rw [Statement.ofValue?]
        rfl
  | .ret value =>
      (reads_return value).variant (by decide) Statement.ofValue?_empty fun x => by
        rw [Statement.ofValue?]
        rfl
  | .revert message =>
      ((reads_string message).map Statement.revert).variant (by decide) Statement.ofValue?_empty
        fun x => by
          rw [Statement.ofValue?]
          rfl

theorem Statement.readsOption :
    ∀ o : Option (List Statement), ∀ ss ∈ o,
      ReadsItems Statement.ofValue? (Statement.listToValues ss) ss
  | some ss, _, rfl => Statement.readsItems ss

theorem Statement.readsItems :
    ∀ ss : List Statement, ReadsItems Statement.ofValue? (Statement.listToValues ss) ss
  | [] => readsItems_nil
  | s :: ss => .cons (Statement.reads s) (Statement.readsItems ss)

/-- A branch is read with its condition and its statements. -/
theorem Branch.reads :
    ∀ b : Branch, Reads Branch.ofValue? b.toValue b
  | ⟨condition, statements⟩ => by
      have hstatements := Statement.readsItems statements
      refine reads_record Branch.ofValue?.eq_def rfl (by decide) rfl fun _ hparts => ?_
      refine hparts.required (by decide) (reads_string condition) fun _ hparts => ?_
      refine hparts.required (by decide) hstatements.list.items fun _ hparts => ?_
      exact hparts.done _

theorem Branch.readsItems :
    ∀ bs : List Branch, ReadsItems Branch.ofValue? (Branch.listToValues bs) bs
  | [] => readsItems_nil
  | b :: bs => .cons (Branch.reads b) (Branch.readsItems bs)

end

end Statements

/-! ## Declarations -/

section Declarations

/-- A parameter is read with or without a data location. -/
theorem Parameter.reads
    (p : Parameter) :
    Reads Parameter.ofValue? p.toValue p := by
  refine reads_record (fun _ => rfl) rfl (by decide) rfl fun hpositional hparts => ?_
  refine hparts.required (by decide) (reads_string p.name) fun _ hparts => ?_
  refine hparts.required (by decide) p.type.reads fun _ hparts => ?_
  refine hparts.optional hpositional (by decide) (fun _ => rfl)
    (fun l _ => reads_keyword DataLocation.ofKeyword?_keyword l) fun _ hparts => ?_
  exact hparts.done p

theorem LocalField.reads
    (x : LocalField) :
    Reads LocalField.ofValue? x.toValue x := by
  refine reads_record (fun _ => rfl) rfl (by decide) rfl fun _ hparts => ?_
  refine hparts.required (by decide) (reads_string x.name) fun _ hparts => ?_
  refine hparts.required (by decide) x.type.reads fun _ hparts => ?_
  refine hparts.required (by decide) (reads_bool x.payable) fun _ hparts => ?_
  exact hparts.done x

/-- A state variable is read with or without an initializer. -/
theorem Field.reads
    (x : Field) :
    Reads Field.ofValue? x.toValue x := by
  have hvisibility := reads_keyword Visibility.ofKeyword?_keyword x.visibility
  refine reads_record (fun _ => rfl) rfl (by decide) rfl fun hpositional hparts => ?_
  refine hparts.required (by decide) (reads_string x.name) fun _ hparts => ?_
  refine hparts.required (by decide) x.type.reads fun _ hparts => ?_
  refine hparts.required (by decide) hvisibility fun _ hparts => ?_
  refine hparts.required (by decide) (reads_bool x.payable) fun _ hparts => ?_
  refine hparts.optional hpositional (by decide) (fun _ => rfl) (fun s _ => reads_string s)
    fun _ hparts => ?_
  exact hparts.done x

/-- A function is read with all of its members, also those that may be missing. -/
theorem Function.reads
    (f : Function) :
    Reads Function.ofValue? f.toValue f := by
  have hvisibility := reads_keyword Visibility.ofKeyword?_keyword f.visibility
  have hparameters := reads_listValue Parameter.reads f.parameters
  have hreturns := reads_listValue TypeExpr.reads f.returns
  have hstatements := (Statement.readsItems f.statements).list
  refine reads_record (fun _ => rfl) rfl (by decide) rfl fun hpositional hparts => ?_
  refine hparts.required (by decide) (reads_string f.name) fun _ hparts => ?_
  refine hparts.required (by decide) hvisibility fun _ hparts => ?_
  refine hparts.optional hpositional (by decide) (fun _ => rfl)
    (fun m _ => reads_keyword Mutability.ofKeyword?_keyword m) fun _ hparts => ?_
  refine hparts.required (by decide) (reads_bool f.isVirtual) fun _ hparts => ?_
  refine hparts.required (by decide) (reads_bool f.isOverride) fun _ hparts => ?_
  refine hparts.required (by decide) hparameters fun _ hparts => ?_
  refine hparts.required (by decide) hreturns fun _ hparts => ?_
  refine hparts.required (by decide) hstatements fun _ hparts => ?_
  exact hparts.done f

/-- A modifier is read with its parameters and its body. -/
theorem Modifier.reads
    (m : Modifier) :
    Reads Modifier.ofValue? m.toValue m := by
  have hparameters := reads_listValue Parameter.reads m.parameters
  have hstatements := (Statement.readsItems m.statements).list
  refine reads_record (fun _ => rfl) rfl (by decide) rfl fun _ hparts => ?_
  refine hparts.required (by decide) (reads_string m.name) fun _ hparts => ?_
  refine hparts.required (by decide) (reads_bool m.isVirtual) fun _ hparts => ?_
  refine hparts.required (by decide) (reads_bool m.isOverride) fun _ hparts => ?_
  refine hparts.required (by decide) hparameters fun _ hparts => ?_
  refine hparts.required (by decide) hstatements fun _ hparts => ?_
  exact hparts.done m

/-- A struct is read with its members. -/
theorem Structure.reads
    (s : Structure) :
    Reads Structure.ofValue? s.toValue s := by
  have hfields := reads_listValue LocalField.reads s.fields
  refine reads_record (fun _ => rfl) rfl (by decide) rfl fun _ hparts => ?_
  refine hparts.required (by decide) (reads_string s.name) fun _ hparts => ?_
  refine hparts.required (by decide) hfields fun _ hparts => ?_
  exact hparts.done s

theorem Event.reads
    (e : Event) :
    Reads Event.ofValue? e.toValue e := by
  have hparameters := reads_listValue LocalField.reads e.parameters
  refine reads_record (fun _ => rfl) rfl (by decide) rfl fun _ hparts => ?_
  refine hparts.required (by decide) (reads_string e.name) fun _ hparts => ?_
  refine hparts.required (by decide) hparameters fun _ hparts => ?_
  exact hparts.done e

theorem ErrorDefinition.reads
    (e : ErrorDefinition) :
    Reads ErrorDefinition.ofValue? e.toValue e := by
  have hparameters := reads_listValue LocalField.reads e.parameters
  refine reads_record (fun _ => rfl) rfl (by decide) rfl fun _ hparts => ?_
  refine hparts.required (by decide) (reads_string e.name) fun _ hparts => ?_
  refine hparts.required (by decide) hparameters fun _ hparts => ?_
  exact hparts.done e

/-- An enum is read with its values. -/
theorem Enumeration.reads
    (e : Enumeration) :
    Reads Enumeration.ofValue? e.toValue e := by
  refine reads_record (fun _ => rfl) rfl (by decide) rfl fun _ hparts => ?_
  refine hparts.required (by decide) (reads_string e.name) fun _ hparts => ?_
  refine hparts.required (by decide) (reads_strings e.values) fun _ hparts => ?_
  exact hparts.done e

end Declarations

/-! ## Contracts, interfaces and units -/

section Units

mutual

/-- Definitions are read kind after kind, with those that are nested in them. -/
theorem Definitions.reads :
    ∀ d : Definitions, Reads Definitions.ofValue? d.toValue d
  | ⟨contracts, interfaces, structures, enumerations, events, errors, functions, modifiers⟩ => by
      have hcontracts := Contract.readsItems contracts
      have hinterfaces := Interface.readsItems interfaces
      have hstructures := reads_listValue Structure.reads structures
      have henumerations := reads_listValue Enumeration.reads enumerations
      have hevents := reads_listValue Event.reads events
      have herrors := reads_listValue ErrorDefinition.reads errors
      have hfunctions := reads_listValue Function.reads functions
      have hmodifiers := reads_listValue Modifier.reads modifiers
      refine reads_record Definitions.ofValue?.eq_def rfl (by decide) rfl fun _ hparts => ?_
      refine hparts.required (by decide) hcontracts.list.items fun _ hparts => ?_
      refine hparts.required (by decide) hinterfaces.list.items fun _ hparts => ?_
      refine hparts.required (by decide) hstructures fun _ hparts => ?_
      refine hparts.required (by decide) henumerations fun _ hparts => ?_
      refine hparts.required (by decide) hevents fun _ hparts => ?_
      refine hparts.required (by decide) herrors fun _ hparts => ?_
      refine hparts.required (by decide) hfunctions fun _ hparts => ?_
      refine hparts.required (by decide) hmodifiers fun _ hparts => ?_
      exact hparts.done _

/-- A contract is read with its state variables and its definitions. -/
theorem Contract.reads :
    ∀ c : Contract, Reads Contract.ofValue? c.toValue c
  | ⟨name, isAbstract, parents, implements, fields, definitions⟩ => by
      have hfields := reads_listValue Field.reads fields
      have hdefinitions := Definitions.reads definitions
      refine reads_record Contract.ofValue?.eq_def rfl (by decide) rfl fun _ hparts => ?_
      refine hparts.required (by decide) (reads_string name) fun _ hparts => ?_
      refine hparts.required (by decide) (reads_bool isAbstract) fun _ hparts => ?_
      refine hparts.required (by decide) (reads_strings parents) fun _ hparts => ?_
      refine hparts.required (by decide) (reads_strings implements) fun _ hparts => ?_
      refine hparts.required (by decide) hfields fun _ hparts => ?_
      refine hparts.required (by decide) hdefinitions fun _ hparts => ?_
      exact hparts.done _

theorem Contract.readsItems :
    ∀ cs : List Contract, ReadsItems Contract.ofValue? (Contract.listToValues cs) cs
  | [] => readsItems_nil
  | c :: cs => .cons (Contract.reads c) (Contract.readsItems cs)

/-- An interface is read with its definitions. -/
theorem Interface.reads :
    ∀ i : Interface, Reads Interface.ofValue? i.toValue i
  | ⟨name, parents, definitions⟩ => by
      have hdefinitions := Definitions.reads definitions
      refine reads_record Interface.ofValue?.eq_def rfl (by decide) rfl fun _ hparts => ?_
      refine hparts.required (by decide) (reads_string name) fun _ hparts => ?_
      refine hparts.required (by decide) (reads_strings parents) fun _ hparts => ?_
      refine hparts.required (by decide) hdefinitions fun _ hparts => ?_
      exact hparts.done _

theorem Interface.readsItems :
    ∀ is : List Interface, ReadsItems Interface.ofValue? (Interface.listToValues is) is
  | [] => readsItems_nil
  | i :: is => .cons (Interface.reads i) (Interface.readsItems is)

end

theorem reads_import
    (path : String) :
    Reads importOfValue? (.record [("path", .string path)]) path := by
  have hplain : decide ("path" ∈ variantNames) = false := by
    decide
  refine reads_record (fun _ => rfl) rfl (by decide) hplain fun _ hparts => ?_
  have h := hparts.required (g := pure) (by decide) (reads_string path) fun _ hparts =>
    hparts.done path
  rwa [bind_pure] at h

/-- A file is read as it was written. -/
theorem SourceUnit.reads
    (unit : SourceUnit) :
    Reads SourceUnit.ofValue? unit.toValue unit := by
  have himports := reads_listValue reads_import unit.imports
  refine reads_record (fun _ => rfl) rfl (by decide) rfl fun _ hparts => ?_
  refine hparts.required (by decide) (reads_string unit.name) fun _ hparts => ?_
  refine hparts.required (by decide) (reads_string unit.license) fun _ hparts => ?_
  refine hparts.required (by decide) (reads_string unit.pragma) fun _ hparts => ?_
  refine hparts.required (by decide) himports fun _ hparts => ?_
  refine hparts.required (by decide) unit.definitions.reads fun _ hparts => ?_
  exact hparts.done unit

/--
A unit is read back from its data form, also if members that are absent are left out and unknown
members are added to any of its structures. Without a member that is needed nothing is read.
-/
theorem SourceUnit.ofValue?_edited
    (unit : SourceUnit) :
    SourceUnit.ofValue? unit.toValue = some unit ∧
      (∀ v, Edited false unit.toValue v → SourceUnit.ofValue? v = some unit) ∧
      ∀ v, Edited true unit.toValue v → SourceUnit.ofValue? v = none :=
  ⟨unit.reads (Edited.refl unit.toValue), fun _ h => unit.reads h, fun _ h => unit.reads h⟩

/-- A unit with one function, which has no mutability. -/
def tally : SourceUnit where
  name := "Tally"
  license := "MIT"
  pragma := "^0.8.20"
  definitions := { functions := [{ name := "total", returns := [.named "uint"] }] }

/-- The members of the unit before its definitions. -/
def tallyHead : List (String × Value) :=
  [("name", .string "Tally"), ("license", .string "MIT"), ("pragma", .string "^0.8.20"),
    ("imports", .list [])]

/-- The definitions before the functions. -/
def tallyFront : List (String × Value) :=
  [("contracts", .list []), ("interfaces", .list []), ("structures", .list []),
    ("enumerations", .list []), ("events", .list []), ("errors", .list [])]

/-- The last members of the function. -/
def tallyTail : List (String × Value) :=
  [("is_virtual", .bool false), ("is_override", .bool false), ("parameters", .list []),
    ("returns", .list [.record [("named", .string "uint")]]), ("statements", .list [])]

/-- The unit with other members in front of the last ones of its function. -/
def tallyValue (start : List (String × Value)) : Value :=
  .record (tallyHead ++ [("definitions", .record (tallyFront ++
    [("functions", .list [.record (start ++ tallyTail)]), ("modifiers", .list [])]))])

/-- An edit of the first entries is an edit of the whole value. -/
theorem tallyValue_edited
    {lost : Bool} {start start' : List (String × Value)}
    (h : Edited lost (.record (start ++ tallyTail)) (.record (start' ++ tallyTail))) :
    Edited lost (tallyValue start) (tallyValue start') := by
  have hfunctions := ItemsEdited.cons h .nil
  rw [Bool.or_false] at hfunctions
  have hdefinitions : ∀ after, Edited lost
      (.record (tallyFront ++ ("functions", .list [.record (start ++ tallyTail)]) :: after))
      (.record (tallyFront ++ ("functions", .list [.record (start' ++ tallyTail)]) :: after)) :=
    fun _ => (Edited.list hfunctions).inside rfl
  exact (hdefinitions _).inside rfl

/-- An edit that adds members keeps the file, and one that removes a required member loses it. -/
theorem SourceUnit.ofValue?_edited_tally :
    Edited false tally.toValue
        (tallyValue [("name", .string "total"), ("doc", .null), ("visibility", .string "public")]) ∧
      SourceUnit.ofValue?
        (tallyValue [("name", .string "total"), ("doc", .null), ("visibility", .string "public")]) =
          some tally ∧
      Edited true tally.toValue
        (tallyValue [("name", .string "total"), ("mutability", .null)]) ∧
      SourceUnit.ofValue?
        (tallyValue [("name", .string "total"), ("mutability", .null)]) = none := by
  have hnew : ∀ name ∈ ["doc"], name ∉
      ["name", "visibility", "mutability", "is_virtual", "is_override", "parameters", "returns",
        "statements"] := by
    decide
  have hwritten : tally.toValue = tallyValue
      [("name", .string "total"), ("visibility", .string "public"), ("mutability", .null)] := by
    rfl
  have homit := (MembersEdited.refl tallyTail).leaveOut "mutability" (by decide)
  have hkept : Edited false tally.toValue (tallyValue
      [("name", .string "total"), ("doc", .null), ("visibility", .string "public")]) :=
    hwritten ▸ tallyValue_edited (.members rfl hnew
      ((homit.behind [("visibility", .string "public")]).extra.behind [("name", .string "total")]))
  have hremove := (MembersEdited.refl (("mutability", .null) :: tallyTail)).remove "visibility"
    (.string "public") (by decide)
  have hlost : Edited true tally.toValue
      (tallyValue [("name", .string "total"), ("mutability", .null)]) :=
    hwritten ▸ tallyValue_edited (.members rfl (List.forall_mem_nil _)
      (hremove.behind [("name", .string "total")]))
  exact ⟨hkept, (ofValue?_edited tally).2.1 _ hkept, hlost, (ofValue?_edited tally).2.2 _ hlost⟩

end Units

end Target
end ContractGen
