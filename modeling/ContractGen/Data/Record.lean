import ContractGen.Data.Value

/-!
# Reading values as records, lists and variants

The rules by which a value of a data file is read as something with named fields.

* A record gives the fields by name; unknown names are ignored, and a known name must not occur
  twice.
* A list gives the fields by position; it must not be longer than the list of fields.
* A variant is a bare name, or a record with one entry whose key is the name.

What is returned are values inside the given one, so functions that descend into a value end.
-/

namespace ContractGen
namespace Data

/-- A value inside another. -/
abbrev Inside (v : Value) : Type :=
  { x : Value // sizeOf x < sizeOf v }

/-- The items of a list. -/
def Value.items? (v : Value) : Option (List (Inside v)) :=
  match v with
  | .list items =>
    some (items.attach.map fun ⟨x, h⟩ =>
      ⟨x, by have := List.sizeOf_lt_of_mem h; simp; omega⟩)
  | _ => none

/-- The entries of a record. -/
def Value.entries? (v : Value) : Option (List (String × Inside v)) :=
  match v with
  | .record entries =>
    some (entries.attach.map fun ⟨(k, x), h⟩ =>
      (k, ⟨x, by have := List.sizeOf_lt_of_mem h; simp at *; omega⟩))
  | _ => none

/-- The fields of a value that is read as a record. -/
structure Fields (v : Value) where
  entries : List (String × Inside v)
  /-- Whether the fields were given by position. -/
  positional : Bool

/-- How often a key occurs among some entries. -/
def occurrences {α : Type} (key : String) (entries : List (String × α)) : Nat :=
  entries.countP fun e => e.1 = key

/-- Read a value as a record with the given fields, in this order. -/
def Value.fields? (names : List String) (v : Value) : Option (Fields v) :=
  match v.entries?, v.items? with
  | some entries, _ =>
    if names.all fun name => occurrences name entries ≤ 1 then
      some { entries, positional := false }
    else
      none
  | none, some items =>
    if items.length ≤ names.length then
      some { entries := names.zip items, positional := true }
    else
      none
  | none, none => none

/-- Read a value as a record with the given fields, which it must give by name. -/
def Value.namedFields? (names : List String) (v : Value) : Option (Fields v) :=
  (v.fields? names).filter fun f => !f.positional

namespace Fields

variable {v : Value} {α : Type}

/-- The value of a field, if it is given. -/
def get? (f : Fields v) (name : String) : Option (Inside v) :=
  (f.entries.find? fun e => e.1 = name).map Prod.snd

/-- A field that must be given. -/
def required (f : Fields v) (name : String) (decode : Inside v → Option α) : Option α :=
  (f.get? name).bind decode

/-- A field that may be null or, in a record, absent. -/
def optional (f : Fields v) (name : String) (decode : Inside v → Option α) : Option (Option α) :=
  match f.get? name with
  | none => if f.positional then none else some none
  | some x => if x.val.isNull then some none else (decode x).map some

/-- A field that may be absent and then has a default. -/
def withDefault (f : Fields v) (name : String) (default : α) (decode : Inside v → Option α) :
    Option α :=
  match f.get? name with
  | none => some default
  | some x => decode x

end Fields

/-- A field that is a string. -/
def Inside.string {v : Value} (x : Inside v) : Option String :=
  x.val.string?

/-- A field that is a boolean. -/
def Inside.bool {v : Value} (x : Inside v) : Option Bool :=
  x.val.bool?

/-- The values that a list holds, each read by `decode`. -/
def Value.listOf? {α : Type} (decode : Value → Option α) (v : Value) : Option (List α) :=
  v.list?.bind fun items => items.mapM decode

/-- The strings that a list holds. -/
def Value.strings? (v : Value) : Option (List String) :=
  v.listOf? Value.string?

/-- Read a value as a variant: its name and what it carries. -/
def Value.variant? (v : Value) : Option (String × Option (Inside v)) :=
  match v.string?, v.entries? with
  | some name, _ => some (name, none)
  | none, some [(name, x)] => some (name, some x)
  | none, _ => none

/-- Read a value as a variant that carries nothing. -/
def Value.plainVariant? (v : Value) : Option String :=
  match v.variant? with
  | some (name, none) => some name
  | some (name, some x) => if x.val.isNull then some name else none
  | none => none

mutual

/-- Whether a value or one inside it has a property. -/
def Value.any (p : Value → Bool) : Value → Bool
  | .list items => p (.list items) || Value.listAny p items
  | .record entries => p (.record entries) || Value.recordAny p entries
  | v => p v

/-- Whether a value in a list has a property. -/
def Value.listAny (p : Value → Bool) : List Value → Bool
  | [] => false
  | v :: vs => v.any p || Value.listAny p vs

/-- Whether a value in a record has a property. -/
def Value.recordAny (p : Value → Bool) : List (String × Value) → Bool
  | [] => false
  | (_, v) :: rest => v.any p || Value.recordAny p rest

end

end Data
end ContractGen
