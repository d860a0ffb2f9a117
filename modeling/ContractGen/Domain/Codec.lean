import ContractGen.Data.Json.Writer
import ContractGen.Data.Record
import ContractGen.Domain.Model

/-!
# The data form of models

How models are written into data files and read back. Empty imports, features, aspects and
properties and an absent return type are left out when written; everything but names and types may
be left out when read.
-/

namespace ContractGen
namespace Domain

open Data

/-! ## Writing -/

/-- A field of a record, left out if the list is empty. -/
def listEntry {α : Type} (key : String) (f : α → Value) : List α → List (String × Value)
  | [] => []
  | items => [(key, .list (items.map f))]

/-- The data form of a property value. -/
def PropertyValue.toValue : PropertyValue → Value
  | bool b => .bool b
  | integer n => .int n
  | float x => .number (.float x)
  | string s => .string s

/-- The data form of an aspect. -/
def Aspect.toValue (a : Aspect) : Value :=
  .record (("name", .string a.name) ::
    (match a.properties with
      | [] => []
      | properties => [("properties", .record (properties.map fun (k, v) => (k, v.toValue)))]))

/-- The data form of a type reference. -/
def TypeRef.toValue (t : TypeRef) : Value :=
  .string t.name

/-- The data form of a field. -/
def Field.toValue (f : Field) : Value :=
  .record ([("name", .string f.name), ("type", f.type.toValue), ("list", .bool f.list),
    ("hidden", .bool f.hidden)] ++ listEntry "aspects" Aspect.toValue f.aspects)

/-- The data form of a parameter. -/
def Parameter.toValue (p : Parameter) : Value :=
  .record ([("name", .string p.name), ("type", p.type.toValue)] ++
    listEntry "aspects" Aspect.toValue p.aspects)

/-- The data form of an operation. -/
def Operation.toValue (o : Operation) : Value :=
  .record ([("name", .string o.name), ("parameters", .list (o.parameters.map Parameter.toValue))] ++
    (match o.returns with
      | none => []
      | some t => [("returns", t.toValue)]) ++
    [("hidden", .bool o.hidden)] ++ listEntry "aspects" Aspect.toValue o.aspects)

/-- The entries of a structure. -/
def Structure.entries (s : Structure) : List (String × Value) :=
  [("name", .string s.name)] ++ listEntry "features" (fun f => .string f.name) s.features ++
    listEntry "aspects" Aspect.toValue s.aspects ++
    [("fields", .list (s.fields.map Field.toValue)),
      ("operations", .list (s.operations.map Operation.toValue))]

/-- The entries of an enumeration. -/
def Enumeration.entries (e : Enumeration) : List (String × Value) :=
  [("name", .string e.name), ("fields", .strings e.values)]

/-- The data form of a declared type. -/
def ComplexType.toValue : ComplexType → Value
  | struct s => .record (("kind", .string "structure") :: s.entries)
  | enumeration e => .record (("kind", .string "enumeration") :: e.entries)

/-- The data form of a model. -/
def Model.toValue (m : Model) : Value :=
  .record ([("name", .string m.name)] ++ listEntry "imports" .string m.imports ++
    [("types", .list (m.types.map ComplexType.toValue))])

/-- The JSON text of a model. -/
def Model.toJson (m : Model) : String :=
  Json.compact m.toValue

/-! ## Reading -/

/-- Read a property value: a truth value, a 64-bit integer, another number, or a string. -/
def PropertyValue.ofValue? : Value → Option PropertyValue
  | .bool b => some (bool b)
  | .number (.integer n) =>
    if fitsSigned 64 n then some (integer n) else some (float (Double.ofInt n))
  | .number (.float x) => some (float x)
  | .string s => some (string s)
  | .null => none
  | .list _ => none
  | .record _ => none
  | .unusable => none
  | .invalidNumber => none

/-- Read properties. Of several values for one key the last counts, at the first place. -/
def propertiesOf? : Value → Option (List (String × PropertyValue))
  | .record entries =>
    entries.foldlM (fun properties (key, v) => do
      let value ← PropertyValue.ofValue? v
      return setProperty key value properties) []
  | _ => none

/-- Read an aspect. -/
def Aspect.ofValue? (v : Value) : Option Aspect := do
  let f ← v.fields? ["name", "properties"]
  let name ← f.required "name" Inside.string
  let properties ← f.withDefault "properties" [] fun x => propertiesOf? x.val
  return { name, properties }

/-- Read a type reference. -/
def TypeRef.ofValue? (v : Value) : Option TypeRef :=
  v.string?.map TypeRef.ofName

/-- Read a list of aspects. -/
def aspectsOf? {v : Value} (x : Inside v) : Option (List Aspect) :=
  x.val.listOf? Aspect.ofValue?

/-- Read a field. -/
def Field.ofValue? (v : Value) : Option Field := do
  let f ← v.fields? ["name", "type", "list", "hidden", "aspects"]
  let name ← f.required "name" Inside.string
  let type ← f.required "type" fun x => TypeRef.ofValue? x.val
  let list ← f.withDefault "list" false Inside.bool
  let hidden ← f.withDefault "hidden" false Inside.bool
  let aspects ← f.withDefault "aspects" [] aspectsOf?
  return { name, type, list, hidden, aspects }

/-- Read a parameter. -/
def Parameter.ofValue? (v : Value) : Option Parameter := do
  let f ← v.fields? ["name", "type", "aspects"]
  let name ← f.required "name" Inside.string
  let type ← f.required "type" fun x => TypeRef.ofValue? x.val
  let aspects ← f.withDefault "aspects" [] aspectsOf?
  return { name, type, aspects }

/-- Read a return type, which may be null. -/
def returnsOf? (v : Value) : Option (Option TypeRef) :=
  if v.isNull then some none else (TypeRef.ofValue? v).map some

/-- Read an operation. -/
def Operation.ofValue? (v : Value) : Option Operation := do
  let f ← v.fields? ["name", "parameters", "returns", "hidden", "aspects"]
  let name ← f.required "name" Inside.string
  let parameters ← f.withDefault "parameters" [] fun x => x.val.listOf? Parameter.ofValue?
  let returns ← f.withDefault "returns" none fun x => returnsOf? x.val
  let hidden ← f.withDefault "hidden" false Inside.bool
  let aspects ← f.withDefault "aspects" [] aspectsOf?
  return { name, parameters, returns, hidden, aspects }

/-- Read a feature. -/
def Feature.ofValue? (v : Value) : Option Feature :=
  v.plainVariant?.bind ofName?

/-- Read a feature of a declared type, which may also carry an empty record. -/
def Feature.ofDeclared? (v : Value) : Option Feature :=
  match v.variant? with
  | some (name, some ⟨.record [], _⟩) => ofName? name
  | _ => ofValue? v

/-- Read a structure, given how its features are read. -/
def Structure.ofValueWith? (feature : Value → Option Feature) (v : Value) : Option Structure := do
  let f ← v.fields? ["name", "features", "aspects", "fields", "operations"]
  let name ← f.required "name" Inside.string
  let features ← f.withDefault "features" [] fun x => x.val.listOf? feature
  let aspects ← f.withDefault "aspects" [] aspectsOf?
  let fields ← f.withDefault "fields" [] fun x => x.val.listOf? Field.ofValue?
  let operations ← f.withDefault "operations" [] fun x => x.val.listOf? Operation.ofValue?
  return { name, features, aspects, fields, operations }

/-- Read a structure that stands on its own. -/
def Structure.ofValue? (v : Value) : Option Structure :=
  ofValueWith? Feature.ofValue? v

/-- Read an enumeration. -/
def Enumeration.ofValue? (v : Value) : Option Enumeration := do
  let f ← v.fields? ["name", "fields"]
  let name ← f.required "name" Inside.string
  let values ← f.withDefault "fields" [] fun x => x.val.strings?
  return { name, values }

/-- The kind of a declared type, and the value without it. -/
def splitKind? : Value → Option (Value × Value)
  | .record entries =>
    if occurrences "kind" entries = 1 then do
      let kind ← entries.find? fun e => e.1 = "kind"
      some (kind.2, .record (entries.filter fun e => e.1 ≠ "kind"))
    else
      none
  | .list (kind :: items) => some (kind, .list items)
  | _ => none

/-- Read a declared type. -/
def ComplexType.ofValue? (v : Value) : Option ComplexType := do
  let (kind, content) ← if v.any Value.isUnusable then none else splitKind? v
  match kind with
  | .string "structure" => return struct (← Structure.ofValueWith? Feature.ofDeclared? content)
  | .string "enumeration" => return enumeration (← Enumeration.ofValue? content)
  | _ => none

/-- Read a model. -/
def Model.ofValue? (v : Value) : Option Model := do
  let f ← v.fields? ["name", "imports", "types"]
  let name ← f.required "name" Inside.string
  let imports ← f.withDefault "imports" [] fun x => x.val.strings?
  let types ← f.withDefault "types" [] fun x => x.val.listOf? ComplexType.ofValue?
  return { name, imports, types }

end Domain
end ContractGen
