import ContractGen.Data.Record
import ContractGen.Target.SourceUnit

/-!
# The data form of the tree

Every node of the tree as a value of a data file, and the reading of such values. Structures are
records with all their fields in order; alternatives are variants. Optional fields are written as
null when absent, and may be left out when read.
-/

namespace ContractGen
namespace Target

open Data

/-! ## Writing -/

/-- The data form of a type. -/
def TypeExpr.toValue : TypeExpr → Value
  | named name => .record [("named", .string name)]
  | enumeration name => .record [("enum", .string name)]
  | mapping key value =>
    .record [("mapping", .record [("key", key.toValue), ("value", value.toValue)])]
  | array element => .record [("array", element.toValue)]

mutual

/-- The data form of a statement. -/
def Statement.toValue : Statement → Value
  | .expression text => .record [("expression", .string text)]
  | .call function arguments =>
    .record [("call", .record [("function", .string function), ("arguments", .string arguments)])]
  | .conditional branches otherwise =>
    .record [("conditional", .record
      [("branches", .list (Branch.listToValues branches)),
        ("otherwise", Statement.optionToValue otherwise)])]
  | .ret value => .record [("return", .optional .string value)]
  | .revert message => .record [("revert", .string message)]

/-- The data form of a fallback. -/
def Statement.optionToValue : Option (List Statement) → Value
  | none => .null
  | some statements => .list (Statement.listToValues statements)

/-- The data forms of statements. -/
def Statement.listToValues : List Statement → List Value
  | [] => []
  | s :: ss => s.toValue :: Statement.listToValues ss

/-- The data form of a branch. -/
def Branch.toValue : Branch → Value
  | ⟨condition, statements⟩ =>
    .record [("condition", .string condition),
      ("statements", .list (Statement.listToValues statements))]

/-- The data forms of branches. -/
def Branch.listToValues : List Branch → List Value
  | [] => []
  | b :: bs => b.toValue :: Branch.listToValues bs

end

/-- The data form of a list of nodes. -/
def listValue {α : Type} (f : α → Value) (items : List α) : Value :=
  .list (items.map f)

/-- The data form of a parameter. -/
def Parameter.toValue (p : Parameter) : Value :=
  .record [("name", .string p.name), ("ty", p.type.toValue),
    ("location", .optional (fun l => .string l.keyword) p.location)]

/-- The data form of a struct member or argument. -/
def LocalField.toValue (f : LocalField) : Value :=
  .record [("name", .string f.name), ("ty", f.type.toValue), ("payable", .bool f.payable)]

/-- The data form of a state variable. -/
def Field.toValue (f : Field) : Value :=
  .record [("name", .string f.name), ("ty", f.type.toValue),
    ("visibility", .string f.visibility.keyword), ("payable", .bool f.payable),
    ("initializer", .optional .string f.initializer)]

/-- The data form of a function. -/
def Function.toValue (f : Function) : Value :=
  .record [("name", .string f.name), ("visibility", .string f.visibility.keyword),
    ("mutability", .optional (fun m => .string m.keyword) f.mutability),
    ("is_virtual", .bool f.isVirtual), ("is_override", .bool f.isOverride),
    ("parameters", listValue Parameter.toValue f.parameters),
    ("returns", listValue TypeExpr.toValue f.returns),
    ("statements", .list (Statement.listToValues f.statements))]

/-- The data form of a modifier. -/
def Modifier.toValue (m : Modifier) : Value :=
  .record [("name", .string m.name), ("is_virtual", .bool m.isVirtual),
    ("is_override", .bool m.isOverride),
    ("parameters", listValue Parameter.toValue m.parameters),
    ("statements", .list (Statement.listToValues m.statements))]

/-- The data form of a struct. -/
def Structure.toValue (s : Structure) : Value :=
  .record [("name", .string s.name), ("fields", listValue LocalField.toValue s.fields)]

/-- The data form of an event. -/
def Event.toValue (e : Event) : Value :=
  .record [("name", .string e.name), ("parameters", listValue LocalField.toValue e.parameters)]

/-- The data form of a custom error. -/
def ErrorDefinition.toValue (e : ErrorDefinition) : Value :=
  .record [("name", .string e.name), ("parameters", listValue LocalField.toValue e.parameters)]

/-- The data form of an enum. -/
def Enumeration.toValue (e : Enumeration) : Value :=
  .record [("name", .string e.name), ("values", .strings e.values)]

mutual

/-- The data form of definitions. -/
def Definitions.toValue : Definitions → Value
  | { contracts, interfaces, structures, enumerations, events, errors, functions, modifiers } =>
    .record [("contracts", .list (Contract.listToValues contracts)),
      ("interfaces", .list (Interface.listToValues interfaces)),
      ("structures", listValue Structure.toValue structures),
      ("enumerations", listValue Enumeration.toValue enumerations),
      ("events", listValue Event.toValue events),
      ("errors", listValue ErrorDefinition.toValue errors),
      ("functions", listValue Function.toValue functions),
      ("modifiers", listValue Modifier.toValue modifiers)]

/-- The data form of a contract. -/
def Contract.toValue : Contract → Value
  | { name, isAbstract, parents, implements, fields, definitions } =>
    .record [("name", .string name), ("is_abstract", .bool isAbstract),
      ("extends", .strings parents), ("implements", .strings implements),
      ("fields", listValue Field.toValue fields), ("definitions", definitions.toValue)]

/-- The data forms of contracts. -/
def Contract.listToValues : List Contract → List Value
  | [] => []
  | c :: cs => c.toValue :: Contract.listToValues cs

/-- The data form of an interface. -/
def Interface.toValue : Interface → Value
  | { name, parents, definitions } =>
    .record [("name", .string name), ("extends", .strings parents),
      ("definitions", definitions.toValue)]

/-- The data forms of interfaces. -/
def Interface.listToValues : List Interface → List Value
  | [] => []
  | i :: is => i.toValue :: Interface.listToValues is

end

/-- The data form of a source unit. -/
def SourceUnit.toValue (unit : SourceUnit) : Value :=
  .record [("name", .string unit.name), ("license", .string unit.license),
    ("pragma", .string unit.pragma),
    ("imports", listValue (fun path => .record [("path", .string path)]) unit.imports),
    ("definitions", unit.definitions.toValue)]

/-! ## Reading -/

/-- Read a type. -/
def TypeExpr.ofValue? (v : Value) : Option TypeExpr := do
  let (name, content) ← v.variant?
  let x ← content
  match name with
  | "named" => return named (← x.string)
  | "enum" => return enumeration (← x.string)
  | "array" => return array (← ofValue? x.val)
  | "mapping" =>
    let f ← x.val.namedFields? ["key", "value"]
    let key ← f.required "key" fun k => ofValue? k.val
    let value ← f.required "value" fun k => ofValue? k.val
    return mapping key value
  | _ => none
termination_by sizeOf v
decreasing_by
  · exact x.property
  · exact Nat.lt_trans k.property x.property
  · exact Nat.lt_trans k.property x.property

mutual

/-- Read a statement. -/
def Statement.ofValue? (v : Value) : Option Statement := do
  let (name, content) ← v.variant?
  let x ← content
  match name with
  | "expression" => return .expression (← x.string)
  | "call" =>
    let f ← x.val.namedFields? ["function", "arguments"]
    return .call (← f.required "function" Inside.string) (← f.required "arguments" Inside.string)
  | "conditional" =>
    let f ← x.val.fields? ["branches", "otherwise"]
    let branches ← f.required "branches" fun b =>
      b.val.items?.bind fun items => items.mapM fun item => Branch.ofValue? item.val
    let otherwise ← f.optional "otherwise" fun o =>
      o.val.items?.bind fun items => items.mapM fun item => Statement.ofValue? item.val
    return .conditional branches otherwise
  | "return" => if x.val.isNull then return .ret none else return .ret (some (← x.string))
  | "revert" => return .revert (← x.string)
  | _ => none
termination_by sizeOf v
decreasing_by
  · have := x.property; have := b.property; have := item.property; omega
  · have := x.property; have := o.property; have := item.property; omega

/-- Read a branch. -/
def Branch.ofValue? (v : Value) : Option Branch := do
  let f ← v.fields? ["condition", "statements"]
  let condition ← f.required "condition" Inside.string
  let statements ← f.required "statements" fun s =>
    s.val.items?.bind fun items => items.mapM fun item => Statement.ofValue? item.val
  return ⟨condition, statements⟩
termination_by sizeOf v
decreasing_by have := s.property; have := item.property; omega

end

/-- Read a keyword of a closed class. -/
def keywordOf? {α : Type} (ofKeyword? : String → Option α) (v : Value) : Option α :=
  v.plainVariant?.bind ofKeyword?

/-- Read a parameter. -/
def Parameter.ofValue? (v : Value) : Option Parameter := do
  let f ← v.fields? ["name", "ty", "location"]
  let name ← f.required "name" Inside.string
  let type ← f.required "ty" fun x => TypeExpr.ofValue? x.val
  let location ← f.optional "location" fun x => keywordOf? DataLocation.ofKeyword? x.val
  return { name, type, location }

/-- Read a struct member or argument. -/
def LocalField.ofValue? (v : Value) : Option LocalField := do
  let f ← v.fields? ["name", "ty", "payable"]
  let name ← f.required "name" Inside.string
  let type ← f.required "ty" fun x => TypeExpr.ofValue? x.val
  let payable ← f.required "payable" Inside.bool
  return { name, type, payable }

/-- Read a state variable. -/
def Field.ofValue? (v : Value) : Option Field := do
  let f ← v.fields? ["name", "ty", "visibility", "payable", "initializer"]
  let name ← f.required "name" Inside.string
  let type ← f.required "ty" fun x => TypeExpr.ofValue? x.val
  let visibility ← f.required "visibility" fun x => keywordOf? Visibility.ofKeyword? x.val
  let payable ← f.required "payable" Inside.bool
  let initializer ← f.optional "initializer" Inside.string
  return { name, type, visibility, payable, initializer }

/-- Read a function. -/
def Function.ofValue? (v : Value) : Option Function := do
  let f ← v.fields? ["name", "visibility", "mutability", "is_virtual", "is_override", "parameters",
    "returns", "statements"]
  let name ← f.required "name" Inside.string
  let visibility ← f.required "visibility" fun x => keywordOf? Visibility.ofKeyword? x.val
  let mutability ← f.optional "mutability" fun x => keywordOf? Mutability.ofKeyword? x.val
  let isVirtual ← f.required "is_virtual" Inside.bool
  let isOverride ← f.required "is_override" Inside.bool
  let parameters ← f.required "parameters" fun x => x.val.listOf? Parameter.ofValue?
  let returns ← f.required "returns" fun x => x.val.listOf? TypeExpr.ofValue?
  let statements ← f.required "statements" fun x => x.val.listOf? Statement.ofValue?
  return { name, visibility, mutability, isVirtual, isOverride, parameters, returns, statements }

/-- Read a modifier. -/
def Modifier.ofValue? (v : Value) : Option Modifier := do
  let f ← v.fields? ["name", "is_virtual", "is_override", "parameters", "statements"]
  let name ← f.required "name" Inside.string
  let isVirtual ← f.required "is_virtual" Inside.bool
  let isOverride ← f.required "is_override" Inside.bool
  let parameters ← f.required "parameters" fun x => x.val.listOf? Parameter.ofValue?
  let statements ← f.required "statements" fun x => x.val.listOf? Statement.ofValue?
  return { name, isVirtual, isOverride, parameters, statements }

/-- Read a struct. -/
def Structure.ofValue? (v : Value) : Option Structure := do
  let f ← v.fields? ["name", "fields"]
  let name ← f.required "name" Inside.string
  let fields ← f.required "fields" fun x => x.val.listOf? LocalField.ofValue?
  return { name, fields }

/-- Read an event. -/
def Event.ofValue? (v : Value) : Option Event := do
  let f ← v.fields? ["name", "parameters"]
  let name ← f.required "name" Inside.string
  let parameters ← f.required "parameters" fun x => x.val.listOf? LocalField.ofValue?
  return { name, parameters }

/-- Read a custom error. -/
def ErrorDefinition.ofValue? (v : Value) : Option ErrorDefinition := do
  let f ← v.fields? ["name", "parameters"]
  let name ← f.required "name" Inside.string
  let parameters ← f.required "parameters" fun x => x.val.listOf? LocalField.ofValue?
  return { name, parameters }

/-- Read an enum. -/
def Enumeration.ofValue? (v : Value) : Option Enumeration := do
  let f ← v.fields? ["name", "values"]
  let name ← f.required "name" Inside.string
  let values ← f.required "values" fun x => x.val.strings?
  return { name, values }

mutual

/-- Read definitions. -/
def Definitions.ofValue? (v : Value) : Option Definitions := do
  let f ← v.fields? ["contracts", "interfaces", "structures", "enumerations", "events", "errors",
    "functions", "modifiers"]
  let contracts ← f.required "contracts" fun x =>
    x.val.items?.bind fun items => items.mapM fun item => Contract.ofValue? item.val
  let interfaces ← f.required "interfaces" fun x =>
    x.val.items?.bind fun items => items.mapM fun item => Interface.ofValue? item.val
  let structures ← f.required "structures" fun x => x.val.listOf? Structure.ofValue?
  let enumerations ← f.required "enumerations" fun x => x.val.listOf? Enumeration.ofValue?
  let events ← f.required "events" fun x => x.val.listOf? Event.ofValue?
  let errors ← f.required "errors" fun x => x.val.listOf? ErrorDefinition.ofValue?
  let functions ← f.required "functions" fun x => x.val.listOf? Function.ofValue?
  let modifiers ← f.required "modifiers" fun x => x.val.listOf? Modifier.ofValue?
  return { contracts, interfaces, structures, enumerations, events, errors, functions, modifiers }
termination_by sizeOf v
decreasing_by
  all_goals
    have _ := x.property
    have _ := item.property
    omega

/-- Read a contract. -/
def Contract.ofValue? (v : Value) : Option Contract := do
  let f ← v.fields? ["name", "is_abstract", "extends", "implements", "fields", "definitions"]
  let name ← f.required "name" Inside.string
  let isAbstract ← f.required "is_abstract" Inside.bool
  let parents ← f.required "extends" fun x => x.val.strings?
  let implements ← f.required "implements" fun x => x.val.strings?
  let fields ← f.required "fields" fun x => x.val.listOf? Field.ofValue?
  let definitions ← f.required "definitions" fun x => Definitions.ofValue? x.val
  return { name, isAbstract, parents, implements, fields, definitions }
termination_by sizeOf v
decreasing_by exact x.property

/-- Read an interface. -/
def Interface.ofValue? (v : Value) : Option Interface := do
  let f ← v.fields? ["name", "extends", "definitions"]
  let name ← f.required "name" Inside.string
  let parents ← f.required "extends" fun x => x.val.strings?
  let definitions ← f.required "definitions" fun x => Definitions.ofValue? x.val
  return { name, parents, definitions }
termination_by sizeOf v
decreasing_by exact x.property

end

/-- Read an import. -/
def importOfValue? (v : Value) : Option String := do
  let f ← v.fields? ["path"]
  f.required "path" Inside.string

/-- Read a source unit. -/
def SourceUnit.ofValue? (v : Value) : Option SourceUnit := do
  let f ← v.fields? ["name", "license", "pragma", "imports", "definitions"]
  let name ← f.required "name" Inside.string
  let license ← f.required "license" Inside.string
  let pragma ← f.required "pragma" Inside.string
  let imports ← f.required "imports" fun x => x.val.listOf? importOfValue?
  let definitions ← f.required "definitions" fun x => Definitions.ofValue? x.val
  return { name, license, pragma, imports, definitions }

end Target
end ContractGen
