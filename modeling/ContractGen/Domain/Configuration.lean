import ContractGen.Domain.Loading

/-!
# Configuration

What a configuration file can set for every generated file. A value on the command line replaces
the one of the file.
-/

namespace ContractGen
namespace Domain

open Data Files

/-- The settings of a run. -/
structure Configuration where
  /-- The licence identifier in the head of each file. -/
  license : String := "GPL-3.0"
  /-- The version constraint in the head of each file. -/
  pragma : String := ">=0.8.0 <0.9.0"
  /-- The name of the serializer that lays out the files. -/
  serializer : String := "extended-generation-gap"
  /-- The folder for generated files. -/
  output : String := "contracts"
deriving DecidableEq, Repr, Inhabited

/-- Values that replace those of a configuration. -/
structure Overrides where
  license : Option String := none
  pragma : Option String := none
  serializer : Option String := none
  output : Option String := none
deriving DecidableEq, Repr, Inhabited

namespace Configuration

/-- The name of the configuration file. -/
def fileName : String := "solgen.toml"

/-- The data form of a configuration. -/
def toValue (c : Configuration) : Value :=
  .record [("license", .string c.license), ("pragma", .string c.pragma),
    ("serializer", .string c.serializer), ("output", .string c.output)]

/-- The settings, in the order in which a list gives them. -/
def settings : List String :=
  ["license", "pragma", "serializer", "output"]

/-- Read the table of settings; what it does not give has its default. -/
def ofTable? (v : Value) : Option Configuration := do
  let standard : Configuration := {}
  let f ← v.fields? settings
  let license ← f.withDefault "license" standard.license Inside.string
  let pragma ← f.withDefault "pragma" standard.pragma Inside.string
  let serializer ← f.withDefault "serializer" standard.serializer Inside.string
  let output ← f.withDefault "output" standard.output Inside.string
  return { license, pragma, serializer, output }

/-- The name of the table of settings. -/
def tableName : String := "generator"

/-- What of a file is looked at: of a list of settings, only as many items as there are settings. -/
def relevant : Value → Value
  | .record entries =>
    .record (entries.map fun (key, v) =>
      (key, if key = tableName then v.take settings.length else v))
  | v => v

/-- Read a whole configuration file. -/
def ofValue? (v : Value) : Option Configuration := do
  let v := relevant v
  let f ← if v.any Value.isInvalidNumber then none else v.fields? [tableName]
  f.withDefault tableName {} fun x => ofTable? x.val

/-- The configuration that a text holds; the path serves for messages. -/
def parse (path text : String) : Except ModelError Configuration :=
  match (Toml.read text).bind ofValue? with
  | some c => .ok c
  | none => .error (.malformed .toml path)

/-- Load a configuration file. -/
def load (d : Disk) (path : String) : Except ModelError Configuration := do
  let text ← readFile d path
  parse path text

/-- The given file, or else the one in a folder if there is one, or else the defaults. -/
def discover (d : Disk) (path : Option String) (folder : String) :
    Except ModelError Configuration :=
  match path with
  | some path => load d path
  | none =>
    let candidate := Path.join folder fileName
    if d.isFile candidate then load d candidate else .ok {}

/-- The configuration with some values replaced. -/
def override (c : Configuration) (o : Overrides) : Configuration :=
  { license := o.license.getD c.license
    pragma := o.pragma.getD c.pragma
    serializer := o.serializer.getD c.serializer
    output := o.output.getD c.output }

end Configuration
end Domain
end ContractGen
