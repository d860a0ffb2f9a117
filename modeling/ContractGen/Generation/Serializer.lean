import ContractGen.Files.Registry
import ContractGen.Lowering.Placement
import ContractGen.Target.Printer
import ContractGen.Text.Visible

/-!
# Serializers

A serializer decides which files a lowered unit is spread over. It may look at the output folder,
but it only describes files; writing them is left to others. Serializers are selected by name.
-/

namespace ContractGen
namespace Generation

open Files Lowering Target

/-- A contract that no files are made for, and why. -/
structure SkippedContract where
  contract : String
  reason : String
deriving DecidableEq, Repr, Inhabited

/-- The files for a unit. -/
structure Serialized where
  files : List Entry := []
  skipped : List SkippedContract := []
deriving DecidableEq, Inhabited

/-- A way to lay out lowered units. -/
structure Serializer where
  name : String
  /-- Whether it is the one in use when none is asked for. -/
  isDefault : Bool := false
  /-- The files for a unit in an output folder. -/
  serialize : Disk → (folder : String) → LoweredUnit → Serialized

/-! ## What serializers have in common -/

/-- The definitions outside contracts. -/
def fileLevel (d : Definitions) : Definitions :=
  { d with contracts := [] }

/-- The file for a unit without contracts, if there is anything in it. -/
def standaloneFile? (u : LoweredUnit) : Option Entry :=
  if u.unit.definitions.isEmpty then
    none
  else
    some (.generated (u.outputPath.getD (u.unit.name ++ "." ++ sourceExtension)) u.unit.print)

/-! ## Selecting a serializer -/

/-- Why serializers cannot be registered or selected. -/
inductive SelectionError
  | duplicate (name : String)
  | noDefault
  | multipleDefaults (first second : String)
  | unknown (name : String) (available : List String)
deriving DecidableEq, Repr, Inhabited

/-- The name of the kind of error. -/
def SelectionError.kind : SelectionError → String
  | duplicate _ => "Duplicate"
  | noDefault => "NoDefault"
  | multipleDefaults _ _ => "MultipleDefaults"
  | unknown _ _ => "Unknown"

/-- The message for the user. -/
def SelectionError.message : SelectionError → String
  | duplicate name => "serializer '" ++ name ++ "' is registered more than once"
  | noDefault => "no default serializer is registered"
  | multipleDefaults first second =>
    "serializers '" ++ first ++ "' and '" ++ second ++ "' are both marked as default"
  | unknown name available =>
    "unknown serializer '" ++ name ++ "' (available: " ++ String.intercalate ", " available ++ ")"

/-- The serializers of a run. Their names differ, and one of them is the default. -/
structure SerializerSet where
  serializers : List Serializer
  /-- The name of the default. -/
  default : String

namespace SerializerSet

/-- Go through serializers, checking each against those before it. -/
def check (seen : List String) (default? : Option String) :
    List Serializer → Except SelectionError (Option String)
  | [] => .ok default?
  | s :: ss =>
    if s.name ∈ seen then
      .error (.duplicate s.name)
    else if s.isDefault then
      match default? with
      | some first => .error (.multipleDefaults first s.name)
      | none => check (s.name :: seen) (some s.name) ss
    else
      check (s.name :: seen) default? ss

/-- The set of some serializers, if they are as required. -/
def ofList (serializers : List Serializer) : Except SelectionError SerializerSet :=
  match check [] none serializers with
  | .error e => .error e
  | .ok none => .error .noDefault
  | .ok (some default) => .ok { serializers, default }

/-- The names of the serializers. -/
def names (s : SerializerSet) : List String :=
  s.serializers.map Serializer.name

/-- The serializer with a given name. -/
def get (s : SerializerSet) (name : String) : Except SelectionError Serializer :=
  match s.serializers.find? fun x => x.name = name with
  | some x => .ok x
  | none => .error (.unknown name s.names)

/-- The serializer with a given name, or the default if there is none. -/
def select (s : SerializerSet) (name : Option String) : Except SelectionError Serializer :=
  s.get (name.getD s.default)

/-- Hexadecimal digits of a number. -/
def hexDigits (n : Nat) : String :=
  String.ofList (Nat.toDigits 16 n)

/-- A character of a shown name; one that cannot be seen on its own is shown as its number. -/
def shownChar (c : Char) : String :=
  if c = '"' then "\\\""
  else if c = '\\' then "\\\\"
  else if c = '\n' then "\\n"
  else if c = '\r' then "\\r"
  else if c = '\t' then "\\t"
  else if c.toNat = 0 then "\\0"
  else if Text.isVisible c then c.toString
  else "\\u\x7b" ++ hexDigits c.toNat ++ "\x7d"

/-- A name in quotes, with special characters escaped. -/
def shownName (name : String) : String :=
  "\"" ++ String.join (name.toList.map shownChar) ++ "\""

/-- The set as shown to a developer. -/
def description (s : SerializerSet) : String :=
  "SerializerRegistry \x7b serializers: [" ++
    String.intercalate ", " (s.names.map shownName) ++ "], default: " ++ shownName s.default ++
    " \x7d"

end SerializerSet
end Generation
end ContractGen
