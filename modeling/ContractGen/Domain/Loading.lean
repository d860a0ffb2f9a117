import ContractGen.Data.Json.Reader
import ContractGen.Data.Toml.Reader
import ContractGen.Domain.Codec
import ContractGen.Domain.ModelError
import ContractGen.Files.FileSystem

/-!
# Loading one model file

The extension decides the format. Once the whole file has been read, the declared names are
checked in the order in which they are declared; the first one that is not allowed is reported
together with the place where it seems to stand in the file.
-/

namespace ContractGen
namespace Domain

open Data Files

/-- The format of a file, by its extension in any case. -/
def Format.ofPath (path : String) : Except ModelError Format :=
  let extension := (Path.extension? path).getD ""
  if lowered extension = "toml" then .ok .toml
  else if lowered extension = "json" then .ok .json
  else .error (.unsupportedFormat path extension)

/-- The value that a text holds. -/
def Format.read : Format → String → Option Value
  | toml, text => (Toml.read text).filter fun v => !v.any Value.isInvalidNumber
  | json, text => Json.read text

/-! ## Checking names -/

/-- A name that a model declares. -/
structure DeclaredName where
  name : String
  role : NameRole
deriving DecidableEq, Repr, Inhabited

/-- The names that a structure declares, in order. -/
def Structure.declaredNames (s : Structure) : List DeclaredName :=
  ⟨s.name, .struct⟩ :: s.fields.map (fun f => ⟨f.name, .field⟩) ++
    s.operations.flatMap fun o =>
      ⟨o.name, .operation⟩ :: o.parameters.map fun p => ⟨p.name, .parameter⟩

/-- The names that an enumeration declares, in order. -/
def Enumeration.declaredNames (e : Enumeration) : List DeclaredName :=
  ⟨e.name, .enumeration⟩ :: e.values.map fun v => ⟨v, .enumerationValue⟩

/-- The names that a model declares, in order. Its own name is none of them. -/
def Model.declaredNames (m : Model) : List DeclaredName :=
  m.types.flatMap fun
    | .struct s => s.declaredNames
    | .enumeration e => e.declaredNames

/-- The number of bytes that a text takes. -/
def byteLength (text : List Char) : Nat :=
  text.foldl (fun n c => n + c.utf8Size) 0

/-- The ways in which a name can be introduced in a file: what stands between it and a quote. -/
def nameOpenings : List String :=
  ["name = \"", "\"name\": \"", "\""]

/-- Where a quoted name first stands after a given opening. -/
def spanAfter? (text name opening : List Char) : Option Span :=
  (Text.splitOnce? (opening ++ name ++ ['"']) text).map fun (before, _) =>
    { start := byteLength before + byteLength opening, length := byteLength name }

/-- Where a name seems to be declared in a file. -/
def nameSpan? (text name : String) : Option Span :=
  nameOpenings.findSome? fun opening => spanAfter? text.toList name.toList opening.toList

/-- The error for the first declared name that is not allowed. -/
def nameError? (text : String) (m : Model) : Option ModelError :=
  m.declaredNames.findSome? fun d =>
    (nameFault? d.name).map fun fault => .badName d.name d.role fault (nameSpan? text d.name)

/-! ## Loading -/

/-- The model that a text holds; the path serves for messages. -/
def Model.parse (format : Format) (path text : String) : Except ModelError Model :=
  match (format.read text).bind Model.ofValue? with
  | none => .error (.malformed format path)
  | some m =>
    match nameError? text m with
    | some e => .error e
    | none => .ok m

/-- The text of a file. -/
def readFile (fs : FileSystem) (path : String) : Except ModelError String :=
  match fs.read path with
  | .ok text => .ok text
  | .error cause => .error (.unreadable path cause)

/-- Load a model file. -/
def Model.load (fs : FileSystem) (path : String) : Except ModelError Model := do
  let format ← Format.ofPath path
  let text ← readFile fs path
  Model.parse format path text

end Domain
end ContractGen
