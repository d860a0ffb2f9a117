import ContractGen.Domain.Identifier
import ContractGen.Files.Disk

/-!
# What can be wrong with a model file

The causes for which a model or a configuration cannot be loaded, and how they are told to the
user: a message, a code and, for most, advice.
-/

namespace ContractGen
namespace Domain

/-- The formats of model files. -/
inductive Format
  | toml
  | json
deriving DecidableEq, Repr, Inhabited

/-- What a declared name stands for. -/
inductive NameRole
  | struct
  | field
  | operation
  | parameter
  | enumeration
  | enumerationValue
deriving DecidableEq, Repr, Inhabited

/-- The role in words. -/
def NameRole.text : NameRole → String
  | struct => "structure"
  | field => "field"
  | operation => "operation"
  | parameter => "parameter"
  | enumeration => "enumeration"
  | enumerationValue => "enumeration value"

/-- A part of a file: where it starts and how long it is, in bytes. -/
structure Span where
  start : Nat
  length : Nat
deriving DecidableEq, Repr, Inhabited

/-- Why a model or configuration file cannot be loaded. -/
inductive ModelError
  /-- The file cannot be read. -/
  | unreadable (path : String) (cause : Files.FileError)
  /-- The extension names no format; it is kept as written. -/
  | unsupportedFormat (path extension : String)
  /-- The text is not well formed or does not have the required shape. -/
  | malformed (format : Format) (path : String)
  /-- A file that another one imports cannot be loaded. -/
  | badImport (importer path : String) (cause : ModelError)
  /-- A declared name is not allowed. -/
  | badName (name : String) (role : NameRole) (fault : NameFault) (span : Option Span)
deriving DecidableEq, Repr, Inhabited

namespace ModelError

/-- The message for the user. -/
def message : ModelError → String
  | unreadable path _ => "failed to read '" ++ path ++ "'"
  | unsupportedFormat _ extension => "unsupported model format '" ++ extension ++ "'"
  | malformed _ path => "failed to parse " ++ path
  | badImport importer path _ => "failed to resolve import '" ++ path ++ "' of '" ++ importer ++ "'"
  | badName name role _ _ => "invalid " ++ role.text ++ " name '" ++ name ++ "'"

/-- The name of the kind of error. -/
def kind : ModelError → String
  | unreadable _ _ => "Io"
  | unsupportedFormat _ _ => "UnsupportedFormat"
  | malformed .toml _ => "ParseToml"
  | malformed .json _ => "ParseJson"
  | badImport _ _ _ => "Import"
  | badName _ _ _ _ => "InvalidIdentifier"

/-- The code under which the error is documented. -/
def code : ModelError → String
  | unreadable _ _ => "solgen::io"
  | unsupportedFormat _ _ => "solgen::unsupported_format"
  | malformed _ _ => "solgen::parse_error"
  | badImport _ _ _ => "solgen::import"
  | badName _ _ _ _ => "solgen::invalid_identifier"

/-- Advice for the user. -/
def help? : ModelError → Option String
  | unreadable _ _ => some "check that the path exists and is readable"
  | unsupportedFormat _ _ => some "model files must end in .toml or .json"
  | malformed _ _ => none
  | badImport _ _ _ => some "imports are resolved relative to the file that declares them"
  | badName _ _ fault _ =>
    some (fault.reason ++ ". Use only letters, numbers, and underscores, starting with a letter " ++
      "or underscore.")

end ModelError
end Domain
end ContractGen
