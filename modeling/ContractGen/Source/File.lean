import ContractGen.Failure
import ContractGen.Files.Disk
import ContractGen.Source.Declarations

/-!
# Reading source files

A unit that is read from a file is named after it.
-/

namespace ContractGen
namespace Source

open Files Target

/-- The name of the unit in a file: the last name of its path, without the extension. -/
def unitName (path : String) : String :=
  (Path.stem? path).getD path

/-- Read a source file. -/
def parseFile (d : Disk) (path : String) : Except Failure SourceUnit :=
  match d.read path with
  | .error e => .error ((Failure.because e.message).within ("Failed to read " ++ path))
  | .ok text =>
    match parse (unitName path) text with
    | .error e => .error ((Failure.because e.message).within ("Failed to parse " ++ path))
    | .ok unit => .ok unit

end Source
end ContractGen
