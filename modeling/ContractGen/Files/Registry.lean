import ContractGen.Failure
import ContractGen.Files.Artifact
import ContractGen.Files.Disk

/-!
# Files to be written

A serializer describes the files it wants as entries. A registry collects entries and writes them:
generated files first, then the files of the user, each group in the order of registration. An
entry is either always written or only if nothing is there yet.
-/

namespace ContractGen
namespace Files

/-- What to do about a file that already exists. -/
inductive Overwrite
  /-- Replace it. -/
  | always
  /-- Leave it alone. -/
  | ifMissing
deriving DecidableEq, Repr, Inhabited

/-- The identifier of a rule. -/
def Overwrite.key : Overwrite → String
  | always => "always"
  | ifMissing => "if_missing"

/-- The rule with a given identifier. -/
def Overwrite.ofKey? (key : String) : Option Overwrite :=
  [always, ifMissing].find? fun rule => rule.key = key

/-- What became of a file. -/
inductive WriteResult
  | written
  | skipped
deriving DecidableEq, Repr, Inhabited

/-- The word for what became of a file. -/
def WriteResult.key : WriteResult → String
  | written => "written"
  | skipped => "skipped"

/-- Write a file according to a rule. -/
def Overwrite.apply (rule : Overwrite) (d : Disk) (path content : String) :
    Disk.After WriteResult :=
  if rule = .ifMissing && d.holds path then
    (d, .ok .skipped)
  else
    match d.write path content with
    | (d', .ok ()) => (d', .ok .written)
    | (d', .error e) => (d', .error e)

/-- Who owns a file once it is on disk. -/
inductive Category
  /-- Written anew on every run. -/
  | generated
  /-- Created once and then left to the user. -/
  | user
deriving DecidableEq, Repr, Inhabited

/-- The identifier of a category. -/
def Category.key : Category → String
  | generated => "generated"
  | user => "user"

/-- The rule for the files of a category. -/
def Category.defaultOverwrite : Category → Overwrite
  | generated => .always
  | user => .ifMissing

/-- A file to be produced, with a path relative to the output folder. -/
structure Entry where
  path : String
  content : String
  category : Category
  /-- The role in the layout of a contract, if the file has one. -/
  role : Option ArtifactRole := none
  /-- A rule that replaces the one of the category. -/
  rule : Option Overwrite := none
deriving DecidableEq, Repr, Inhabited

namespace Entry

/-- A generated file. -/
def generated (path content : String) : Entry :=
  { path, content, category := .generated }

/-- A file of the user. -/
def user (path content : String) : Entry :=
  { path, content, category := .user }

/-- The file for a role of a contract. -/
def artifact (role : ArtifactRole) (contract content : String) : Entry :=
  { path := role.fileName contract
    content
    category := if role.isUserOwned then .user else .generated
    role := some role }

/-- The rule by which the file is written. -/
def overwrite (e : Entry) : Overwrite :=
  e.rule.getD e.category.defaultOverwrite

/-- The path of the file in the output folder. -/
def fullPath (e : Entry) (folder : String) : String :=
  Path.join folder e.path

/-- Write the file into the output folder. -/
def write (e : Entry) (folder : String) (d : Disk) : Disk.After WriteResult :=
  e.overwrite.apply d (e.fullPath folder) e.content

end Entry

/-- Entries in the order of registration. -/
structure Registry where
  entries : List Entry := []
deriving DecidableEq, Inhabited

/-- What became of the files of a registry. -/
structure WriteStats where
  written : List String := []
  /-- Files that were left alone because they already existed. -/
  skipped : List String := []
deriving DecidableEq, Repr, Inhabited

namespace WriteStats

/-- How many files were handled. -/
def total (s : WriteStats) : Nat :=
  s.written.length + s.skipped.length

/-- Two statistics in one. -/
def merge (a b : WriteStats) : WriteStats :=
  { written := a.written ++ b.written, skipped := a.skipped ++ b.skipped }

/-- Add one file. -/
def add (s : WriteStats) (path : String) : WriteResult → WriteStats
  | .written => { s with written := s.written ++ [path] }
  | .skipped => { s with skipped := s.skipped ++ [path] }

end WriteStats

/-- A file that could not be written. -/
structure WriteFailure where
  path : String
  cause : FileError
deriving DecidableEq, Repr

/-- The failure in words. -/
def WriteFailure.toFailure (f : WriteFailure) : Failure :=
  (Failure.because f.cause.message).within ("Failed to write " ++ f.path)

/-- Write entries one after the other; the first failure ends the run. -/
def writeEntries (folder : String) (d : Disk) (stats : WriteStats) :
    List Entry → Disk × Except WriteFailure WriteStats
  | [] => (d, .ok stats)
  | e :: es =>
    match e.write folder d with
    | (d', .ok result) => writeEntries folder d' (stats.add e.path result) es
    | (d', .error cause) => (d', .error ⟨e.fullPath folder, cause⟩)

namespace Registry

/-- The entries in writing order: generated files first. -/
def ordered (r : Registry) : List Entry :=
  r.entries.filter (fun e => e.category = .generated) ++
    r.entries.filter (fun e => e.category = .user)

/-- Add entries at the end. -/
def register (r : Registry) (es : List Entry) : Registry :=
  { entries := r.entries ++ es }

/-- Write every entry into a folder. -/
def writeAll (r : Registry) (folder : String) (d : Disk) : Disk × Except WriteFailure WriteStats :=
  writeEntries folder d {} r.ordered

end Registry
end Files
end ContractGen
