import ContractGen.Files.Path

/-!
# Folders and files

A disk is a tree of folders and files, together with the folder in which relative paths start.
Reading and writing are functions on this tree. A path is followed name by name: every name before
the last must be a folder, two dots go back to the folder above, and a path that ends in a slash
must be a folder. Names and paths are bounded in length, and a path must not hold a zero. There are
no links on a disk, so a file has one place and one name.
-/

namespace ContractGen
namespace Files

/-- A file with its bytes, or a folder with its entries. -/
inductive Node
  | file (content : ByteArray)
  | folder (entries : List (String × Node))

instance : Inhabited Node := ⟨.folder []⟩

/-- Why a file operation fails. -/
inductive FileError
  | notFound
  | notADirectory
  | isADirectory
  | alreadyExists
  | invalidText
  | nameTooLong
  /-- The path holds a zero character. -/
  | zeroInPath
deriving DecidableEq, Repr, Inhabited

namespace FileError

/-- The message of the operating system. -/
def message : FileError → String
  | notFound => "No such file or directory (os error 2)"
  | notADirectory => "Not a directory (os error 20)"
  | isADirectory => "Is a directory (os error 21)"
  | alreadyExists => "File exists (os error 17)"
  | invalidText => "stream did not contain valid UTF-8"
  | nameTooLong => "File name too long (os error 36)"
  | zeroInPath => "file name contained an unexpected NUL byte"

/-- The name of the kind of failure. -/
def kind : FileError → String
  | notFound => "NotFound"
  | notADirectory => "NotADirectory"
  | isADirectory => "IsADirectory"
  | alreadyExists => "AlreadyExists"
  | invalidText => "InvalidData"
  | nameTooLong => "InvalidFilename"
  | zeroInPath => "InvalidInput"

end FileError

namespace Node

/-- Whether a node is a folder. -/
def isFolder : Node → Bool
  | folder _ => true
  | file _ => false

/-- The entry of a list with a given name. -/
def lookup? (name : String) (entries : List (String × Node)) : Option Node :=
  (entries.find? fun e => e.1 = name).map Prod.snd

/-- Replace the entry with a given name, or add one at the end. -/
def insert (name : String) (node : Node) : List (String × Node) → List (String × Node)
  | [] => [(name, node)]
  | e :: entries => if e.1 = name then (name, node) :: entries else e :: insert name node entries

/-- Remove the entry with a given name. -/
def erase (name : String) (entries : List (String × Node)) : List (String × Node) :=
  entries.filter fun e => e.1 ≠ name

/-- The node at a place below another. -/
def at? : List String → Node → Option Node
  | [], node => some node
  | name :: names, folder entries => (lookup? name entries).bind (at? names)
  | _ :: _, file _ => none

/-- Change the node at a place; nothing happens if a folder on the way is missing. -/
def modifyAt (f : Option Node → Option Node) : List String → Node → Node
  | [], node => (f (some node)).getD node
  | [name], folder entries =>
    match f (lookup? name entries) with
    | some node => folder (insert name node entries)
    | none => folder (erase name entries)
  | name :: names, folder entries =>
    match lookup? name entries with
    | some node => folder (insert name (modifyAt f names node) entries)
    | none => folder entries
  | _ :: _, file content => file content

end Node

/-- A tree of folders, and the folder in which relative paths start. -/
structure Disk where
  root : Node := .folder []
  /-- The names that lead from the root to the current folder. -/
  here : List String := []

/-- The names of a place, outermost first. -/
abbrev Place : Type := List String

namespace Disk

/-- The node at a place. -/
def node? (d : Disk) (place : Place) : Option Node :=
  d.root.at? place

/-- How many bytes a name may have. -/
def longestName : Nat := 255

/-- How many bytes a path may have. -/
def longestPath : Nat := 4095

/-- Whether a name has too many bytes. -/
def isTooLong (name : String) : Bool :=
  longestName < name.utf8ByteSize

/-- What is wrong with the text of a path, however long it is. -/
def textFault? (path : String) : Option FileError :=
  if path.toList.any (·.toNat = 0) then some .zeroInPath
  else if path.isEmpty then some .notFound
  else none

/-- What is wrong with a path before it is followed. -/
def pathFault? (path : String) : Option FileError :=
  match textFault? path with
  | some e => some e
  | none => if longestPath < path.utf8ByteSize then some .nameTooLong else none

/-- Go from an existing place along the pieces of a path. -/
def follow (d : Disk) (place : Place) : List (List Char) → Except FileError Place
  | [] => .ok place
  | piece :: rest =>
    match d.node? place with
    | none => .error .notFound
    | some (.file _) => .error .notADirectory
    | some (.folder entries) =>
      if Path.isIdle piece then
        d.follow place rest
      else if piece = ['.', '.'] then
        d.follow place.dropLast rest
      else if isTooLong (String.ofList piece) then
        .error .nameTooLong
      else if (Node.lookup? (String.ofList piece) entries).isSome then
        d.follow (place ++ [String.ofList piece]) rest
      else
        .error .notFound

/-- The place where a path starts, and its pieces. -/
def start (d : Disk) (path : String) : Place × List (List Char) :=
  match path.toList with
  | '/' :: rest => ([], Path.pieces rest)
  | chars => (d.here, Path.pieces chars)

/-- The place that a path names. -/
def locate (d : Disk) (path : String) : Except FileError Place :=
  match pathFault? path with
  | some e => .error e
  | none =>
    let (place, pieces) := d.start path
    d.follow place pieces

/--
The place that a path leads to when its names are resolved one after the other. Only the names are
bounded in length then: a path that is too long to be opened still leads somewhere.
-/
def canonicalize (d : Disk) (path : String) : Except FileError Place :=
  match textFault? path with
  | some e => .error e
  | none =>
    let (place, pieces) := d.start path
    d.follow place pieces

/-- The node that a path names. -/
def find (d : Disk) (path : String) : Except FileError Node := do
  let place ← d.locate path
  match d.node? place with
  | some node => .ok node
  | none => .error .notFound

/-- Whether a path names something. -/
def holds (d : Disk) (path : String) : Bool :=
  match d.find path with
  | .ok _ => true
  | .error _ => false

/-- Whether a path names a file. -/
def isFile (d : Disk) (path : String) : Bool :=
  match d.find path with
  | .ok (.file _) => true
  | _ => false

/-- Whether a path names a folder. -/
def isFolder (d : Disk) (path : String) : Bool :=
  match d.find path with
  | .ok (.folder _) => true
  | _ => false

/-- The bytes of a file. -/
def readBytes (d : Disk) (path : String) : Except FileError ByteArray := do
  match ← d.find path with
  | .file content => .ok content
  | .folder _ => .error .isADirectory

/-- The text of a file. -/
def read (d : Disk) (path : String) : Except FileError String := do
  let bytes ← d.readBytes path
  match String.fromUTF8? bytes with
  | some text => .ok text
  | none => .error .invalidText

/--
The place that a path names or would name: the place of its folder, and its last name. There is no
last name if the path ends in dots.
-/
def target (d : Disk) (path : String) : Except FileError (Place × Option String) :=
  match pathFault? path with
  | some e => .error e
  | none => do
    let (place, pieces) := d.start path
    let pieces := (pieces.reverse.dropWhile (· = [])).reverse
    match pieces.getLast? with
    | none => .ok (place, none)
    | some last => do
      let folder ← d.follow place pieces.dropLast
      match d.node? folder with
      | none => .error .notFound
      | some (.file _) => .error .notADirectory
      | some (.folder _) =>
        if last = ['.'] ∨ last = ['.', '.'] then
          .ok (folder, none)
        else
          .ok (folder, some (String.ofList last))

/-- Put a node at a place. -/
def put (d : Disk) (place : Place) (node : Node) : Disk :=
  { d with root := d.root.modifyAt (fun _ => some node) place }

/-- Write a file whose folder exists, creating or replacing it. -/
def writeBytes (d : Disk) (path : String) (content : ByteArray) : Except FileError Disk := do
  let (folder, name) ← d.target path
  match name with
  | none => .error .isADirectory
  | some name =>
    let place := folder ++ [name]
    if path.toList.getLast? = some '/' then
      .error .isADirectory
    else if isTooLong name then
      .error .nameTooLong
    else
      match d.node? place with
      | some (.folder _) => .error .isADirectory
      | _ => .ok (d.put place (.file content))

/-- Create one folder. -/
def makeFolder (d : Disk) (path : String) : Except FileError Disk := do
  let (folder, name) ← d.target path
  match name with
  | none => .error .alreadyExists
  | some name =>
    let place := folder ++ [name]
    if isTooLong name then .error .nameTooLong
    else if (d.node? place).isSome then .error .alreadyExists
    else .ok (d.put place (.folder []))

/-- Create a folder, unless it exists. -/
def ensureFolder (d : Disk) (path : String) : Except FileError Disk :=
  match d.makeFolder path with
  | .ok d' => .ok d'
  | .error e => if d.isFolder path then .ok d else .error e

/-- The disk after an operation, and whether the operation succeeded. -/
abbrev After (α : Type) : Type := Disk × Except FileError α

/-- The disk after an operation that changes nothing when it fails. -/
def settle (d : Disk) : Except FileError Disk → After Unit
  | .ok d' => (d', .ok ())
  | .error e => (d, .error e)

/--
Create a folder after the folders that it lies in; `fuel` bounds how many those are. Folders that
were created stay even if a later step fails.
-/
def makeFoldersWithin (d : Disk) (path : String) : (fuel : Nat) → After Unit
  | 0 => (d, .error .notFound)
  | fuel + 1 =>
    if path.isEmpty then
      (d, .ok ())
    else
      match d.ensureFolder path with
      | .ok d' => (d', .ok ())
      | .error .notFound =>
        match Path.parent? path with
        | none => (d, .error .notFound)
        | some parent =>
          match d.makeFoldersWithin parent fuel with
          | (d', .ok ()) => d'.settle (d'.ensureFolder path)
          | (d', .error e) => (d', .error e)
      | .error e => (d, .error e)

/-- Create a folder and all folders that it lies in. A parent is a shorter path. -/
def makeFolders (d : Disk) (path : String) : After Unit :=
  d.makeFoldersWithin path (path.length + 1)

/-- Write bytes to a file, creating the folders that it lies in. -/
def writeWithFolders (d : Disk) (path : String) (content : ByteArray) : After Unit :=
  let (d', made) :=
    match Path.parent? path with
    | some parent => d.makeFolders parent
    | none => (d, .ok ())
  match made with
  | .ok () => d'.settle (d'.writeBytes path content)
  | .error e => (d', .error e)

/-- Write a text file, creating the folders that it lies in. -/
def write (d : Disk) (path content : String) : After Unit :=
  d.writeWithFolders path content.toUTF8

/-- Remove a file or a folder with all that is in it. -/
def remove (d : Disk) (path : String) : Except FileError Disk := do
  let place ← d.locate path
  if place.isEmpty then
    .error .isADirectory
  else
    .ok { d with root := d.root.modifyAt (fun _ => none) place }

end Disk
end Files
end ContractGen
