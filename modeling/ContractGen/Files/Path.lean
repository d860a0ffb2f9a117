import ContractGen.Text.Blank

/-!
# Paths

A path is a text of names separated by slashes. It is kept as it was written: joining adds only
the separator that is missing, and taking the parent cuts the last name off without changing what
is in front of it.
-/

namespace ContractGen
namespace Path

/-- Whether a path starts at the root. -/
def isAbsolute (path : String) : Bool :=
  path.toList.head? = some '/'

/-- A path seen from a folder. An absolute path stays as it is. -/
def join (folder path : String) : String :=
  if isAbsolute path then
    path
  else if folder.isEmpty ∨ folder.toList.getLast? = some '/' then
    folder ++ path
  else
    folder ++ "/" ++ path

/-- The texts between the slashes of a path. -/
def pieces (path : List Char) : List (List Char) :=
  Text.splitAt '/' path

/-- Whether a piece names nothing. -/
def isIdle (piece : List Char) : Bool :=
  piece = [] || piece = ['.']

/-- The mark in front of the names: the root, the current folder, or nothing. -/
def splitHead : List Char → List Char × List Char
  | '/' :: rest => (['/'], rest)
  | ['.'] => (['.'], [])
  | '.' :: '/' :: rest => (['.'], '/' :: rest)
  | path => ([], path)

/-- Drop the pieces at the end that name nothing. -/
def dropIdleEnd (ps : List (List Char)) : List (List Char) :=
  (ps.reverse.dropWhile isIdle).reverse

/-- The pieces of a path after its mark, without idle ones at the end. -/
def body (path : String) : List (List Char) :=
  dropIdleEnd (pieces (splitHead path.toList).2)

/-- Pieces joined by slashes. -/
def ofPieces : List (List Char) → List Char
  | [] => []
  | [p] => p
  | p :: ps => p ++ '/' :: ofPieces ps

/-- The folder that a path lies in. The root and the empty path lie in none. -/
def parent? (path : String) : Option String :=
  let mark := (splitHead path.toList).1
  match body path with
  | [] => if mark = ['.'] then some "" else none
  | ps => some (String.ofList (mark ++ ofPieces (dropIdleEnd ps.dropLast)))

/-- The last name of a path, if it has one. -/
def fileName? (path : String) : Option String :=
  match (body path).getLast? with
  | none => none
  | some name => if name = ['.', '.'] then none else some (String.ofList name)

/-- A name before and after its last dot; a dot at the front does not count. -/
def splitExtension (name : List Char) : List Char × Option (List Char) :=
  let extension := (name.reverse.takeWhile (· ≠ '.')).reverse
  let stem := name.take (name.length - extension.length - 1)
  if stem.isEmpty then (name, none) else (stem, some extension)

/-- The last name of a path without its extension. -/
def stem? (path : String) : Option String :=
  (fileName? path).map fun name => String.ofList (splitExtension name.toList).1

/-- The extension of the last name of a path. -/
def extension? (path : String) : Option String :=
  (fileName? path).bind fun name => (splitExtension name.toList).2.map String.ofList

end Path
end ContractGen
