import ContractGen.Data.Record

/-!
# Tables under construction

A TOML file defines its tables piece by piece: by headers, by dotted keys and by headers of table
arrays. Each table remembers how it came about, since that decides what may still be added to it.
A finished table lists its entries sorted by key.
-/

namespace ContractGen
namespace Data
namespace Toml

mutual

/-- What a key of a table stands for. -/
inductive Item
  /-- A value that cannot be extended any more. -/
  | value (v : Value)
  | table (t : Table)
  /-- An array of tables, in order. -/
  | tables (ts : List Table)

/-- A table under construction. -/
structure Table where
  /-- Whether the table was only mentioned on the way to another, and never defined itself. -/
  implicit : Bool := false
  /-- Whether the table was made by a dotted key. -/
  dotted : Bool := false
  entries : List (String × Item) := []

end

instance : Inhabited Table := ⟨{}⟩

namespace Table

/-- What a key stands for. -/
def get? (t : Table) (key : String) : Option Item :=
  (t.entries.find? fun e => e.1 = key).map Prod.snd

/-- Replace what a key stands for, or add the key. -/
def setEntry (key : String) (item : Item) : List (String × Item) → List (String × Item)
  | [] => [(key, item)]
  | e :: es => if e.1 = key then (key, item) :: es else e :: setEntry key item es

/-- The table with a key standing for something. -/
def set (t : Table) (key : String) (item : Item) : Table :=
  { t with entries := setEntry key item t.entries }

/--
Change the table at the end of a path, making the tables on the way. A path goes on in the last
table of an array. Dotted keys must not go through a table that was defined by a header.
-/
def descend (dotted : Bool) (change : Table → Option Table) : List String → Table → Option Table
  | [], t => change t
  | key :: path, t =>
    match t.get? key with
    | none => do
      let child ← descend dotted change path { implicit := true, dotted }
      some (t.set key (.table child))
    | some (.value _) => none
    | some (.tables ts) => do
      let last ← ts.getLast?
      let child ← descend dotted change path last
      some (t.set key (.tables (ts.dropLast ++ [child])))
    | some (.table child) =>
      if dotted && !child.implicit then
        none
      else do
        let child ← descend dotted change path child
        some (t.set key (.table child))

/-- Add a value under a key that is not in use. -/
def addLeaf (isDotted : Bool) (key : String) (v : Value) (t : Table) : Option Table :=
  if t.dotted != isDotted ∨ (t.get? key).isSome then none else some (t.set key (.value v))

/-- Add a value under a dotted key, below the table of a header. -/
def addValue (header path : List String) (key : String) (v : Value) (root : Table) : Option Table :=
  descend false (descend true (addLeaf (!path.isEmpty) key v) path) header root

/-- Start the table of a header. -/
def openTable (path : List String) (key : String) (root : Table) : Option Table :=
  descend false (fun t =>
    match t.get? key with
    | none => some (t.set key (.table {}))
    | some (.table child) =>
      if child.implicit && !child.dotted then
        some (t.set key (.table { child with implicit := false }))
      else
        none
    | some _ => none) path root

/-- Start one more table of an array. -/
def openArrayTable (path : List String) (key : String) (root : Table) : Option Table :=
  descend false (fun t =>
    match t.get? key with
    | none => some (t.set key (.tables [{}]))
    | some (.tables ts) => some (t.set key (.tables (ts ++ [{}])))
    | some _ => none) path root

end Table

/-- Add an entry to entries that are sorted by key. -/
def insertSorted (key : String) (v : Value) : List (String × Value) → List (String × Value)
  | [] => [(key, v)]
  | e :: es => if key < e.1 then (key, v) :: e :: es else e :: insertSorted key v es

mutual

/-- The value of an item. -/
def Item.toValue : Item → Value
  | .value v => v
  | .table t => t.toValue
  | .tables ts => .list (Table.listToValues ts)

/-- The value of a table. -/
def Table.toValue : Table → Value
  | { entries, .. } => .record (Table.entriesToValues entries)

/-- The values of tables. -/
def Table.listToValues : List Table → List Value
  | [] => []
  | t :: ts => t.toValue :: Table.listToValues ts

/-- The values of entries, sorted by key. -/
def Table.entriesToValues : List (String × Item) → List (String × Value)
  | [] => []
  | (key, item) :: es => insertSorted key item.toValue (Table.entriesToValues es)

end

end Toml
end Data
end ContractGen
