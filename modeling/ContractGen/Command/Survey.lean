import ContractGen.Command.Program
import ContractGen.Files.Listing

/-!
# Surveying a disk

A run needs to know only a part of a disk. The part is found in rounds: what is known so far tells
which paths the run would look at next, and what is found there is added. When a round asks for
nothing new, the known part answers the run as the whole disk would. What the run changed is then
the difference between the two disks.
-/

namespace ContractGen
namespace Files

/-- What is found at a path. -/
inductive Finding
  | nothing
  | folder
  | file (content : ByteArray)

namespace Disk

/-- Add what was found at a path whose folder is known. -/
def learn (d : Disk) (path : String) : Finding → Disk
  | .nothing => d
  | .folder => (d.settle (d.ensureFolder path)).1
  | .file content => (d.settle (d.writeBytes path content)).1

/-- The disk of which only the folder where relative paths start is known. -/
def startingAt (here : List String) : Disk :=
  { root := here.foldr (fun name node => .folder [(name, node)]) (.folder []), here }

/-- The paths on the way to a path, and the path itself. -/
def waypoints (path : String) : List String :=
  let pieces := Path.pieces path.toList
  (List.range pieces.length).map fun i =>
    String.ofList (Path.ofPieces (pieces.take (i + 1)))

/-- Whether looking at a path can tell anything: its folder is known, and it has a name. -/
def isOpen (d : Disk) (path : String) : Bool :=
  match d.target path with
  | .ok (_, some _) => true
  | _ => false

/-- The folders and files of a disk that an earlier one does not have. -/
def changes (before after : Disk) : List ListingItem :=
  let known := before.root.listing ""
  (after.root.listing "").filter fun item => !known.contains item

end Disk
end Files

namespace Domain

/-- The path of the file that could not be read. -/
def ModelError.unreadPath? : ModelError → Option String
  | unreadable path _ => some path
  | badImport _ _ cause => cause.unreadPath?
  | _ => none

/-- The paths of the state diagrams of a model. -/
def ModelSource.diagrams (s : ModelSource) : List String :=
  s.model.types.filterMap fun
    | .struct t => (Lowering.diagram? t).map (Path.join s.folder)
    | .enumeration _ => none

end Domain

namespace Command

open Domain Files

/-- The paths in the output folder of the files that a contract may have. -/
def artifactPaths (c : Configuration) (sources : List ModelSource) : List String :=
  sources.flatMap fun s => s.model.types.flatMap fun t =>
    ArtifactRole.all.map fun role => role.pathIn c.output t.name

/-- The paths that laying out the contracts of some models would change. -/
def outputPaths (d : Disk) (c : Configuration) (sources : List ModelSource) : List String :=
  (d.changes (Command.generate d sources c false).1).map Prod.fst

/-- The paths that a run looks at, as far as a disk tells. -/
def consulted (d : Disk) (arguments : List String) : List String :=
  match readInvocation {} arguments with
  | .error _ => []
  | .ok invocation =>
    let (model, config, _) := invocation.request.inputs
    config.getD (Path.join "." Configuration.fileName) :: model ::
      match invocation.request.load d with
      | .error e => e.unreadPath?.toList
      | .ok (c, sources) =>
        c.output :: sources.flatMap ModelSource.diagrams ++ artifactPaths c sources ++
          outputPaths d c sources

end Command
end ContractGen
