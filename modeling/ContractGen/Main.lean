import ContractGen.Command.Survey

/-!
# The command line

Finds out what a run needs to know of the disk, runs the program, and carries out what it changed.
-/

namespace ContractGen

open Files

/-- Look at a path. -/
def look (path : String) : IO Finding := do
  try
    return .file (← IO.FS.readBinFile path)
  catch
    | .inappropriateType .. => return .folder
    | _ => return .nothing

/-- Look at paths that were not looked at before, until a run asks for no more of them. -/
partial def survey (arguments : List String) (d : Disk) (seen : List String) : IO Disk := do
  let paths := (Command.consulted d arguments).flatMap Disk.waypoints
  match paths.filter (· ∉ seen) with
  | [] => return d
  | new =>
    let d' ← new.foldlM (fun d path => do
      if d.isOpen path then return d.learn path (← look path) else return d) d
    survey arguments d' (new ++ seen)

/-- Carry out a change. -/
def carryOut : ListingItem → IO Unit
  | (path, none) => IO.FS.createDirAll path
  | (path, some content) => IO.FS.writeBinFile path content

end ContractGen

open ContractGen in
/-- Run the program on the arguments given. -/
def main (arguments : List String) : IO UInt32 := do
  let here := (toString (← IO.currentDir)).splitOn "/" |>.filter (· ≠ "")
  let d ← survey arguments (.startingAt here) []
  let (d', outcome) := Command.run d arguments
  (d.changes d').forM carryOut
  IO.print outcome.output
  IO.eprint outcome.errors
  return outcome.exitCode.toUInt32
