import ContractGen.Files.Places

/-!
# File systems

To find the files that belong together, it has to be known when two paths lead to the same file, and
what text is read by a path. A file system answers these two questions; how it does is left open.
Paths with different names may lead to one place, as they do where there are links, and a path that
leads to a file need not be good for reading it. A disk is a file system without links.
-/

namespace ContractGen
namespace Files

/-- Where paths lead to, and what is read by them, as long as nothing changes. -/
structure FileSystem where
  /-- The place that a path leads to. -/
  canonicalize : String → Except FileError Place
  /-- The text that is read by a path. -/
  read : String → Except FileError String
  /-- The places that there are. -/
  places : List Place
  mem_places {path : String} {place : Place} : canonicalize path = .ok place → place ∈ places

/-- A disk as a file system. -/
def Disk.fileSystem (d : Disk) : FileSystem where
  canonicalize := d.canonicalize
  read := d.read
  places := d.places
  mem_places := Disk.mem_places_of_canonicalize

@[simp] theorem Disk.fileSystem_canonicalize
    (d : Disk)
    (path : String) :
    d.fileSystem.canonicalize path = d.canonicalize path := by
  rfl

instance : Coe Disk FileSystem := ⟨Disk.fileSystem⟩

end Files
end ContractGen
