import ContractGen.Files.Disk

/-!
# Listing a folder

Everything in a folder, depth first, the entries of each folder in the order of their names. The
content of a file is shown as text; a sequence of bytes that is no character is shown as the
replacement character.
-/

namespace ContractGen
namespace Files

/-! ## Bytes as text -/

/-- The character that stands for bytes that are none. -/
def replacement : Char := '\uFFFD'

/-- Whether a byte continues a character. -/
def isContinuation (b : Nat) : Bool :=
  0x80 ≤ b && b < 0xc0

/-- How many bytes follow the first one of a character, and the bounds of the second byte. -/
def expectedBytes? (first : Nat) : Option (Nat × Nat × Nat) :=
  if 0xc2 ≤ first ∧ first ≤ 0xdf then some (1, 0x80, 0xbf)
  else if first = 0xe0 then some (2, 0xa0, 0xbf)
  else if first = 0xed then some (2, 0x80, 0x9f)
  else if 0xe1 ≤ first ∧ first ≤ 0xef then some (2, 0x80, 0xbf)
  else if first = 0xf0 then some (3, 0x90, 0xbf)
  else if first = 0xf4 then some (3, 0x80, 0x8f)
  else if 0xf1 ≤ first ∧ first ≤ 0xf3 then some (3, 0x80, 0xbf)
  else none

/-- The number that the bytes of a character stand for. -/
def codePoint (first : Nat) (following : List Nat) : Nat :=
  let payload := if first < 0xe0 then first % 0x20 else if first < 0xf0 then first % 0x10
    else first % 0x08
  following.foldl (fun n b => n * 0x40 + b % 0x40) payload

/-- The character that starts with a byte, and how many of the next bytes belong to it. -/
def frontChar (first : Nat) (rest : List Nat) : Char × Nat :=
  if first < 0x80 then
    (Char.ofNat first, 0)
  else
    match expectedBytes? first, rest with
    | some (n, low, high), second :: more =>
      if low ≤ second ∧ second ≤ high then
        let following := second :: (more.take (n - 1)).takeWhile isContinuation
        if following.length = n then
          (Char.ofNat (codePoint first following), n)
        else
          (replacement, following.length)
      else
        (replacement, 0)
    | _, _ => (replacement, 0)

/-- The characters of some bytes. -/
def lossyChars : List Nat → List Char
  | [] => []
  | first :: rest =>
    let front := frontChar first rest
    front.1 :: lossyChars (rest.drop front.2)
termination_by bytes => bytes.length
decreasing_by
  simp only [List.length_drop, List.length_cons]
  omega

/-- The text of some bytes. -/
def lossyText (bytes : ByteArray) : String :=
  String.ofList (lossyChars (bytes.toList.map UInt8.toNat))

/-! ## Folders -/

/-- Put a named item into a list that is sorted by names. -/
def insertSorted {α : Type} (e : String × α) : List (String × α) → List (String × α)
  | [] => [e]
  | x :: xs => if e.1 ≤ x.1 then e :: x :: xs else x :: insertSorted e xs

/-- An item of a listing: a path and, for a file, its content. -/
abbrev ListingItem : Type := String × Option ByteArray

mutual

/-- The items of a node with a given path. -/
def Node.listing (path : String) : Node → List ListingItem
  | .file content => [(path, some content)]
  | .folder entries => (path ++ "/", none) :: Node.entriesListing (path ++ "/") entries

/-- The items of the entries of a folder; paths start as given. -/
def Node.entriesListing (start : String) (entries : List (String × Node)) : List ListingItem :=
  (Node.namedListings start entries).flatMap Prod.snd

/-- The items of each entry of a folder, sorted by the names of the entries. -/
def Node.namedListings (start : String) :
    List (String × Node) → List (String × List ListingItem)
  | [] => []
  | (name, node) :: rest =>
    insertSorted (name, node.listing (start ++ name)) (Node.namedListings start rest)

end

/-- Everything in the current folder. -/
def Disk.listing (d : Disk) : List ListingItem :=
  match d.node? d.here with
  | some (.folder entries) => Node.entriesListing "" entries
  | _ => []

end Files
end ContractGen
