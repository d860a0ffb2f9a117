import ContractGen.Files.Registry
import ContractGen.Proofs.Disk

/-!
# What writing a registry changes

Writing one entry either skips it, because something is there already, or writes a file at its
destination. A run writes entries one after the other, so a file that exists beforehand ends up with
the bytes of the last entry that replaces it, and keeps its own bytes if there is none.
-/

namespace ContractGen
namespace Files

/-- What writing one entry comes to. -/
theorem Entry.write_cases
    {e : Entry} {folder : String} {d d' : Disk} {result : WriteResult}
    (h : e.write folder d = (d', .ok result)) :
    (result = .skipped ∧
      e.overwrite = .ifMissing ∧
      d.holds (e.fullPath folder) = true ∧
      d' = d) ∨
    (result = .written ∧
      (e.overwrite = .ifMissing → d.holds (e.fullPath folder) = false) ∧
      d.Overlays d' (d.destination (e.fullPath folder)) e.content.toUTF8) := by
  rw [Entry.write, Overwrite.apply] at h
  split at h
  · rename_i hskip
    cases h
    have hboth : e.overwrite = .ifMissing ∧ d.holds (e.fullPath folder) = true := by
      simpa using hskip
    exact Or.inl ⟨rfl, hboth.1, hboth.2, rfl⟩
  · rename_i hskip
    split at h
    · rename_i hwrite
      cases h
      refine Or.inr ⟨rfl, ?_, Disk.writeWithFolders_overlays hwrite⟩
      intro hmissing
      simpa [hmissing] using hskip
    · cases h

/-- Whether an entry is always written, and to where a path leads. -/
def Entry.Replaces (d : Disk) (folder path : String) (e : Entry) : Prop :=
  e.overwrite = .always ∧ d.destination (e.fullPath folder) = d.destination path

instance (d : Disk) (folder path : String) (e : Entry) : Decidable (e.Replaces d folder path) :=
  inferInstanceAs (Decidable (_ ∧ _))

/-- The entries that replace what a path leads to. -/
def replacing (d : Disk) (folder path : String) (es : List Entry) : List Entry :=
  es.filter fun e => e.Replaces d folder path

theorem replacing_congr
    {d d' : Disk}
    (h : d'.here = d.here)
    (folder path : String)
    (es : List Entry) :
    replacing d' folder path es = replacing d folder path es := by
  refine List.filter_congr ?_
  intro e _
  rw [decide_eq_decide, Entry.Replaces, Entry.Replaces]
  simp only [Disk.destination_congr h]

/-- The bytes of a file after the last of some entries, if there are any. -/
def lastBytes (bytes : ByteArray) (es : List Entry) : ByteArray :=
  (es.getLast?.map fun e => e.content.toUTF8).getD bytes

theorem lastBytes_cons
    (bytes : ByteArray)
    (e : Entry)
    (es : List Entry) :
    lastBytes bytes (e :: es) = lastBytes e.content.toUTF8 es := by
  unfold lastBytes
  rw [List.getLast?_cons]
  cases es.getLast? <;> rfl

theorem lastBytes_eq_iff
    {bytes : ByteArray} {es : List Entry} :
    lastBytes bytes es = bytes ↔ ∀ e ∈ es.getLast?, e.content.toUTF8 = bytes := by
  unfold lastBytes
  cases es.getLast? <;> simp

theorem Entry.write_readBytes
    {e : Entry} {folder : String} {d d' : Disk} {result : WriteResult}
    (h : e.write folder d = (d', .ok result))
    {path : String} {bytes : ByteArray}
    (hread : d.readBytes path = .ok bytes)
    (hmissing :
      e.overwrite = .ifMissing →
      d.destination (e.fullPath folder) = d.destination path →
      e.fullPath folder = path) :
    d'.here = d.here ∧
      d'.readBytes path =
        .ok (if e.Replaces d folder path then e.content.toUTF8 else bytes) := by
  rcases Entry.write_cases h with ⟨-, hrule, -, rfl⟩ | ⟨-, hholds, hover⟩
  · have hkept : ¬ e.Replaces d' folder path := by
      rintro ⟨halways, -⟩
      rw [hrule] at halways
      cases halways
    exact ⟨rfl, by rw [if_neg hkept, hread]⟩
  · refine ⟨hover.here, ?_⟩
    rw [hover.readBytes hread]
    cases hrule : e.overwrite with
    | always =>
        simp [Entry.Replaces, hrule]
    | ifMissing =>
        -- An entry that is written only if nothing is there was not meant for this file.
        have hplace : d.destination (e.fullPath folder) ≠ d.destination path := by
          intro hsame
          have hfalse := hholds hrule
          rw [hmissing hrule hsame, Disk.holds_of_readBytes hread] at hfalse
          cases hfalse
        simp [Entry.Replaces, hrule, hplace]

/-- A file that is there before a run has the bytes of the last entry that replaces it. -/
theorem writeEntries_readBytes
    {folder : String} {es : List Entry} {d d' : Disk} {stats stats' : WriteStats}
    (h : writeEntries folder d stats es = (d', .ok stats'))
    {path : String} {bytes : ByteArray}
    (hread : d.readBytes path = .ok bytes)
    (hmissing : ∀ e ∈ es,
      e.overwrite = .ifMissing →
      d.destination (e.fullPath folder) = d.destination path →
      e.fullPath folder = path) :
    d'.readBytes path = .ok (lastBytes bytes (replacing d folder path es)) := by
  induction es generalizing d stats bytes with
  | nil =>
      cases h
      exact hread
  | cons e es ih =>
      rw [writeEntries] at h
      split at h
      · rename_i d₁ result hwrite
        obtain ⟨hhere, hread₁⟩ := Entry.write_readBytes hwrite hread (hmissing e (by simp))
        have hlater := ih h hread₁ (by
          intro e' he' hrule hsame
          rw [Disk.destination_congr hhere, Disk.destination_congr hhere] at hsame
          exact hmissing e' (by simp [he']) hrule hsame)
        rw [hlater, replacing_congr hhere]
        by_cases hreplaces : e.Replaces d folder path
        · simp [replacing, hreplaces, lastBytes_cons]
        · simp [replacing, hreplaces]
      · cases h

end Files
end ContractGen
