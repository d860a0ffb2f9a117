import ContractGen.Domain.Loading
import ContractGen.Failure

/-!
# What has to hold for a model to be loaded

A model is loaded if its path has the extension of a known format, the file can be read, its text
holds a model in that format, and all names that the model declares are allowed.

* `Model.parse_eq_ok_iff`: when a text holds a model.
* `Model.load_eq_ok_iff`: when a model is loaded by a path.
* `nameFault?_of_load`: a model that is loaded declares allowed names only.
-/

namespace ContractGen
namespace Domain

open Files

theorem Model.parse_eq_ok_iff
    {format : Format} {path text : String} {m : Model} :
    Model.parse format path text = .ok m ↔
      (format.read text).bind Model.ofValue? = some m ∧ nameError? text m = none := by
  unfold Model.parse
  split
  · rename_i hread
    simp [hread]
  · rename_i m' hread
    rw [hread]
    split
    · rename_i e herror
      constructor
      · intro h
        cases h
      · rintro ⟨hm, hnone⟩
        cases hm
        rw [herror] at hnone
        cases hnone
    · rename_i hnone
      constructor
      · intro h
        cases h
        exact ⟨rfl, hnone⟩
      · rintro ⟨hm, -⟩
        cases hm
        rfl

theorem readFile_eq_ok_iff
    {fs : FileSystem} {path text : String} :
    readFile fs path = .ok text ↔ fs.read path = .ok text := by
  unfold readFile
  split <;> simp_all

/-- The path matters only through its extension and the text that is read by it. -/
theorem Model.load_eq_ok_iff
    {fs : FileSystem} {path : String} {m : Model} :
    Model.load fs path = .ok m ↔
      ∃ format text,
        Format.ofPath path = .ok format ∧
        fs.read path = .ok text ∧
        (format.read text).bind Model.ofValue? = some m ∧
        nameError? text m = none := by
  unfold Model.load
  simp only [bind_eq_ok_iff, readFile_eq_ok_iff, Model.parse_eq_ok_iff]
  constructor
  · rintro ⟨format, hformat, text, hread, hmodel, hnames⟩
    exact ⟨format, text, hformat, hread, hmodel, hnames⟩
  · rintro ⟨format, text, hformat, hread, hmodel, hnames⟩
    exact ⟨format, hformat, text, hread, hmodel, hnames⟩

/-- A model that is loaded declares no name that is not allowed. -/
theorem nameFault?_of_load
    {fs : FileSystem} {path : String} {m : Model}
    (h : Model.load fs path = .ok m)
    {n : DeclaredName}
    (hn : n ∈ m.declaredNames) :
    nameFault? n.name = none := by
  obtain ⟨-, text, -, -, -, hnames⟩ := Model.load_eq_ok_iff.mp h
  have hfault := List.findSome?_eq_none_iff.mp hnames n hn
  simpa using hfault

end Domain
end ContractGen
