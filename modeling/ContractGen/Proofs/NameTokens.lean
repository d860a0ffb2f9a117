import ContractGen.Proofs.Names
import ContractGen.Proofs.TokenTiling

/-!
# Names are identifiers

Names are checked when a model is loaded, by classes of characters; the generated code is read by
splitting it into tokens. This module says that both draw the same line: a name passes the check
exactly if it is one identifier from its first character to its last, and no reserved word.

* `isIdentifier_iff_scan`: identifiers are the texts of a single token that is one.
* `nameFault?_eq_none_iff_scan`: the names that pass the check.
-/

namespace ContractGen

/-! ## A text of one token -/

namespace Source

open Text (isBlank)

/-- An identifier with nothing around it is scanned as a single token. -/
theorem scan_of_isIdentifier
    {name : String}
    (h : isIdentifier name = true) :
    scan name =
      .ok [⟨.identifier name, {}, name.length⟩, endLexeme (({} : Position).after name.toList)] := by
  have hspelled : (Token.identifier name).Spelled name.toList [] :=
    spelled_identifier_iff.mpr ⟨rfl, h, by simp⟩
  obtain ⟨c, cs, hname, hstart, -⟩ := isIdentifier_iff.mp h
  have hblank : isBlank c = false :=
    isBlank_eq_false_of_isIdentifierPart (isIdentifierPart_of_isIdentifierStart hstart)
  have htaken : takeToken c cs = .ok ⟨.identifier name, name.toList, []⟩ :=
    takeToken_of_spelled (by simp [hname]) (by simp) hspelled
  have hoffset : (({} : Position).after name.toList).offset = name.length := by
    rw [Position.after_start, String.length_toList]
  rw [scan, hname, scanFrom_cons hblank htaken, scanFrom_nil, ← hoffset, hname]
  rfl

/-- A token for an identifier, wherever it stands, is written like one. -/
theorem isIdentifier_of_mem_scan
    {text name : String} {ls : List Lexeme} {l : Lexeme}
    (hscan : scan text = .ok ls)
    (hl : l ∈ ls)
    (hname : l.token = .identifier name) :
    isIdentifier name = true := by
  have hspelled := (tiles_of_scan hscan).spelled l hl
  rw [hname, spelled_identifier_iff] at hspelled
  exact hspelled.2.1

theorem isIdentifier_iff_scan
    {name : String} :
    isIdentifier name = true ↔
      ∃ own stop, scan name = .ok [own, stop] ∧
        own.token = .identifier name ∧
        own.start.offset = 0 ∧
        own.stop = name.length ∧
        stop.token = .endOfInput := by
  constructor
  · intro h
    exact ⟨_, _, scan_of_isIdentifier h, rfl, rfl, rfl, rfl⟩
  · rintro ⟨own, stop, hscan, hname, -⟩
    exact isIdentifier_of_mem_scan hscan List.mem_cons_self hname

end Source

/-! ## Names that pass the check -/

namespace Domain

/--
A name passes the check exactly if it is no reserved word and its tokens are an identifier, which
has all characters of the name, and the end of the input.
-/
theorem nameFault?_eq_none_iff_scan
    (name : String) :
    nameFault? name = none ↔
      name ∉ reservedWords ∧
        ∃ own stop, Source.scan name = .ok [own, stop] ∧
          own.token = .identifier name ∧
          own.start.offset = 0 ∧
          own.stop = name.length ∧
          stop.token = .endOfInput := by
  rw [nameFault?_eq_none_iff_isIdentifier, Source.isIdentifier_iff_scan, and_comm]

/-- A blank in front is no part of the token, so the name is not all of it. -/
example : (Source.scan " x").toOption = some
      [⟨.identifier "x", ⟨1, 2, 1⟩, 2⟩, Source.endLexeme ⟨1, 3, 2⟩] ∧
    nameFault? " x" = some .badStart := by
  decide +kernel

end Domain
end ContractGen
