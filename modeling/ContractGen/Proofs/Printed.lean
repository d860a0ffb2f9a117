import ContractGen.Proofs.Names
import ContractGen.Proofs.Printable

/-!
# What printed declarations spell

Every declaration has its glyphs, in the order in which they are printed. This module says that
printing spells them.

**Results.**
* `TypeExpr.spells`: the text of a type spells its glyphs.
* `Prints`: fragments at a level spell glyphs; closed under lines, blocks and groups.
* `Contract.prints`, `Interface.prints`: whole contracts and interfaces.
* `SourceUnit.prints_definitions`: the definitions of a file.
-/

namespace ContractGen
namespace Target

open Source Layout
open Domain (reservedWords)

/-! ## Literal parts -/

section Literals

theorem closes_open :
    Closes "(" [sign "("] :=
  closes_sign (c := '(') (by decide) rfl

theorem closes_close :
    Closes ")" [sign ")"] :=
  closes_sign (c := ')') (by decide) rfl

theorem closes_openBrace :
    Closes "\x7b" [sign "\x7b"] :=
  closes_sign (c := '\x7b') (by decide) rfl

theorem closes_closeBrace :
    Closes "\x7d" [sign "\x7d"] :=
  closes_sign (c := '\x7d') (by decide) rfl

theorem closes_semicolon :
    Closes ";" [sign ";"] :=
  closes_sign (c := ';') (by decide) rfl

theorem closes_comma :
    Closes "," [sign ","] :=
  closes_sign (c := ',') (by decide) rfl

/-- A comma and a space spell a comma. -/
theorem closes_separator :
    Closes ", " [sign ","] := by
  have h := closes_comma.append closes_space.spells
  exact h

theorem closes_openBracket :
    Closes "[" [sign "["] :=
  closes_sign (c := '[') (by decide) rfl

theorem closes_closeBracket :
    Closes "]" [sign "]"] :=
  closes_sign (c := ']') (by decide) rfl

/-- Empty brackets spell two symbols. -/
theorem closes_brackets :
    Closes "[]" [sign "[", sign "]"] := by
  have h := closes_openBracket.append closes_closeBracket.spells
  exact h

/-- The beginning of a mapping type spells a word and a symbol. -/
theorem spells_mappingOpen :
    Spells "mapping(" [word "mapping", sign "("] := by
  have h := (spellsApart_word "mapping" rfl).close closes_open
  exact h

/-- Spaces around an arrow are not spelled. -/
theorem closes_mapsTo :
    Closes " => " [sign "=>"] := by
  have h := (closes_space.append spells_arrow).append closes_space.spells
  exact h

theorem closes_returnsOpen :
    Closes " returns (" [word "returns", sign "("] := by
  have h := (closes_space.append (spells_keyword "returns" rfl)).append closes_open.spells
  exact h

theorem closes_is :
    Closes " is " [word "is"] := by
  have h := closes_space.append (spells_keyword "is" rfl)
  exact h

theorem closes_bodyOpen :
    Closes " \x7b" [sign "\x7b"] := by
  have h := closes_space.append closes_openBrace.spells
  exact h

theorem closes_assign :
    Closes " = " [sign "="] := by
  have h := closes_space.append (spellsApart_equals.close closes_space)
  exact h

end Literals

/-! ## Names and types -/

section Names

/-- A name that can be declared is an identifier that is no keyword. -/
theorem IsDeclarable.spec
    {name : String}
    (h : IsDeclarable name) :
    isIdentifier name = true ∧ name ∉ reservedWords ∧ name ≠ "transient" := by
  obtain ⟨hname, hreserved⟩ := Domain.nameFault?_eq_none_iff_isIdentifier.mp h.1
  exact ⟨hname, hreserved, h.2⟩

theorem IsDeclarable.isIdentifier
    {name : String}
    (h : IsDeclarable name) :
    Source.isIdentifier name = true :=
  h.spec.1

/-- The glyphs of a dotted name with some parts. -/
def dottedGlyphs : List String → List Glyph
  | [] => []
  | [part] => [word part]
  | part :: parts => word part :: sign "." :: dottedGlyphs parts

/-- The first part of a split text, and what is left of the text. -/
theorem splitAt_cases
    (separator : Char)
    (cs : List Char) :
    (Text.splitAt separator cs = [cs] ∧ separator ∉ cs) ∨
      ∃ part rest, cs = part ++ separator :: rest ∧
        Text.splitAt separator cs = part :: Text.splitAt separator rest := by
  induction cs with
  | nil =>
      exact Or.inl ⟨rfl, by simp⟩
  | cons c cs ih =>
      by_cases hc : c = separator
      · subst hc
        exact Or.inr ⟨[], cs, rfl, by simp [Text.splitAt]⟩
      · rcases ih with ⟨hsplit, hmem⟩ | ⟨part, rest, rfl, hsplit⟩
        · refine Or.inl ⟨by simp [Text.splitAt, hc, hsplit], ?_⟩
          simp [hmem, Ne.symm hc]
        · exact Or.inr ⟨c :: part, rest, rfl, by simp [Text.splitAt, hc, hsplit]⟩

/-- A text whose parts between dots are identifiers is scanned part by part. -/
theorem scans_dotted
    {cs rest : List Char} {hs : List Glyph}
    (hparts : ∀ part ∈ Text.splitAt '.' cs, isIdentifier (String.ofList part) = true)
    (hbreak : Breaks rest)
    (h : Scans rest hs) :
    Scans (cs ++ rest) (dottedGlyphs ((Text.splitAt '.' cs).map String.ofList) ++ hs) := by
  induction hn : cs.length using Nat.strongRecOn generalizing cs with
  | ind n ih =>
      rcases splitAt_cases '.' cs with ⟨hsplit, -⟩ | ⟨part, tail, rfl, hsplit⟩
      · have hcs := spellsApart_word _ (hparts cs (by simp [hsplit])) rest hs hbreak h
        rw [String.toList_ofList] at hcs
        rw [hsplit]
        exact hcs
      · have htail := ih tail.length (by simp at hn; omega)
          (fun p hp => hparts p (by simp [hsplit, hp])) rfl
        have hdot : Scans ('.' :: (tail ++ rest))
            (sign "." :: (dottedGlyphs ((Text.splitAt '.' tail).map String.ofList) ++ hs)) :=
          spells_sign (c := '.') (by decide) _ _ htail
        have hword := Scans.word (hparts part (by simp [hsplit])) (by simp; decide) hdot
        rw [String.toList_ofList] at hword
        rw [hsplit, List.append_assoc, List.cons_append]
        cases hlater : Text.splitAt '.' tail with
        | nil =>
            exact absurd hlater (Files.Disk.splitAt_ne_nil '.' tail)
        | cons later laters =>
            rw [hlater] at hword
            exact hword

/-- A dotted name spells its parts, with a dot between each two. -/
theorem spellsApart_dotted
    {name : String}
    (h : IsDotted name) :
    SpellsApart name (dottedGlyphs (nameParts name)) := by
  intro rest hs hbreak hrest
  refine scans_dotted ?_ hbreak hrest
  intro part hpart
  exact h _ (List.mem_map_of_mem hpart)

end Names

section Types

/-- The glyphs of a type. -/
def TypeExpr.glyphs : TypeExpr → List Glyph
  | named name => dottedGlyphs (nameParts name)
  | enumeration name => [word name]
  | mapping key value =>
    word "mapping" :: sign "(" :: (key.glyphs ++ sign "=>" :: (value.glyphs ++ [sign ")"]))
  | array element => element.glyphs ++ [sign "[", sign "]"]

/-- The glyphs of a type of a parameter or return value. -/
def TypeExpr.passedGlyphs (type : TypeExpr) : List Glyph :=
  if type = payableAddress then [word "address", word "payable"] else type.glyphs

variable {enums : List String}

/-- The text of a type spells its glyphs. -/
theorem TypeExpr.spells
    (henums : ∀ name ∈ enums, IsDeclarable name)
    {type : TypeExpr}
    (h : type.Printable enums) :
    SpellsApart type.text type.glyphs := by
  induction type with
  | named name =>
      exact spellsApart_dotted h.1.1
  | enumeration name =>
      exact spellsApart_word name (henums name h).isIdentifier
  | mapping key value ihkey ihvalue =>
      have hkey := (spells_mappingOpen.appendApart (ihkey h.1)).close closes_mapsTo
      have hvalue := (hkey.appendApart (ihvalue h.2)).close closes_close
      simpa [TypeExpr.text, TypeExpr.glyphs] using hvalue.apart
  | array element ih =>
      exact ((ih h).close closes_brackets).apart

/-- A payable marker behind a text is one more word. -/
theorem spellsApart_payable
    {text : String} {gs : List Glyph}
    (h : SpellsApart text gs) :
    SpellsApart (text ++ " payable") (gs ++ [word "payable"]) :=
  h.keyword "payable" rfl

/-- The text of a type that can be passed spells the glyphs of its form for passing. -/
theorem TypeExpr.Passable.spells
    (henums : ∀ name ∈ enums, IsDeclarable name)
    {type : TypeExpr}
    (h : type.Passable enums) :
    SpellsApart type.text type.passedGlyphs := by
  unfold TypeExpr.passedGlyphs
  split
  · rename_i he
    subst he
    have h := spellsApart_payable (spellsApart_word "address" rfl)
    exact h
  · rename_i hne
    exact TypeExpr.spells henums (h.resolve_left hne)

/-- The glyphs of a type with a payable marker. -/
def markedGlyphs (type : TypeExpr) (payable : Bool) : List Glyph :=
  type.glyphs ++ if payable then [word "payable"] else []

/-- The text of a type with or without a payable marker spells its glyphs. -/
theorem spellsApart_typeText
    (henums : ∀ name ∈ enums, IsDeclarable name)
    {type : TypeExpr}
    (h : type.Printable enums)
    (payable : Bool) :
    SpellsApart (typeText type payable) (markedGlyphs type payable) := by
  cases payable with
  | false =>
      simpa [typeText, markedGlyphs] using TypeExpr.spells henums h
  | true =>
      simpa [typeText, markedGlyphs] using spellsApart_payable (TypeExpr.spells henums h)

/-- The first word of a name that stands for a type. -/
theorem IsTypeName.leads
    {name : String}
    (h : IsTypeName name) :
    ∃ first gs, dottedGlyphs (nameParts name) = word first :: gs ∧
      (first ∈ reservedWords → first ∈ elementaryWords) := by
  cases hparts : nameParts name with
  | nil =>
      exact absurd (List.map_eq_nil_iff.mp hparts) (Files.Disk.splitAt_ne_nil '.' _)
  | cons first parts =>
      have hfirst : first ∈ reservedWords → first ∈ elementaryWords :=
        h.2 first (by rw [hparts]; rfl)
      cases parts with
      | nil =>
          exact ⟨first, [], rfl, hfirst⟩
      | cons next parts =>
          exact ⟨first, _, rfl, hfirst⟩

/-- The first word of a type. -/
theorem TypeExpr.leads
    (henums : ∀ name ∈ enums, IsDeclarable name)
    {type : TypeExpr}
    (h : type.Printable enums) :
    ∃ first gs, type.glyphs = word first :: gs ∧
      (first ∈ reservedWords → first = "mapping" ∨ first ∈ elementaryWords) := by
  induction type with
  | named name =>
      obtain ⟨first, gs, hgs, hfirst⟩ := h.1.leads
      exact ⟨first, gs, hgs, fun hr => Or.inr (hfirst hr)⟩
  | enumeration name =>
      exact ⟨name, [], rfl, fun hr => absurd hr (henums name h).spec.2.1⟩
  | mapping key value =>
      exact ⟨"mapping", _, rfl, fun _ => Or.inl rfl⟩
  | array element ih =>
      obtain ⟨first, gs, hgs, hfirst⟩ := ih h
      exact ⟨first, gs ++ [sign "[", sign "]"], by rw [TypeExpr.glyphs, hgs]; rfl, hfirst⟩

/-- A type before its enums are known. -/
def TypeExpr.forget : TypeExpr → TypeExpr
  | named name => named name
  | enumeration name => named name
  | mapping key value => mapping key.forget value.forget
  | array element => array element.forget

end Types

/-! ## Lists of declarations in a line -/

section Lists

/-- Glyphs with commas between them. -/
def commaGlyphs : List (List Glyph) → List Glyph
  | [] => []
  | [gs] => gs
  | gs :: rest => gs ++ sign "," :: commaGlyphs rest

/-- Texts joined by commas spell their glyphs, joined by commas. -/
theorem spellsApart_joined
    {α : Type} {text : α → String} {glyphs : α → List Glyph} {xs : List α}
    (h : ∀ x ∈ xs, SpellsApart (text x) (glyphs x)) :
    SpellsApart (joined ", " (xs.map text)) (commaGlyphs (xs.map glyphs)) := by
  induction xs with
  | nil =>
      exact spells_empty.apart
  | cons x xs ih =>
      cases xs with
      | nil =>
          simpa [joined, commaGlyphs] using h x
      | cons y ys =>
          have hx := (h x (by simp)).close closes_separator
          have hrest := ih fun z hz => h z (List.mem_cons_of_mem x hz)
          simpa [joined, commaGlyphs, String.intercalate_cons_cons] using hx.appendApart hrest

/-- The glyphs of a name that may be empty. -/
def nameGlyphs (name : String) : List Glyph :=
  if name = "" then [] else [word name]

/-- A text with a name behind it spells one more word, unless the name is empty. -/
theorem spellsApart_withName
    {head name : String} {gs : List Glyph}
    (h : SpellsApart head gs)
    (hname : name = "" ∨ isIdentifier name = true) :
    SpellsApart (withName head name) (gs ++ nameGlyphs name) := by
  by_cases he : name = ""
  · subst he
    simpa [withName, nameGlyphs] using h
  · simpa [withName, nameGlyphs, he] using h.mark (hname.resolve_left he)

end Lists

/-! ## Parameters and headers -/

section Headers

variable {enums : List String}

theorem isIdentifier_visibility
    (v : Visibility) :
    isIdentifier v.keyword = true := by
  cases v <;> rfl

theorem isIdentifier_mutability
    (m : Mutability) :
    isIdentifier m.keyword = true := by
  cases m <;> rfl

theorem isIdentifier_location
    (l : DataLocation) :
    isIdentifier l.keyword = true := by
  cases l <;> rfl

/-- The glyph of a data location, if there is one. -/
def locationGlyphs : Option DataLocation → List Glyph
  | some location => [word location.keyword]
  | none => []

/-- The glyphs of a parameter. -/
def Parameter.glyphs (p : Parameter) : List Glyph :=
  p.type.passedGlyphs ++ locationGlyphs p.location ++ nameGlyphs p.name

/-- The text of a parameter spells the glyphs of its type, data location and name. -/
theorem spellsApart_parameter
    {p : Parameter} {gs : List Glyph}
    (htype : SpellsApart p.type.text gs)
    (hlocation : p.location.isSome = true → p.type.isReference = true)
    (hname : p.name = "" ∨ isIdentifier p.name = true) :
    SpellsApart p.text (gs ++ locationGlyphs p.location ++ nameGlyphs p.name) := by
  refine spellsApart_withName ?_ hname
  cases hl : p.location with
  | none =>
      simpa [locationGlyphs] using htype
  | some location =>
      have href : p.type.isReference = true := hlocation (by simp [hl])
      simpa [locationGlyphs, href] using htype.mark (isIdentifier_location location)

/-- The text of a parameter spells its glyphs. -/
theorem Parameter.spells
    (henums : ∀ name ∈ enums, IsDeclarable name)
    {p : Parameter}
    (h : p.Printable enums) :
    SpellsApart p.text p.glyphs :=
  spellsApart_parameter (h.type.spells henums) h.location
    (h.name.imp_right IsDeclarable.isIdentifier)

/-- The glyphs of a list of parameters, without the parentheses. -/
def parameterGlyphs (ps : List Parameter) : List Glyph :=
  commaGlyphs (ps.map Parameter.glyphs)

/-- A list of parameters spells their glyphs, joined by commas. -/
theorem spellsApart_parameterList
    (henums : ∀ name ∈ enums, IsDeclarable name)
    {ps : List Parameter}
    (h : ∀ p ∈ ps, p.Printable enums) :
    SpellsApart (parameterList ps) (parameterGlyphs ps) :=
  spellsApart_joined fun p hp => Parameter.spells henums (h p hp)

/-- The glyphs of a struct member, or of an argument of an event or error. -/
def LocalField.glyphs (f : LocalField) : List Glyph :=
  markedGlyphs f.type f.payable ++ nameGlyphs f.name

/-- The text of a struct member or argument spells its glyphs. -/
theorem LocalField.spells
    (henums : ∀ name ∈ enums, IsDeclarable name)
    {f : LocalField}
    (hname : f.name = "" ∨ IsDeclarable f.name)
    (h : f.Typed enums) :
    SpellsApart f.text f.glyphs :=
  spellsApart_withName (spellsApart_typeText henums h.type f.payable)
    (hname.imp_right IsDeclarable.isIdentifier)

/-- The glyphs of a return type; reference types are returned in memory. -/
def returnGlyphs (type : TypeExpr) : List Glyph :=
  type.passedGlyphs ++ locationGlyphs (if type.isReference then some .memory else none)

/-- The text of a return type spells its glyphs. -/
theorem spellsApart_returnText
    (henums : ∀ name ∈ enums, IsDeclarable name)
    {type : TypeExpr}
    (h : type.Passable enums) :
    SpellsApart (returnText type) (returnGlyphs type) := by
  have htype := h.spells henums
  unfold returnText returnGlyphs
  split
  · exact htype.keyword "memory" rfl
  · simpa [locationGlyphs] using htype

/-- The glyphs of the return list of a header, each return value having its own. -/
def returnListGlyphs : List (List Glyph) → List Glyph
  | [] => []
  | gss => word "returns" :: sign "(" :: (commaGlyphs gss ++ [sign ")"])

/-- The glyphs of the return list of a header. -/
def returnsGlyphs : List TypeExpr → List Glyph
  | [] => []
  | types => word "returns" :: sign "(" :: (commaGlyphs (types.map returnGlyphs) ++ [sign ")"])

theorem returnsGlyphs_eq
    (types : List TypeExpr) :
    returnsGlyphs types = returnListGlyphs (types.map returnGlyphs) := by
  cases types <;> rfl

/-- A return list behind a header spells the glyphs of its types, if there are any. -/
theorem spellsApart_returnList
    {glyphs : TypeExpr → List Glyph} {types : List TypeExpr}
    (htypes : ∀ type ∈ types, SpellsApart (returnText type) (glyphs type))
    {text : String} {gs : List Glyph}
    (h : SpellsApart text gs) :
    SpellsApart (text ++ returnsText types) (gs ++ returnListGlyphs (types.map glyphs)) := by
  cases types with
  | nil =>
      simpa [returnsText, returnListGlyphs] using h
  | cons type types =>
      have hlist := spellsApart_joined htypes
      have hopen := h.close closes_returnsOpen
      have hclose := (hopen.appendApart hlist).close closes_close
      simpa [returnsText, returnListGlyphs, String.append_assoc] using hclose.apart

/-- The glyphs of the virtual and override markers. -/
def overrideGlyphs (isVirtual isOverride : Bool) : List Glyph :=
  (if isVirtual then [word "virtual"] else []) ++ (if isOverride then [word "override"] else [])

/-- The markers behind a header spell a word each. -/
theorem spellsApart_overrides
    {text : String} {gs : List Glyph}
    (h : SpellsApart text gs)
    (isVirtual isOverride : Bool) :
    SpellsApart (text ++ overrideMarks isVirtual isOverride)
      (gs ++ overrideGlyphs isVirtual isOverride) := by
  have hvirtual := h.keyword "virtual" rfl
  cases isVirtual with
  | false =>
      cases isOverride with
      | false =>
          simpa [overrideMarks, overrideGlyphs] using h
      | true =>
          exact h.keyword "override" rfl
  | true =>
      cases isOverride with
      | false =>
          exact hvirtual
      | true =>
          simpa [overrideMarks, overrideGlyphs, String.append_assoc] using
            hvirtual.keyword "override" rfl

/-- The glyph of a mutability, if there is one. -/
def mutabilityGlyphs : Option Mutability → List Glyph
  | some mutability => [word mutability.keyword]
  | none => []

/-- The glyphs of a function header, those of its parameters and return list given. -/
def Function.headerWith (f : Function) (parameters returns : List Glyph) : List Glyph :=
  word "function" :: word f.name :: sign "(" :: (parameters ++
    sign ")" :: word f.visibility.keyword :: (mutabilityGlyphs f.mutability ++
      (overrideGlyphs f.isVirtual f.isOverride ++ returns)))

/-- The glyphs of a function header. -/
def Function.headerGlyphs (f : Function) : List Glyph :=
  word "function" :: word f.name :: sign "(" :: (parameterGlyphs f.parameters ++
    sign ")" :: word f.visibility.keyword :: (mutabilityGlyphs f.mutability ++
      (overrideGlyphs f.isVirtual f.isOverride ++ returnsGlyphs f.returns)))

/-- A header spells its glyphs, once its parameters and its return list spell theirs. -/
theorem spellsApart_signature
    {f : Function} {parameters returns : List Glyph}
    (hname : isIdentifier f.name = true)
    (hparameters : SpellsApart (parameterList f.parameters) parameters)
    (hreturns : ∀ {text : String} {gs : List Glyph}, SpellsApart text gs →
      SpellsApart (text ++ returnsText f.returns) (gs ++ returns)) :
    SpellsApart (signature f) (f.headerWith parameters returns) := by
  have hnamed := (spells_keyword "function" rfl).appendApart (spellsApart_word f.name hname)
  have hlist := (hnamed.close closes_open).appendApart hparameters
  have hclose := hlist.close (closes_close.append closes_space.spells)
  have hvisibility := hclose.appendApart
    (spellsApart_word f.visibility.keyword (isIdentifier_visibility f.visibility))
  have hend : ∀ {text : String} {gs : List Glyph}, SpellsApart text gs →
      SpellsApart (text ++ overrideMarks f.isVirtual f.isOverride ++ returnsText f.returns)
        (gs ++ overrideGlyphs f.isVirtual f.isOverride ++ returns) :=
    fun h' => hreturns (spellsApart_overrides h' f.isVirtual f.isOverride)
  unfold signature Function.headerWith
  cases f.mutability with
  | none =>
      simpa [mutabilityGlyphs] using hend hvisibility
  | some mutability =>
      have hmutability := hvisibility.mark (isIdentifier_mutability mutability)
      simpa [mutabilityGlyphs, String.append_assoc] using hend hmutability

/-- The header of a function that can be printed spells its glyphs. -/
theorem Function.header_spells
    (henums : ∀ name ∈ enums, IsDeclarable name)
    {f : Function}
    (h : f.PrintableHeader enums) :
    SpellsApart (signature f) f.headerGlyphs := by
  refine spellsApart_signature h.name.isIdentifier (spellsApart_parameterList henums h.parameters)
    fun htext => ?_
  rw [returnsGlyphs_eq]
  exact spellsApart_returnList (fun t ht => spellsApart_returnText henums (h.returns t ht)) htext

/-- The glyphs of a list of bases. -/
def basesGlyphs : List String → List Glyph
  | [] => []
  | names => word "is" :: commaGlyphs (names.map fun name => dottedGlyphs (nameParts name))

/-- A list of bases behind a header spells their dotted names. -/
theorem spellsApart_bases
    {names : List String}
    (hnames : ∀ name ∈ names, IsDotted name)
    {text : String} {gs : List Glyph}
    (h : SpellsApart text gs) :
    SpellsApart (text ++ basesText names) (gs ++ basesGlyphs names) := by
  cases names with
  | nil =>
      simpa [basesText, basesGlyphs] using h
  | cons name names =>
      have hlist : SpellsApart (joined ", " ((name :: names).map id))
          (commaGlyphs ((name :: names).map fun name => dottedGlyphs (nameParts name))) :=
        spellsApart_joined fun base hbase => spellsApart_dotted (hnames base hbase)
      have hall := (h.close closes_is).appendApart hlist
      simpa [basesText, basesGlyphs, String.append_assoc] using hall

end Headers

/-! ## Fragments -/

section Fragments

variable {level : Nat} {fs gs' : List Fragment} {gs hs : List Glyph} {header text : String}

/-- Fragments at a level spell glyphs. -/
def Prints (level : Nat) (fs : List Fragment) (gs : List Glyph) : Prop :=
  Spells (layoutAll .standard level fs) gs

theorem prints_nil :
    Prints level [] [] :=
  spells_empty

/-- Fragments one after the other spell the glyphs of both. -/
theorem Prints.append
    (hf : Prints level fs gs)
    (hg : Prints level gs' hs) :
    Prints level (fs ++ gs') (gs ++ hs) := by
  unfold Prints
  rw [layoutAll_append]
  exact Spells.append hf hg

/-- A margin spells nothing. -/
theorem spells_margin
    (level : Nat) :
    Spells (Indent.standard.margin level) [] := by
  refine spells_blanks fun c hc => ?_
  simp only [Indent.margin, Indent.standard, String.toList_ofList, List.mem_replicate] at hc
  rw [hc.2]
  rfl

theorem spells_lineText
    (level : Nat)
    (h : SpellsApart text gs) :
    Spells (lineText .standard level text) gs := by
  have hline := ((spells_margin level).appendApart h).close closes_newline
  simpa [lineText] using hline

/-- A line spells what its text spells. -/
theorem prints_line
    (h : SpellsApart text gs) :
    Prints level [.line text] gs := by
  have hline := spells_lineText level h
  simpa [Prints, layoutAll, layoutOne] using hline

theorem prints_blank :
    Prints level [.blank] [] := by
  simpa [Prints, layoutAll, layoutOne] using closes_newline.spells

/-- A block spells its header, and its body between braces. -/
theorem prints_braced
    (hheader : SpellsApart header gs)
    (hbody : Prints (level + 1) fs hs) :
    Prints level [.braced (header ++ " \x7b") fs]
      (gs ++ sign "\x7b" :: (hs ++ [sign "\x7d"])) := by
  have hline := spells_lineText level (hheader.close closes_bodyOpen).apart
  have hclose := spells_lineText level closes_closeBrace.spells.apart
  simpa [Prints, Fragment.braced, layoutAll, layoutOne] using (hline.append hbody).append hclose

/-- An empty block in one line spells the same glyphs as a block with an empty body. -/
theorem prints_bracedOrEmpty
    (hheader : SpellsApart header gs)
    (hbody : Prints (level + 1) fs hs) :
    Prints level [.bracedOrEmpty header fs] (gs ++ sign "\x7b" :: (hs ++ [sign "\x7d"])) := by
  cases fs with
  | nil =>
      -- an empty body stands between the braces of one line
      have hempty : Spells "" hs := hbody
      have hbraces := (closes_bodyOpen.append hempty).append closes_closeBrace.spells
      have hline := hheader.close hbraces
      have hprints : Prints level [.line (header ++ " \x7b\x7d")] _ :=
        prints_line hline.apart
      simpa [Fragment.bracedOrEmpty] using hprints
  | cons f fs =>
      exact prints_braced hheader hbody

/-- Fragments that spell glyphs one by one spell them one after the other. -/
theorem prints_flatMap
    {α : Type} {fragment : α → Fragment} {glyphs : α → List Glyph} {xs : List α}
    (h : ∀ x ∈ xs, Prints level [fragment x] (glyphs x)) :
    Prints level (xs.map fragment) (xs.flatMap glyphs) := by
  induction xs with
  | nil =>
      exact prints_nil
  | cons x xs ih =>
      exact (h x (by simp)).append (ih fun y hy => h y (by simp [hy]))

/-- Groups of fragments spell glyphs, in the blank lines that separate them. -/
def PrintsGroups (level : Nat) (groups : List (List Fragment)) (gs : List Glyph) : Prop :=
  ∀ before hs, Prints level before hs →
    Prints level (Fragment.separatedFrom before groups) (hs ++ gs)

/-- Groups are separated one after the other, from what stands before them. -/
theorem separatedFrom_append
    (before : List Fragment)
    (as bs : List (List Fragment)) :
    Fragment.separatedFrom before (as ++ bs) =
      Fragment.separatedFrom (Fragment.separatedFrom before as) bs := by
  fun_induction Fragment.separatedFrom before as with
  | case1 =>
      rfl
  | case2 before as ih =>
      rw [List.cons_append, Fragment.separatedFrom, ih]
  | case3 before a as ha ih =>
      rw [List.cons_append, Fragment.separatedFrom, ih]
      exact ha

/--
Groups one after the other spell the glyphs of both, whether or not a blank line separates them.
-/
theorem PrintsGroups.append
    {as bs : List (List Fragment)}
    (ha : PrintsGroups level as gs)
    (hb : PrintsGroups level bs hs) :
    PrintsGroups level (as ++ bs) (gs ++ hs) := by
  intro before later h
  rw [separatedFrom_append, ← List.append_assoc]
  exact hb _ _ (ha _ _ h)

theorem printsGroups_one
    (h : Prints level fs gs) :
    PrintsGroups level [fs] gs := by
  intro before later hbefore
  cases fs with
  | nil =>
      have hall := hbefore.append h
      simpa [Fragment.separatedFrom] using hall
  | cons f fs =>
      by_cases he : before = []
      · subst he
        simpa [Fragment.separatedFrom] using hbefore.append h
      · have hall := (hbefore.append prints_blank).append h
        simpa [Fragment.separatedFrom, he] using hall

/-- Fragments in groups of their own spell the same glyphs as in one group. -/
theorem printsGroups_eachAlone
    {α : Type} {fragment : α → Fragment} {glyphs : α → List Glyph} {xs : List α}
    (h : ∀ x ∈ xs, Prints level [fragment x] (glyphs x)) :
    PrintsGroups level (eachAlone fragment xs) (xs.flatMap glyphs) := by
  induction xs with
  | nil =>
      intro before later hbefore
      simpa [eachAlone, Fragment.separatedFrom] using hbefore
  | cons x xs ih =>
      have hx := printsGroups_one (h x (by simp))
      exact hx.append (ih fun y hy => h y (by simp [hy]))

/-- The blank lines between groups spell nothing. -/
theorem PrintsGroups.separated
    {groups : List (List Fragment)}
    (h : PrintsGroups level groups gs) :
    Prints level (Fragment.separated groups) gs :=
  h [] [] prints_nil

end Fragments

/-! ## Declarations -/

section Declarations

variable {enums : List String} {level : Nat}

theorem exists_of_isOk
    {text : String}
    (h : (scan text).isOk = true) :
    ∃ ls, scan text = .ok ls := by
  cases hs : scan text with
  | error e =>
      rw [hs] at h
      cases h
  | ok ls =>
      exact ⟨ls, rfl⟩

/-- The glyph of a text that is passed over as a whole. -/
def stretchGlyph (text : String) : Glyph :=
  .stretch text (readableTokens text)

/-- A text that can be passed over spells one glyph, itself. -/
theorem spellsApart_isStretch
    {text : String}
    (h : IsStretch text) :
    SpellsApart text [stretchGlyph text] := by
  obtain ⟨ls, hls⟩ := exists_of_isOk h.scanned
  refine spellsApart_stretch h.trimmed hls fun l hl => (h.plain l.token ?_).1
  rw [tokensOf, hls]
  exact List.mem_map_of_mem hl

/-- The glyphs of the tokens of a body. -/
def bodyGlyphs (level : Nat) (statements : List Statement) : List Glyph :=
  (readableTokens (bodyText level statements)).map Glyph.token

/-- The lines of a body spell the tokens of its text. -/
theorem prints_body
    {statements : List Statement}
    (h : IsBody (bodyText level statements)) :
    Prints level (Statement.listFragments statements) (bodyGlyphs level statements) := by
  obtain ⟨ls, hls⟩ := exists_of_isOk h.scanned
  exact spells_tokens hls (endsLine_layoutAll level _)

/-- The glyphs of an initializer, if there is one. -/
def initializerGlyphs : Option String → List Glyph
  | some value => [sign "=", stretchGlyph value]
  | none => []

/-- The glyphs of a state variable. -/
def Field.glyphs (f : Field) : List Glyph :=
  markedGlyphs f.type f.payable ++ word f.visibility.keyword :: word f.name ::
    (initializerGlyphs f.initializer ++ [sign ";"])

/-- The line of a state variable spells its glyphs. -/
theorem Field.prints
    (henums : ∀ name ∈ enums, IsDeclarable name)
    {f : Field}
    (h : f.Printable enums) :
    Prints level [f.fragment] f.glyphs := by
  have hname := ((spellsApart_typeText henums h.type f.payable).mark
    (isIdentifier_visibility f.visibility)).mark h.name.isIdentifier
  refine prints_line ?_
  unfold Field.glyphs
  cases hi : f.initializer with
  | none =>
      have hall := (hname.close closes_semicolon).apart
      simpa [initializerGlyphs] using hall
  | some value =>
      have hvalue := (hname.close closes_assign).appendApart
        (spellsApart_isStretch (h.initializer value hi))
      have hall := (hvalue.close closes_semicolon).apart
      simpa [initializerGlyphs, String.append_assoc] using hall

/-- The glyphs of a struct. -/
def Structure.glyphs (s : Structure) : List Glyph :=
  word "struct" :: word s.name :: sign "\x7b" ::
    (s.fields.flatMap (fun f => f.glyphs ++ [sign ";"]) ++ [sign "\x7d"])

/-- The lines of a struct spell its glyphs. -/
theorem Structure.prints
    (henums : ∀ name ∈ enums, IsDeclarable name)
    {s : Structure}
    (h : s.Printable enums) :
    Prints level [s.fragment] s.glyphs := by
  have hheader := (spells_keyword "struct" rfl).appendApart
    (spellsApart_word s.name h.name.isIdentifier)
  have hmember : ∀ f ∈ s.fields,
      Prints (level + 1) [.line (f.text ++ ";")] (f.glyphs ++ [sign ";"]) := by
    intro f hf
    have htext := LocalField.spells henums (Or.inr (h.fields f hf).name) (h.fields f hf).typed
    exact prints_line (htext.close closes_semicolon).apart
  have hall := prints_bracedOrEmpty hheader (prints_flatMap hmember)
  simpa [Structure.fragment, Structure.glyphs] using hall

/-- The glyphs of an enum. -/
def Enumeration.glyphs (e : Enumeration) : List Glyph :=
  word "enum" :: word e.name :: sign "\x7b" ::
    (commaGlyphs (e.values.map fun value => [word value]) ++ [sign "\x7d"])

/-- The values of an enum spell one word each, joined by commas. -/
theorem prints_valueLines
    {values : List String}
    (h : ∀ value ∈ values, IsDeclarable value) :
    Prints level (valueLines values) (commaGlyphs (values.map fun value => [word value])) := by
  induction values with
  | nil =>
      exact prints_nil
  | cons value values ih =>
      have hvalue := spellsApart_word value (h value (by simp)).isIdentifier
      cases values with
      | nil =>
          exact prints_line hvalue
      | cons next values =>
          have hcomma := hvalue.close closes_comma
          have hline : Prints level [.line (value ++ ",")] _ :=
            prints_line hcomma.apart
          exact hline.append (ih fun v hv => h v (List.mem_cons_of_mem value hv))

/-- The lines of an enum spell its glyphs. -/
theorem Enumeration.prints
    {e : Enumeration}
    (h : e.Printable) :
    Prints level [e.fragment] e.glyphs := by
  have hheader := (spells_keyword "enum" rfl).appendApart
    (spellsApart_word e.name h.name.isIdentifier)
  have hall : Prints level _ _ := prints_bracedOrEmpty hheader (prints_valueLines h.values)
  simpa [Enumeration.fragment, Enumeration.glyphs] using hall

/-- The glyphs of a keyword, a name and a list of arguments. -/
def argumentGlyphs (keyword name : String) (fs : List LocalField) : List Glyph :=
  word keyword :: word name :: sign "(" ::
    (commaGlyphs (fs.map LocalField.glyphs) ++ [sign ")", sign ";"])

/-- The lines of events and errors. -/
theorem prints_arguments
    (henums : ∀ name ∈ enums, IsDeclarable name)
    (keyword : String)
    (hkeyword : isIdentifier keyword = true)
    {name : String}
    (hname : IsDeclarable name)
    {fs : List LocalField}
    (h : ∀ f ∈ fs, f.PrintableArgument enums) :
    Prints level [.line (keyword ++ " " ++ name ++ "(" ++ localFieldList fs ++ ");")]
      (argumentGlyphs keyword name fs) := by
  have hheader := (spells_keyword keyword hkeyword).appendApart
    (spellsApart_word name hname.isIdentifier)
  have hlist := spellsApart_joined fun f hf => LocalField.spells henums (h f hf).name (h f hf).typed
  have hargs := (hheader.close closes_open).appendApart hlist
  have hall := hargs.close (closes_close.append closes_semicolon.spells)
  refine prints_line ?_
  simpa [argumentGlyphs, localFieldList] using hall.apart

/-- The glyphs of an event. -/
def Event.glyphs (e : Event) : List Glyph :=
  argumentGlyphs "event" e.name e.parameters

/-- The line of an event spells its glyphs. -/
theorem Event.prints
    (henums : ∀ name ∈ enums, IsDeclarable name)
    {e : Event}
    (h : e.Printable enums) :
    Prints level [e.fragment] e.glyphs :=
  prints_arguments henums "event" rfl h.name h.parameters

/-- The glyphs of a custom error. -/
def ErrorDefinition.glyphs (e : ErrorDefinition) : List Glyph :=
  argumentGlyphs "error" e.name e.parameters

/-- The line of a custom error spells its glyphs. -/
theorem ErrorDefinition.prints
    (henums : ∀ name ∈ enums, IsDeclarable name)
    {e : ErrorDefinition}
    (h : e.Printable enums) :
    Prints level [e.fragment] e.glyphs :=
  prints_arguments henums "error" rfl h.name h.parameters

/-- The glyphs of a modifier whose body is laid out at a level. -/
def Modifier.glyphs (level : Nat) (m : Modifier) : List Glyph :=
  word "modifier" :: word m.name :: sign "(" :: (parameterGlyphs m.parameters ++
    sign ")" :: (overrideGlyphs m.isVirtual m.isOverride ++
      sign "\x7b" :: (bodyGlyphs level m.statements ++
        [word "_", sign ";", sign "\x7d"])))

/-- The lines of a modifier spell its glyphs. -/
theorem Modifier.prints
    (henums : ∀ name ∈ enums, IsDeclarable name)
    {m : Modifier}
    (h : m.Printable enums (level + 1)) :
    Prints level [m.fragment] (m.glyphs (level + 1)) := by
  have hname := (spells_keyword "modifier" rfl).appendApart
    (spellsApart_word m.name h.name.isIdentifier)
  have hparameters := (hname.close closes_open).appendApart
    (spellsApart_parameterList henums h.parameters)
  have hheader := spellsApart_overrides
    (hparameters.close closes_close).apart m.isVirtual m.isOverride
  have hunderscore := (spellsApart_word "_" rfl).close closes_semicolon
  have hplaceholder : Prints (level + 1) [.line "_;"] [word "_", sign ";"] :=
    prints_line hunderscore.apart
  have hall := prints_braced hheader ((prints_body h.body).append hplaceholder)
  simpa [Modifier.fragment, Modifier.glyphs] using hall

/-- The glyphs of a function whose body is laid out at a level. -/
def Function.glyphs (level : Nat) (f : Function) : List Glyph :=
  f.headerGlyphs ++ sign "\x7b" :: (bodyGlyphs level f.statements ++ [sign "\x7d"])

/-- The lines of a function spell its glyphs. -/
theorem Function.prints
    (henums : ∀ name ∈ enums, IsDeclarable name)
    {f : Function}
    (h : f.Printable enums (level + 1)) :
    Prints level [f.fragment] (f.glyphs (level + 1)) :=
  prints_bracedOrEmpty (Function.header_spells henums h.header) (prints_body h.body)

/-- The glyphs of a function without a body. -/
def Function.declarationGlyphs (f : Function) : List Glyph :=
  f.headerGlyphs ++ [sign ";"]

/-- A header that ends in a semicolon spells a function without a body. -/
theorem Function.prints_declaration
    (henums : ∀ name ∈ enums, IsDeclarable name)
    {f : Function}
    (h : f.PrintableHeader enums) :
    Prints level [.line (signature f ++ ";")] f.declarationGlyphs :=
  prints_line ((Function.header_spells henums h).close closes_semicolon).apart

end Declarations

/-! ## Contracts, interfaces and files -/

section Files

variable {enums : List String}

/-- The glyphs of the members of a contract. -/
def Contract.memberGlyphs (level : Nat) (c : Contract) : List Glyph :=
  c.fields.flatMap Field.glyphs ++ c.definitions.structures.flatMap Structure.glyphs ++
    c.definitions.enumerations.flatMap Enumeration.glyphs ++
    c.definitions.events.flatMap Event.glyphs ++
    c.definitions.errors.flatMap ErrorDefinition.glyphs ++
    c.definitions.modifiers.flatMap (Modifier.glyphs level) ++
    c.definitions.functions.flatMap (Function.glyphs level)

/-- The glyphs of the header of a contract. -/
def Contract.headerGlyphs (c : Contract) : List Glyph :=
  (if c.isAbstract then [word "abstract"] else []) ++
    word "contract" :: word c.name :: basesGlyphs c.bases

/-- The glyphs of a contract at the left margin. -/
def Contract.glyphs (c : Contract) : List Glyph :=
  c.headerGlyphs ++ sign "\x7b" :: (c.memberGlyphs 2 ++ [sign "\x7d"])

/-- The members of a contract spell their glyphs, kind after kind. -/
theorem Contract.prints_members
    (henums : ∀ name ∈ enums, IsDeclarable name)
    {c : Contract}
    (h : c.Printable enums) :
    PrintsGroups 1
      ([c.fields.map Field.fragment] ++
        eachAlone Structure.fragment c.definitions.structures ++
        eachAlone Enumeration.fragment c.definitions.enumerations ++
        [c.definitions.events.map Event.fragment] ++
        [c.definitions.errors.map ErrorDefinition.fragment] ++
        eachAlone Modifier.fragment c.definitions.modifiers ++
        eachAlone Function.fragment c.definitions.functions)
      (c.memberGlyphs 2) := by
  refine .append (.append (.append (.append (.append (.append ?_ ?_) ?_) ?_) ?_) ?_) ?_
  · exact printsGroups_one (prints_flatMap fun f hf => Field.prints henums (h.fields f hf))
  · exact printsGroups_eachAlone fun s hs => Structure.prints henums (h.data.structures s hs)
  · exact printsGroups_eachAlone fun e he => Enumeration.prints (h.data.enumerations e he)
  · exact printsGroups_one
      (prints_flatMap fun e he => Event.prints henums (h.data.events e he))
  · exact printsGroups_one
      (prints_flatMap fun e he => ErrorDefinition.prints henums (h.data.errors e he))
  · exact printsGroups_eachAlone fun m hm => Modifier.prints henums (h.modifiers m hm)
  · exact printsGroups_eachAlone fun f hf => Function.prints henums (h.functions f hf)

/-- The lines of a contract spell its glyphs. -/
theorem Contract.prints
    (henums : ∀ name ∈ enums, IsDeclarable name)
    {c : Contract}
    (h : c.Printable enums) :
    Prints 0 [c.fragment] c.glyphs := by
  have hname : SpellsApart ((if c.isAbstract then "abstract contract " else "contract ") ++ c.name)
      ((if c.isAbstract then [word "abstract"] else []) ++ [word "contract", word c.name]) := by
    cases c.isAbstract with
    | false =>
        exact (spells_keyword "contract" rfl).appendApart
          (spellsApart_word c.name h.name.isIdentifier)
    | true =>
        exact ((spells_keyword "abstract" rfl).append (spells_keyword "contract" rfl)).appendApart
          (spellsApart_word c.name h.name.isIdentifier)
  have hheader := spellsApart_bases h.bases hname
  have hall := prints_bracedOrEmpty hheader (c.prints_members henums h).separated
  simpa [Contract.fragment, Contract.glyphs, Contract.headerGlyphs] using hall

/-- The glyphs of the members of an interface. -/
def Interface.memberGlyphs (i : Interface) : List Glyph :=
  i.definitions.structures.flatMap Structure.glyphs ++
    i.definitions.enumerations.flatMap Enumeration.glyphs ++
    i.definitions.events.flatMap Event.glyphs ++
    i.definitions.errors.flatMap ErrorDefinition.glyphs ++
    i.definitions.functions.flatMap Function.declarationGlyphs

/-- The glyphs of an interface. -/
def Interface.glyphs (i : Interface) : List Glyph :=
  word "interface" :: word i.name :: (basesGlyphs i.parents ++
    sign "\x7b" :: (i.memberGlyphs ++ [sign "\x7d"]))

/-- The members of an interface spell their glyphs, kind after kind. -/
theorem Interface.prints_members
    (henums : ∀ name ∈ enums, IsDeclarable name)
    {i : Interface}
    (h : i.Printable enums) :
    PrintsGroups 1
      (eachAlone Structure.fragment i.definitions.structures ++
        eachAlone Enumeration.fragment i.definitions.enumerations ++
        [i.definitions.events.map Event.fragment] ++
        [i.definitions.errors.map ErrorDefinition.fragment] ++
        [i.definitions.functions.map fun f => .line (signature f ++ ";")])
      i.memberGlyphs := by
  have hfunction : ∀ f ∈ i.definitions.functions,
      Prints 1 [.line (signature f ++ ";")] f.declarationGlyphs :=
    fun f hf => Function.prints_declaration henums (h.functions f hf)
  refine .append (.append (.append (.append ?_ ?_) ?_) ?_) ?_
  · exact printsGroups_eachAlone fun s hs => Structure.prints henums (h.data.structures s hs)
  · exact printsGroups_eachAlone fun e he => Enumeration.prints (h.data.enumerations e he)
  · exact printsGroups_one
      (prints_flatMap fun e he => Event.prints henums (h.data.events e he))
  · exact printsGroups_one
      (prints_flatMap fun e he => ErrorDefinition.prints henums (h.data.errors e he))
  · exact printsGroups_one (prints_flatMap hfunction)

/-- The lines of an interface spell its glyphs. -/
theorem Interface.prints
    (henums : ∀ name ∈ enums, IsDeclarable name)
    {i : Interface}
    (h : i.Printable enums) :
    Prints 0 [i.fragment] i.glyphs := by
  have hname := (spells_keyword "interface" rfl).appendApart
    (spellsApart_word i.name h.name.isIdentifier)
  have hheader := spellsApart_bases h.parents hname
  have hall := prints_bracedOrEmpty hheader (i.prints_members henums h).separated
  simpa [Interface.fragment, Interface.glyphs] using hall

/-- The glyphs of the definitions of a file. -/
def Definitions.glyphs (d : Definitions) : List Glyph :=
  d.enumerations.flatMap Enumeration.glyphs ++ d.structures.flatMap Structure.glyphs ++
    d.events.flatMap Event.glyphs ++ d.errors.flatMap ErrorDefinition.glyphs ++
    d.interfaces.flatMap Interface.glyphs ++ d.contracts.flatMap Contract.glyphs ++
    d.functions.flatMap (Function.glyphs 1)

/-- The definitions of a file spell their glyphs, kind after kind. -/
theorem SourceUnit.prints_definitions
    {u : SourceUnit}
    (henums : ∀ name ∈ u.enumerationNames, IsDeclarable name)
    (h : u.Printable) :
    PrintsGroups 0 u.definitions.groups u.definitions.glyphs := by
  have hmodifiers : PrintsGroups 0 (eachAlone Modifier.fragment u.definitions.modifiers) [] := by
    intro before hs hbefore
    simpa [h.modifiers, eachAlone, Fragment.separatedFrom] using hbefore
  rw [← List.append_nil u.definitions.glyphs]
  refine .append (.append (.append (.append (.append (.append (.append ?_ ?_) ?_) ?_) ?_) ?_) ?_)
    hmodifiers
  · exact printsGroups_eachAlone fun e he => Enumeration.prints (h.data.enumerations e he)
  · exact printsGroups_eachAlone fun s hs => Structure.prints henums (h.data.structures s hs)
  · exact printsGroups_one
      (prints_flatMap fun e he => Event.prints henums (h.data.events e he))
  · exact printsGroups_one
      (prints_flatMap fun e he => ErrorDefinition.prints henums (h.data.errors e he))
  · exact printsGroups_eachAlone fun i hi => Interface.prints henums (h.interfaces i hi)
  · exact printsGroups_eachAlone fun c hc => Contract.prints henums (h.contracts c hc)
  · exact printsGroups_eachAlone fun f hf => Function.prints henums (h.functions f hf)

/-- The glyphs of an import. -/
def importGlyphs (path : String) : List Glyph :=
  [word "import", .token (.stringLiteral path), sign ";"]

/-- The line of an import spells a keyword, a string and a semicolon. -/
theorem prints_import
    {level : Nat} {path : String}
    (h : IsQuotable path) :
    Prints level [.line ("import \"" ++ path ++ "\";")] (importGlyphs path) := by
  have hpath := (spells_keyword "import" rfl).append (spells_literal h)
  have hall := hpath.append closes_semicolon.spells
  have htext : "import \"" ++ path ++ "\";" =
      "import" ++ " " ++ ("\"" ++ path ++ "\"") ++ ";" := by
    rw [← String.toList_inj]
    simp
  rw [htext]
  exact prints_line hall.apart

/-- The glyphs of the version pragma. -/
def pragmaGlyphs (text : String) : List Glyph :=
  [word "pragma", word "solidity", stretchGlyph text, sign ";"]

/-- The line of a pragma spells two keywords, the text of the pragma and a semicolon. -/
theorem prints_pragma
    {level : Nat} {text : String}
    (h : IsStretch text) :
    Prints level [.line ("pragma solidity " ++ text ++ ";")] (pragmaGlyphs text) := by
  have hhead := (spells_keyword "pragma" rfl).append (spells_keyword "solidity" rfl)
  have htext := hhead.appendApart (spellsApart_isStretch h)
  have hall := htext.close closes_semicolon
  exact prints_line hall.apart

end Files

end Target
end ContractGen
