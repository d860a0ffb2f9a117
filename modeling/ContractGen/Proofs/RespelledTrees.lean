import ContractGen.Proofs.EnumTypes
import ContractGen.Proofs.PartialReading
import ContractGen.Proofs.TypesReadBack

/-!
# Trees with their texts respelled

A tree that is read keeps some texts as they are written: the pragma, the initializers of state
variables and the sizes of arrays. Two texts with the same tokens give trees that differ in the
blanks and comments inside these texts, and in the license, which a comment names. Respelling a
tree writes the tokens of such a text with single spaces, and drops the license.

**Definitions.**
* `Says`: the tokens that a text is made of.
* `respell`, `SourceUnit.respelled`: texts and trees without their spelling.
* `respelling`: excerpts of two texts are made of the same tokens.

**Results.**
* `twins_of_tokens`: the tokens of two texts have excerpts that are respelled in the same way.
* `respelled_unit_eq`: declarations that look the same make up trees that are respelled in the same
  way.
-/

namespace ContractGen
namespace Source

open Target

/-! ## What a text says -/

/-- The tokens of a glyph. -/
def Glyph.tokens : Glyph → List Token
  | token t => [t]
  | stretch _ tokens => tokens

/-- A text is made of some tokens, if it stands apart. -/
def Says (text : String) (ts : List Token) : Prop :=
  ∃ gs, SpellsApart text gs ∧ gs.flatMap Glyph.tokens = ts

section Says

variable {text size : String} {ts us : List Token}

theorem Shows.tokens
    {src : SourceText}
    {gs : List Glyph}
    {input : List Lexeme}
    (h : Shows src gs input) :
    input.map Lexeme.token = gs.flatMap Glyph.tokens := by
  induction h with
  | nil =>
      rfl
  | token _ ih =>
      rw [List.map_cons, ih, List.flatMap_cons]
      rfl
  | stretch _ _ ih =>
      rw [List.map_append, ih, List.flatMap_cons]
      rfl

theorem Says.readableTokens
    (h : Says text ts) :
    readableTokens text = ts := by
  obtain ⟨gs, hspells, rfl⟩ := h
  have hscans : Scans text.toList gs := by
    simpa using hspells [] [] (by simp [Breaks]) scans_nil
  obtain ⟨ls, hscan, hshows⟩ := hscans.scan_eq
  rw [Source.readableTokens, tokensOf, hscan, ← (hshows {}).tokens, map_token_filter]

theorem says_empty :
    Says "" [] :=
  ⟨[], spells_empty.apart, rfl⟩

theorem says_word
    {name : String}
    (h : isIdentifier name = true) :
    Says name [.identifier name] :=
  ⟨_, spellsApart_word name h, rfl⟩

theorem Says.dot
    {name : String}
    (hname : isIdentifier name = true)
    (h : Says text ts) :
    Says (name ++ "." ++ text) (.identifier name :: .symbol "." :: ts) := by
  obtain ⟨gs, hspells, rfl⟩ := h
  exact ⟨_, spellsApart_dot hname hspells, rfl⟩

theorem Says.sized
    (h : Says text ts)
    (hsize : Says size us) :
    Says (text ++ "[" ++ size ++ "]") (ts ++ (.symbol "[" :: us) ++ [.symbol "]"]) := by
  obtain ⟨gs, hspells, rfl⟩ := h
  obtain ⟨hs, hspellsSize, rfl⟩ := hsize
  have hopen := (hspells.close closes_openBracket).appendApart hspellsSize
  exact ⟨_, (hopen.close closes_closeBracket).apart, by simp [sign, Glyph.tokens]⟩

theorem Says.array
    (h : Says text ts) :
    Says (text ++ "[]") (ts ++ [.symbol "[", .symbol "]"]) := by
  obtain ⟨gs, hspells, rfl⟩ := h
  exact ⟨_, (hspells.close closes_brackets).apart, by simp [sign, Glyph.tokens]⟩

theorem Says.mapping
    {value : String}
    (h : Says text ts)
    (hvalue : Says value us) :
    Says ("mapping(" ++ text ++ " => " ++ value ++ ")")
      (.identifier "mapping" :: .symbol "(" :: (ts ++ .symbol "=>" :: us ++ [.symbol ")"])) := by
  obtain ⟨gs, hspells, rfl⟩ := h
  obtain ⟨hs, hspellsValue, rfl⟩ := hvalue
  have hopen := (spells_mappingOpen.appendApart hspells).close closes_mapsTo
  have hclose := (hopen.appendApart hspellsValue).close closes_close
  exact ⟨_, hclose.apart, by simp [word, sign, Glyph.tokens]⟩

theorem Says.payable
    (h : Says text ts) :
    Says (text ++ " payable") (ts ++ [.identifier "payable"]) := by
  obtain ⟨gs, hspells, rfl⟩ := h
  have hmark : SpellsApart (text ++ " " ++ "payable") (gs ++ [word "payable"]) :=
    hspells.mark (by decide)
  rw [String.append_assoc] at hmark
  exact ⟨_, hmark, by simp [word, Glyph.tokens]⟩

end Says

/-! ## Respelled texts and trees -/

/-- The tokens of a text with single spaces between them, and without its comments. -/
def respell (text : String) : String :=
  " ".intercalate ((readableTokens text).map Token.describe)

end Source

namespace Target

open Source (respell)

/-- A type with the sizes of its arrays respelled; these are part of a name in brackets. -/
def TypeExpr.respelled : TypeExpr → TypeExpr
  | named name => if '[' ∈ name.toList then named (respell name) else named name
  | enumeration name => if '[' ∈ name.toList then named (respell name) else enumeration name
  | mapping key value => mapping key.respelled value.respelled
  | array element => array element.respelled

/-- A state variable with its type and initializer respelled. -/
def Field.respelled (f : Field) : Field :=
  { f with type := f.type.respelled, initializer := f.initializer.map respell }

/-- A contract with its types and initializers respelled. -/
def Contract.respelled (c : Contract) : Contract :=
  { c with
    fields := c.fields.map Field.respelled
    definitions := c.definitions.mapTypes TypeExpr.respelled }

/-- A unit without its license, and with its pragma, types and initializers respelled. -/
def SourceUnit.respelled (unit : SourceUnit) : SourceUnit :=
  { unit with
    license := ""
    pragma := respell unit.pragma
    definitions := { unit.definitions.mapTypes TypeExpr.respelled with
      contracts := unit.definitions.contracts.map Contract.respelled } }

end Target

namespace Source

open Target

/-! ## Excerpts with the same tokens -/

/-- Excerpts of two texts are made of the same tokens. -/
def respelling : Likeness where
  SameText s t := ∃ ts, Says s ts ∧ Says t ts
  IsName name := isIdentifier name = true

section Respelling

variable {a b : TypeExpr} {enums : List String}

theorem respell_eq
    {s t : String}
    (h : respelling.SameText s t) :
    respell s = respell t := by
  obtain ⟨ts, hs, ht⟩ := h
  rw [respell, respell, hs.readableTokens, ht.readableTokens]

theorem IsQualified.exists_tokens
    {name : String}
    (h : IsQualified respelling.IsName name) :
    ∃ ts, Says name ts := by
  induction h with
  | one h =>
      exact ⟨_, says_word h⟩
  | dot h _ ih =>
      obtain ⟨ts, hts⟩ := ih
      exact ⟨_, hts.dot h⟩

/-- Alike types are written with the same tokens. -/
theorem sameText_of_alike
    (h : respelling.Alike a b) :
    respelling.SameText a.text b.text := by
  induction h with
  | named h =>
      obtain ⟨ts, hts⟩ := h.exists_tokens
      exact ⟨ts, hts, hts⟩
  | sized _ hsize ih =>
      obtain ⟨ts, ha, hb⟩ := ih
      obtain ⟨us, hs, ht⟩ := hsize
      exact ⟨_, ha.sized hs, hb.sized ht⟩
  | mapping _ _ ihKey ihValue =>
      obtain ⟨ts, hkey, hkey'⟩ := ihKey
      obtain ⟨us, hvalue, hvalue'⟩ := ihValue
      exact ⟨_, hkey.mapping hvalue, hkey'.mapping hvalue'⟩
  | array _ ih =>
      obtain ⟨ts, ha, hb⟩ := ih
      exact ⟨_, ha.array, hb.array⟩
  | payable _ ih =>
      obtain ⟨ts, ha, hb⟩ := ih
      exact ⟨_, ha.payable, hb.payable⟩

/-- Alike types that are written differently have brackets. -/
theorem bracket_of_alike
    (h : respelling.Alike a b) :
    a.text = b.text ∨ ('[' ∈ a.text.toList ∧ '[' ∈ b.text.toList) := by
  induction h with
  | named _ =>
      exact .inl rfl
  | sized _ _ _ =>
      exact .inr (by simp [TypeExpr.text])
  | mapping _ _ ihKey ihValue =>
      rcases ihKey with hkey | ⟨hkey, hkey'⟩
      · rcases ihValue with hvalue | ⟨hvalue, hvalue'⟩
        · exact .inl (by rw [TypeExpr.text, TypeExpr.text, hkey, hvalue])
        · exact .inr (by simp [TypeExpr.text, hvalue, hvalue'])
      · exact .inr (by simp [TypeExpr.text, hkey, hkey'])
  | array _ _ =>
      exact .inr (by simp [TypeExpr.text])
  | payable _ ih =>
      rcases ih with h | ⟨h, h'⟩
      · exact .inl (by rw [TypeExpr.text, TypeExpr.text, h])
      · exact .inr (by simp [TypeExpr.text, h, h'])

/-- No name with a bracket is told apart from an enum. -/
theorem respelled_resolve_named
    {name : String}
    (h : '[' ∈ name.toList) :
    ((TypeExpr.named name).resolve enums).respelled = .named (respell name) := by
  rw [TypeExpr.resolve]
  split
  · rw [TypeExpr.respelled, if_pos h]
  · rw [TypeExpr.respelled, if_pos h]

theorem respelled_resolve_of_alike
    (h : respelling.Alike a b) :
    (a.resolve enums).respelled = (b.resolve enums).respelled := by
  have hnamed {s t : String} (h : respelling.Alike (.named s) (.named t)) :
      ((TypeExpr.named s).resolve enums).respelled =
        ((TypeExpr.named t).resolve enums).respelled := by
    rcases bracket_of_alike h with heq | ⟨hs, ht⟩
    · exact congrArg (fun s => ((TypeExpr.named s).resolve enums).respelled) heq
    · calc ((TypeExpr.named s).resolve enums).respelled
          = .named (respell s) := respelled_resolve_named hs
        _ = .named (respell t) := congrArg _ (respell_eq (sameText_of_alike h))
        _ = ((TypeExpr.named t).resolve enums).respelled := (respelled_resolve_named ht).symm
  induction h with
  | named h =>
      rfl
  | sized h hsize =>
      exact hnamed (.sized h hsize)
  | mapping _ _ ihKey ihValue =>
      rw [TypeExpr.resolve, TypeExpr.resolve, TypeExpr.respelled, TypeExpr.respelled, ihKey, ihValue]
  | array _ ih =>
      rw [TypeExpr.resolve, TypeExpr.resolve, TypeExpr.respelled, TypeExpr.respelled, ih]
  | payable h =>
      exact hnamed (.payable h)

/-- The view of trees that are respelled once their enums are known. -/
def respelledView (enums : List String) : respelling.View where
  type a := (a.resolve enums).respelled
  text := respell
  type_eq := respelled_resolve_of_alike
  text_eq := respell_eq

end Respelling

/-! ## Tokens of two texts -/

section Twins

variable {src src' : SourceText} {lexemes lexemes' : List Lexeme}
variable {before own after before' own' after' : List Lexeme}

/-- A part of the readable tokens of a text is what its excerpt says. -/
theorem says_excerpt
    (htiles : Tiles src.chars lexemes)
    (h : lexemes.filter Lexeme.isReadable = before ++ (own ++ after)) :
    Says (src.excerpt own) (own.map Lexeme.token) := by
  cases own with
  | nil =>
      exact says_empty
  | cons l own =>
      obtain ⟨htrim, hspells⟩ := spellsApart_excerpt htiles h (by simp)
      rw [SourceText.excerpt, htrim]
      exact ⟨_, hspells, by simp [Glyph.tokens]⟩

theorem says_part
    (htiles : Tiles src.chars lexemes)
    (h : lexemes.filter Lexeme.isReadable = before ++ (own ++ after))
    (skipped taken : Nat) :
    Says (src.excerpt ((own.drop skipped).take taken))
      (((own.drop skipped).take taken).map Lexeme.token) := by
  have hpart : lexemes.filter Lexeme.isReadable = (before ++ own.take skipped) ++
      ((own.drop skipped).take taken ++ ((own.drop skipped).drop taken ++ after)) := by
    rw [h, List.append_assoc, ← List.append_assoc ((own.drop skipped).take taken),
      List.take_append_drop, ← List.append_assoc (own.take skipped), List.take_append_drop]
  exact says_excerpt htiles hpart

/-- The same tokens of two texts have excerpts with the same tokens. -/
theorem twins_of_tokens
    {later later' : List Lexeme}
    (htiles : Tiles src.chars lexemes)
    (htiles' : Tiles src'.chars lexemes')
    (h : lexemes.filter Lexeme.isReadable = before ++ (own ++ after))
    (h' : lexemes'.filter Lexeme.isReadable = before' ++ (own' ++ after'))
    (htokens : own'.map Lexeme.token = own.map Lexeme.token) :
    Pairing.Twins (k := respelling) ⟨src, src', later, later'⟩ own own' where
  tokens := htokens
  names := by
    intro l hl name hname
    have hinput : IsInput src (lexemes.filter Lexeme.isReadable) :=
      ⟨lexemes, htiles, List.suffix_refl _⟩
    refine hinput.isIdentifier ?_ hname
    rw [h]
    simp [hl]
  texts := by
    intro skipped taken
    have hspelled' := says_part htiles' h' skipped taken
    rw [List.map_take, List.map_drop, htokens, ← List.map_drop, ← List.map_take] at hspelled'
    exact ⟨_, says_part htiles h skipped taken, hspelled'⟩

end Twins

/-! ## Units that look the same -/

/-- A view of the definitions of a file; only its contracts have state variables. -/
def Likeness.View.definitions {k : Likeness} (v : k.View) (d : Definitions) : Definitions :=
  { d.mapTypes v.type with contracts := d.contracts.map v.contract }

/-- A view of a unit, without its license. -/
def Likeness.View.unit {k : Likeness} (v : k.View) (unit : SourceUnit) : SourceUnit :=
  { unit with
    license := ""
    pragma := v.text unit.pragma
    definitions := v.definitions unit.definitions }

section Units

variable {k : Likeness} {v : k.View} {unit unit' : SourceUnit}

theorem addToUnit_eq
    {i i' : Item}
    (hunit : v.unit unit = v.unit unit')
    (h : SameItem v i i') :
    v.unit (i.addToUnit unit) = v.unit (i'.addToUnit unit') := by
  obtain ⟨name, license, pragma, imports, ⟨contracts, interfaces, structures, enumerations, events,
    errors, functions, modifiers⟩⟩ := unit
  obtain ⟨name', license', pragma', imports', ⟨contracts', interfaces', structures', enumerations',
    events', errors', functions', modifiers'⟩⟩ := unit'
  simp only [Likeness.View.unit, Likeness.View.definitions, Definitions.mapTypes,
    Interface.listMapTypes_eq, SourceUnit.mk.injEq, Definitions.mk.injEq] at hunit
  obtain ⟨hname, -, hpragma, himports, hcontracts, hinterfaces, hstructures, henumerations, hevents,
    herrors, hfunctions, hmodifiers⟩ := hunit
  cases h with
  | member h =>
      cases h <;>
        simp only [Item.addToUnit, Item.addTo, Likeness.View.unit, Likeness.View.definitions,
          Definitions.mapTypes, Interface.listMapTypes_eq, List.map_append, List.map_cons,
          List.map_nil, *]
  | pragma h =>
      simp only [Item.addToUnit, Likeness.View.unit, Likeness.View.definitions,
        Definitions.mapTypes, Interface.listMapTypes_eq, *]
  | importing path =>
      simp only [Item.addToUnit, Likeness.View.unit, Likeness.View.definitions,
        Definitions.mapTypes, Interface.listMapTypes_eq, *]
  | contract h =>
      simp only [Item.addToUnit, Item.addTo, Likeness.View.unit, Likeness.View.definitions,
        Definitions.mapTypes, Interface.listMapTypes_eq, List.map_append, List.map_cons,
        List.map_nil, *]
  | interface h =>
      simp only [Item.addToUnit, Item.addTo, Likeness.View.unit, Likeness.View.definitions,
        Definitions.mapTypes, Interface.listMapTypes_eq, List.map_append, List.map_cons,
        List.map_nil, *]

/-- Declarations that look the same make up units that look the same. -/
theorem foldl_addToUnit_eq
    {items items' : List Item}
    (hunit : v.unit unit = v.unit unit')
    (h : List.Forall₂ (SameItem v) items items') :
    v.unit (items.foldl Item.addToUnit unit) = v.unit (items'.foldl Item.addToUnit unit') := by
  induction h generalizing unit unit' with
  | nil =>
      exact hunit
  | cons hhead _ ih =>
      exact ih (addToUnit_eq hunit hhead)

/-- Units that look the same declare the same enums. -/
theorem enumerationNames_eq
    (h : v.unit unit = v.unit unit') :
    unit.enumerationNames = unit'.enumerationNames := by
  have hcontracts (cs : List Contract) :
      Contract.listEnumerationNames (cs.map v.contract) = Contract.listEnumerationNames cs := by
    induction cs with
    | nil =>
        rfl
    | cons c cs ih =>
        obtain ⟨_, _, _, _, _, definitions⟩ := c
        simp only [List.map_cons, Contract.listEnumerationNames, Likeness.View.contract,
          Contract.enumerationNames, Definitions.enumerationNames_mapTypes, ih]
  have hview (unit : SourceUnit) : (v.unit unit).enumerationNames = unit.enumerationNames := by
    obtain ⟨_, _, _, _, ⟨contracts, interfaces, _, _, _, _, _, _⟩⟩ := unit
    simp only [SourceUnit.enumerationNames, Likeness.View.unit, Likeness.View.definitions,
      Definitions.mapTypes, Definitions.enumerationNames, hcontracts,
      Interface.listEnumerationNames_mapTypes]
  rw [← hview unit, ← hview unit', h]

/-- The view of respelled trees is what respelling makes of a unit whose enums are known. -/
theorem respelled_resolveEnumerations
    (enums : List String)
    (unit : SourceUnit) :
    (unit.resolveEnumerations enums).respelled = (respelledView enums).unit unit := by
  obtain ⟨_, _, _, _, ⟨contracts, _, _, _, _, _, _, _⟩⟩ := unit
  have hcontract (c : Contract) :
      (c.mapTypes (TypeExpr.resolve enums)).respelled = (respelledView enums).contract c := by
    obtain ⟨_, _, _, _, fields, definitions⟩ := c
    simp only [Contract.mapTypes, Contract.respelled, Likeness.View.contract, List.map_map,
      Definitions.mapTypes_mapTypes]
    rfl
  have hcontracts : (Contract.listMapTypes (TypeExpr.resolve enums) contracts).map
      Contract.respelled = contracts.map (respelledView enums).contract := by
    rw [Contract.listMapTypes_eq, List.map_map]
    exact List.map_congr_left fun c _ => hcontract c
  simp only [SourceUnit.resolveEnumerations, SourceUnit.respelled, Likeness.View.unit,
    Likeness.View.definitions, Definitions.mapTypes_mapTypes]
  rw [← hcontracts]
  rfl

/-- Units whose declarations look the same are respelled in the same way. -/
theorem respelled_unit_eq
    {items items' : List Item}
    {start start' : SourceUnit}
    (hstart : ∀ v : respelling.View, v.unit start = v.unit start')
    (h : ∀ enums, List.Forall₂ (SameItem (respelledView enums)) items items') :
    (items.foldl Item.addToUnit start).resolveOwnEnumerations.respelled =
      (items'.foldl Item.addToUnit start').resolveOwnEnumerations.respelled := by
  have hunit (enums : List String) :=
    foldl_addToUnit_eq (hstart (respelledView enums)) (h enums)
  rw [SourceUnit.resolveOwnEnumerations, SourceUnit.resolveOwnEnumerations,
    respelled_resolveEnumerations, respelled_resolveEnumerations, ← enumerationNames_eq (hunit [])]
  exact hunit _

end Units

end Source
end ContractGen
