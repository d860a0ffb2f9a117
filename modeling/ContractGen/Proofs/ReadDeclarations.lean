import ContractGen.Proofs.ReadTypes

/-!
# Reading single declarations back

What the readers of functions, modifiers and data declarations make of the glyphs of printed ones.

**Results.**
* `readFunction_yields`, `readModifier_yields`: callables are read without their statements.
* `readField_yields`, `readStruct_yields`, `readEnum_yields`, `readEvent_yields`,
  `readErrorDefinition_yields`: data declarations are read up to their enums.
-/

namespace ContractGen
namespace Source

open Target

/-! ## Functions and modifiers -/

section Callables

variable {src : SourceText} {gs hs : List Glyph} {enums : List String} {context : String}
  {f f' : Function} {m m' : Modifier}

theorem readFunctionTail_plain
    {name : String}
    (hname : name ∈ plainQualifiers)
    (h : Yields src (readFunctionTail src context (qualify f name)) gs f' hs) :
    Yields src (readFunctionTail src context f) (word name :: gs) f' hs := by
  intro input hshows
  obtain ⟨l, rest, rfl, hl, hrest⟩ := shows_token.mp hshows
  obtain ⟨left, hleft, hok, hshown⟩ := h rest hrest
  have hplain : ∀ name ∈ plainQualifiers, name ≠ "returns" ∧ name ≠ "override" := by
    decide
  obtain ⟨hreturns, hoverride⟩ := hplain name hname
  have hskip : skipQualifierArguments src context name rest = .ok (.whole rest) := by
    simp [skipQualifierArguments, hoverride, hname]
  refine ⟨left, Reading.lt_cons_of_lt hleft, ?_, hshown⟩
  rw [readFunctionTail]
  simp [hl, hskip, Left.whole, hok, bind, Except.bind, pure, Except.pure]

theorem readFunctionTail_override
    (hlead : Leads (· ≠ .symbol "(") gs)
    (h : Yields src (readFunctionTail src context { f with isOverride := true }) gs f' hs) :
    Yields src (readFunctionTail src context f) (word "override" :: gs) f' hs := by
  intro input hshows
  obtain ⟨l, rest, rfl, hl, hrest⟩ := shows_token.mp hshows
  obtain ⟨left, hleft, hok, hshown⟩ := h rest hrest
  have hskip : skipQualifierArguments src context "override" rest = .ok (.whole rest) := by
    simp [skipQualifierArguments, skipArguments_none hlead hrest]
  refine ⟨left, Reading.lt_cons_of_lt hleft, ?_, hshown⟩
  rw [readFunctionTail]
  simp [hl, hskip, Left.whole, qualify, hok, bind, Except.bind, pure, Except.pure]

theorem readFunctionTail_returns
    {pgs : List Glyph} {raw : List RawParameter} {types : List TypeExpr}
    (hraw : raw.map (fun p => p.type.parameterType) = types)
    (hread : Yields src (readParameterList src) (sign "(" :: (pgs ++ sign ")" :: gs)) raw gs)
    (h : Yields src (readFunctionTail src context { f with returns := types }) gs f' hs) :
    Yields src (readFunctionTail src context f)
      (word "returns" :: sign "(" :: (pgs ++ sign ")" :: gs)) f' hs := by
  intro input hshows
  obtain ⟨l, rest, rfl, hl, hrest⟩ := shows_token.mp hshows
  obtain ⟨next, hnext, hok, hshown⟩ := hread rest hrest
  obtain ⟨left, hleft, hok', hshown'⟩ := h next hshown
  refine ⟨left, Reading.lt_cons_of_lt (Reading.lt_of_lt_lt hnext hleft), ?_, hshown'⟩
  rw [readFunctionTail]
  simp [hl, hok, hraw, hok', bind, Except.bind, pure, Except.pure]

/-- A function ends with a semicolon or a braced body; both leave it as it is. -/
theorem readFunctionTail_semicolon :
    Yields src (readFunctionTail src context f) (sign ";" :: hs) f hs := by
  intro input hshows
  obtain ⟨l, rest, rfl, hl, hrest⟩ := shows_token.mp hshows
  refine ⟨rest, Reading.rest_lt, ?_, hrest⟩
  rw [readFunctionTail]
  simp [hl]

theorem readFunctionTail_body
    {ts : List Token}
    (hnests : Nests ts) :
    Yields src (readFunctionTail src context f)
      (sign "\x7b" :: (ts.map Glyph.token ++ sign "\x7d" :: hs)) f hs := by
  intro input hshows
  obtain ⟨left, hleft, hok, hshown⟩ := skipBalanced_yields context hnests input hshows
  obtain ⟨l, rest, rfl, hl, -⟩ := shows_token.mp hshows
  refine ⟨left, hleft, ?_, hshown⟩
  rw [readFunctionTail]
  simp [hl, hok, bind, Except.bind, pure, Except.pure]

theorem qualify_visibility
    (f : Function)
    (v : Visibility) :
    qualify f v.keyword = { f with visibility := v } := by
  cases v <;> rfl

theorem qualify_mutability
    (f : Function)
    (m : Mutability) :
    qualify f m.keyword = { f with mutability := some m } := by
  cases m <;> rfl

theorem mem_plainQualifiers_visibility
    (v : Visibility) :
    v.keyword ∈ plainQualifiers := by
  cases v <;> decide

theorem mem_plainQualifiers_mutability
    (m : Mutability) :
    m.keyword ∈ plainQualifiers := by
  cases m <;> decide

theorem readFunctionTail_mutability
    {mutability : Option Mutability}
    (hf : f.mutability = none)
    (h : Yields src (readFunctionTail src context { f with mutability }) gs f' hs) :
    Yields src (readFunctionTail src context f) (mutabilityGlyphs mutability ++ gs) f' hs := by
  cases mutability with
  | none =>
      rw [← hf] at h
      exact h
  | some mutability =>
      refine readFunctionTail_plain (mem_plainQualifiers_mutability mutability) ?_
      rw [qualify_mutability]
      exact h

theorem readFunctionTail_marks
    {isVirtual isOverride : Bool}
    (hf : f.isVirtual = false ∧ f.isOverride = false)
    (hlead : Leads (· ≠ .symbol "(") gs)
    (h : Yields src (readFunctionTail src context { f with isVirtual, isOverride }) gs f' hs) :
    Yields src (readFunctionTail src context f) (overrideGlyphs isVirtual isOverride ++ gs) f'
      hs := by
  have hoverride : Yields src (readFunctionTail src context { f with isVirtual })
      ((if isOverride then [word "override"] else []) ++ gs) f' hs := by
    cases isOverride with
    | false =>
        rw [← hf.2] at h
        exact h
    | true =>
        exact readFunctionTail_override hlead h
  cases isVirtual with
  | false =>
      rw [← hf.1] at hoverride
      exact hoverride
  | true =>
      exact readFunctionTail_plain (by decide) hoverride

/-- A return list is read if its types are; there is none if no type is returned. -/
theorem readFunctionTail_returnList
    {gss : List (List Glyph)} {raw : List RawParameter} {types : List TypeExpr}
    (hraw : raw.map (fun p => p.type.parameterType) = types)
    (hempty : gss = [] → types = [])
    (hf : f.returns = [])
    (hread : Yields src (readParameterList src) (sign "(" :: (commaGlyphs gss ++ sign ")" :: gs))
      raw gs)
    (h : Yields src (readFunctionTail src context { f with returns := types }) gs f' hs) :
    Yields src (readFunctionTail src context f) (returnListGlyphs gss ++ gs) f' hs := by
  cases gss with
  | nil =>
      rw [hempty rfl, ← hf] at h
      exact h
  | cons first gss =>
      simpa [returnListGlyphs] using readFunctionTail_returns hraw hread h

theorem readFunctionTail_types
    (henums : ∀ name ∈ enums, IsDeclarable name)
    {types : List TypeExpr}
    (htypes : ∀ type ∈ types, type.Passable enums)
    (hf : f.returns = [])
    (h : Yields src (readFunctionTail src context { f with returns := types.map TypeExpr.forget })
      gs f' hs) :
    Yields src (readFunctionTail src context f) (returnsGlyphs types ++ gs) f' hs := by
  obtain ⟨raw, hraw, hread⟩ := readReturns_yields src gs henums htypes
  rw [returnsGlyphs_eq]
  exact readFunctionTail_returnList hraw (by simp) hf hread h

theorem leads_returnList
    {gss : List (List Glyph)}
    (hlead : Leads (· ≠ .symbol "(") gs) :
    Leads (· ≠ .symbol "(") (returnListGlyphs gss ++ gs) := by
  cases gss with
  | nil =>
      exact hlead
  | cons first gss =>
      exact leads_token (by simp)

/-- A function is read off its header, if its parameters and its return list are. -/
theorem readFunction_header
    {f g : Function} {parameters returns : List Glyph}
    (visibility : Visibility)
    (hparameters : ∀ later, Yields src (readParameters src) (sign "(" :: (parameters ++ sign ")" ::
      later)) g.parameters later)
    (hreturns : ∀ k : Function, k.returns = [] →
      Yields src (readFunctionTail src ("function " ++ f.name) { k with returns := g.returns }) gs
      g hs → Yields src (readFunctionTail src ("function " ++ f.name) k) (returns ++ gs) g hs)
    (hlead : Leads (· ≠ .symbol "(") (returns ++ gs))
    (hending : Yields src (readFunctionTail src ("function " ++ f.name) g) gs g hs)
    (hg : g = { f with parameters := g.parameters, returns := g.returns, statements := [] }) :
    Yields src (readFunction src visibility) ((f.headerWith parameters returns).tail ++ gs) g
      hs := by
  intro input hshows
  simp only [Function.headerWith, List.tail_cons, List.cons_append, List.append_assoc] at hshows
  obtain ⟨r₁, h₁, hok₁, hs₁⟩ := readIdentifier_yields "a function name" f.name input hshows
  obtain ⟨r₂, h₂, hok₂, hs₂⟩ := hparameters _ r₁ hs₁
  have htail : Yields src
      (readFunctionTail src ("function " ++ f.name)
        { name := f.name, visibility, parameters := g.parameters })
      (word f.visibility.keyword :: (mutabilityGlyphs f.mutability ++
        (overrideGlyphs f.isVirtual f.isOverride ++ (returns ++ gs)))) g hs := by
    refine readFunctionTail_plain (mem_plainQualifiers_visibility f.visibility) ?_
    rw [qualify_visibility]
    refine readFunctionTail_mutability rfl ?_
    refine readFunctionTail_marks ⟨rfl, rfl⟩ hlead ?_
    refine hreturns _ rfl ?_
    rw [← hg]
    exact hending
  obtain ⟨r₃, h₃, hok₃, hs₃⟩ := htail r₂ hs₂
  refine ⟨r₃, Reading.lt_of_lt_lt (Reading.lt_of_lt_lt h₁ h₂) h₃, ?_, hs₃⟩
  simp [readFunction, hok₁, hok₂, hok₃, bind, Except.bind, pure, Except.pure]

/-- A function is read up to its enums and without its statements, however it ends. -/
theorem readFunction_yields
    (henums : ∀ name ∈ enums, IsDeclarable name)
    {f : Function}
    (h : f.PrintableHeader enums)
    (visibility : Visibility)
    (hlead : Leads (· ≠ .symbol "(") gs)
    (hending : ∀ (context : String) (g : Function), Yields src (readFunctionTail src context g) gs
      g hs) :
    Yields src (readFunction src visibility) (f.headerGlyphs.tail ++ gs)
      (f.outline.mapTypes TypeExpr.forget) hs := by
  refine readFunction_header visibility (fun _ => readParameters_yields henums h.parameters)
    (fun _ hk => readFunctionTail_types henums h.returns hk) ?_ (hending _ _) rfl
  rw [returnsGlyphs_eq]
  exact leads_returnList hlead

/-! ### Modifiers -/

theorem readModifierTail_virtual
    (h : Yields src (readModifierTail src { m with isVirtual := true }) gs m' hs) :
    Yields src (readModifierTail src m) (word "virtual" :: gs) m' hs := by
  intro input hshows
  obtain ⟨l, rest, rfl, hl, hrest⟩ := shows_token.mp hshows
  obtain ⟨left, hleft, hok, hshown⟩ := h rest hrest
  refine ⟨left, Reading.lt_cons_of_lt hleft, ?_, hshown⟩
  rw [readModifierTail]
  simp [hl, hok, bind, Except.bind, pure, Except.pure]

theorem readModifierTail_override
    (hlead : Leads (· ≠ .symbol "(") gs)
    (h : Yields src (readModifierTail src { m with isOverride := true }) gs m' hs) :
    Yields src (readModifierTail src m) (word "override" :: gs) m' hs := by
  intro input hshows
  obtain ⟨l, rest, rfl, hl, hrest⟩ := shows_token.mp hshows
  obtain ⟨left, hleft, hok, hshown⟩ := h rest hrest
  refine ⟨left, Reading.lt_cons_of_lt hleft, ?_, hshown⟩
  rw [readModifierTail]
  simp [hl, skipArguments_none hlead hrest, Left.whole, hok, bind, Except.bind, pure, Except.pure]

theorem readModifierTail_body
    {ts : List Token}
    (hnests : Nests ts) :
    Yields src (readModifierTail src m)
      (sign "\x7b" :: (ts.map Glyph.token ++ sign "\x7d" :: hs)) m hs := by
  intro input hshows
  obtain ⟨left, hleft, hok, hshown⟩ :=
    skipBalanced_yields ("modifier " ++ m.name) hnests input hshows
  obtain ⟨l, rest, rfl, hl, -⟩ := shows_token.mp hshows
  refine ⟨left, hleft, ?_, hshown⟩
  rw [readModifierTail]
  simp [hl, hok, bind, Except.bind, pure, Except.pure]

theorem readModifierTail_marks
    {isVirtual isOverride : Bool}
    (hm : m.isVirtual = false ∧ m.isOverride = false)
    (hlead : Leads (· ≠ .symbol "(") gs)
    (h : Yields src (readModifierTail src { m with isVirtual, isOverride }) gs m' hs) :
    Yields src (readModifierTail src m) (overrideGlyphs isVirtual isOverride ++ gs) m' hs := by
  have hoverride : Yields src (readModifierTail src { m with isVirtual })
      ((if isOverride then [word "override"] else []) ++ gs) m' hs := by
    cases isOverride with
    | false =>
        rw [← hm.2] at h
        exact h
    | true =>
        exact readModifierTail_override hlead h
  cases isVirtual with
  | false =>
      rw [← hm.1] at hoverride
      exact hoverride
  | true =>
      exact readModifierTail_virtual hoverride

/-- A modifier is read up to its enums and without its statements. -/
theorem readModifier_yields
    (henums : ∀ name ∈ enums, IsDeclarable name)
    {level : Nat} {m : Modifier}
    (h : m.Printable enums level) :
    Yields src (readModifier src) ((m.glyphs level).tail ++ hs)
      (m.outline.mapTypes TypeExpr.forget) hs := by
  intro input hshows
  simp only [Modifier.glyphs, List.tail_cons, List.cons_append, List.append_assoc,
    List.nil_append] at hshows
  obtain ⟨r₁, h₁, hok₁, hs₁⟩ := readIdentifier_yields "a modifier name" m.name input hshows
  obtain ⟨r₂, h₂, hok₂, hs₂⟩ := readParameters_yields henums h.parameters r₁ hs₁
  have htail : Yields src
      (readModifierTail src
        { name := m.name, parameters := m.parameters.map (Parameter.mapType .forget) })
      (overrideGlyphs m.isVirtual m.isOverride ++ sign "\x7b" :: (bodyGlyphs level m.statements ++
        word "_" :: sign ";" :: sign "\x7d" :: hs))
      (m.outline.mapTypes TypeExpr.forget) hs := by
    refine readModifierTail_marks ⟨rfl, rfl⟩ (leads_token (by simp)) ?_
    have hbody : Yields src (readModifierTail src (m.outline.mapTypes TypeExpr.forget))
        (sign "\x7b" :: ((readableTokens (bodyText level m.statements) ++
          [Token.identifier "_", Token.symbol ";"]).map Glyph.token ++ sign "\x7d" :: hs))
        (m.outline.mapTypes TypeExpr.forget) hs :=
      readModifierTail_body (h.body.nests.append (by decide))
    rw [List.map_append, List.append_assoc] at hbody
    exact hbody
  obtain ⟨r₃, h₃, hok₃, hs₃⟩ := htail r₂ hs₂
  refine ⟨r₃, Reading.lt_of_lt_lt (Reading.lt_of_lt_lt h₁ h₂) h₃, ?_, hs₃⟩
  simp [readModifier, hok₁, atSymbol_eq hs₁, hok₂, hok₃, bind, Except.bind, pure, Except.pure]

end Callables

/-! ## Data declarations -/

section Data

variable {src : SourceText} {gs hs : List Glyph} {enums : List String}

theorem ofKeyword?_visibility_none
    {name : String}
    (h : IsDeclarable name) :
    Visibility.ofKeyword? name = none := by
  have hpublic : name ≠ "public" := not_mem_reserved h (by decide)
  have hinternal : name ≠ "internal" := not_mem_reserved h (by decide)
  have hprivate : name ≠ "private" := not_mem_reserved h (by decide)
  have hexternal : name ≠ "external" := not_mem_reserved h (by decide)
  simp [Visibility.ofKeyword?, Visibility.all, Visibility.keyword, hpublic.symm, hinternal.symm,
    hprivate.symm, hexternal.symm]

theorem readFieldTail_visibility
    {field field' : Field}
    (v : Visibility)
    (h : Yields src (readFieldTail src { field with visibility := v }) gs field' hs) :
    Yields src (readFieldTail src field) (word v.keyword :: gs) field' hs := by
  intro input hshows
  obtain ⟨l, rest, rfl, hl, hrest⟩ := shows_token.mp hshows
  obtain ⟨left, hleft, hok, hshown⟩ := h rest hrest
  refine ⟨left, Reading.lt_cons_of_lt hleft, ?_, hshown⟩
  rw [readFieldTail]
  simp [hl, Visibility.ofKeyword?_keyword, hok, bind, Except.bind, pure, Except.pure]

/-- The name of a state variable, and its initializer. -/
theorem readFieldTail_name
    {field : Field} {name : String} {initializer : Option String}
    (hname : IsDeclarable name)
    (hinitializer : ∀ value ∈ initializer, IsStretch value)
    (hfield : field.initializer = none) :
    Yields src (readFieldTail src field)
      (word name :: (initializerGlyphs initializer ++ sign ";" :: hs))
      { field with name, initializer } hs := by
  intro input hshows
  obtain ⟨l, rest, rfl, hl, hrest⟩ := shows_token.mp hshows
  have hoverride : name ≠ "override" := not_mem_reserved hname (by decide)
  have hconstant : name ≠ "constant" := not_mem_reserved hname (by decide)
  have himmutable : name ≠ "immutable" := not_mem_reserved hname (by decide)
  have htransient : name ≠ "transient" := hname.2
  cases initializer with
  | none =>
      obtain ⟨left, hleft, hok, hshown⟩ := readSymbol_yields ";" rest hrest
      refine ⟨left, Reading.lt_cons_of_lt hleft, ?_, hshown⟩
      rw [readFieldTail]
      simp [hl, ofKeyword?_visibility_none hname, hoverride, hconstant, himmutable, htransient,
        atSymbol_eq hrest, hok, bind, Except.bind, pure, Except.pure, hfield]
  | some value =>
      obtain ⟨left, hleft, hok, hshown⟩ :=
        readRawUntil_yields "state variable initializer" (hinitializer value rfl) rest.tail
          (shows_tail hrest)
      refine ⟨left, Reading.lt_cons_of_lt (Reading.lt_of_lt_tail hleft), ?_, hshown⟩
      rw [readFieldTail]
      simp [hl, ofKeyword?_visibility_none hname, hoverride, hconstant, himmutable, htransient,
        atSymbol_eq hrest, hok, bind, Except.bind, pure, Except.pure]

/-- A state variable is read up to its enums. -/
theorem readField_yields
    (henums : ∀ name ∈ enums, IsDeclarable name)
    {f : Field}
    (h : f.Printable enums) :
    Yields src (readField src) (f.glyphs ++ hs) (f.mapType TypeExpr.forget) hs := by
  intro input hshows
  simp only [Field.glyphs, List.cons_append, List.append_assoc, List.nil_append] at hshows
  have hlead : Leads EndsType (word f.visibility.keyword :: word f.name ::
      (initializerGlyphs f.initializer ++ sign ";" :: hs)) := by
    cases f.visibility <;> exact leads_token ⟨by simp, by simp, by simp [Visibility.keyword]⟩
  obtain ⟨r₁, h₁, hok₁, hs₁⟩ := readType_marked henums h.type h.payable hlead input hshows
  have htail : Yields src
      (readFieldTail src
        { name := "", type := f.type.forget, visibility := .internally, payable := f.payable })
      (word f.visibility.keyword :: word f.name ::
        (initializerGlyphs f.initializer ++ sign ";" :: hs))
      (f.mapType TypeExpr.forget) hs :=
    readFieldTail_visibility f.visibility (readFieldTail_name h.name h.initializer rfl)
  obtain ⟨r₂, h₂, hok₂, hs₂⟩ := htail r₁ hs₁
  refine ⟨r₂, Reading.lt_of_lt_lt h₁ h₂, ?_, hs₂⟩
  simp [readField, hok₁, hok₂, bind, Except.bind, pure, Except.pure]

theorem readStructMembers_yields
    (context : String)
    (henums : ∀ name ∈ enums, IsDeclarable name)
    {fs : List LocalField}
    (h : ∀ f ∈ fs, f.PrintableMember enums) :
    Yields src (readStructMembers src context)
      (fs.flatMap (fun f => f.glyphs ++ [sign ";"]) ++ sign "\x7d" :: hs)
      (fs.map (LocalField.mapType TypeExpr.forget)) hs := by
  induction fs with
  | nil =>
      intro input hshows
      obtain ⟨l, rest, rfl, hl, hrest⟩ := shows_token.mp hshows
      refine ⟨rest, Reading.rest_lt, ?_, hrest⟩
      rw [readStructMembers]
      simp [hl]
  | cons f fs ih =>
      intro input hshows
      have hmember := h f (by simp)
      have hname : f.name ≠ "" := by
        intro he
        have hid := hmember.name.isIdentifier
        rw [he] at hid
        cases hid
      have hpayable : f.name ≠ "payable" := not_mem_reserved hmember.name (by decide)
      have hglyphs : f.glyphs = markedGlyphs f.type f.payable ++ [word f.name] := by
        rw [LocalField.glyphs, nameGlyphs, if_neg hname]
      simp only [List.flatMap_cons, hglyphs, List.append_assoc, List.cons_append,
        List.nil_append] at hshows
      have hbrace := atSymbol_false (leads_marked "\x7d" henums hmember.typed.type)
        hshows
      obtain ⟨r₁, h₁, hok₁, hs₁⟩ := readType_marked henums hmember.typed.type hmember.typed.payable
        (leads_token ⟨by simp, by simp, by simpa using hpayable⟩) input hshows
      obtain ⟨r₂, h₂, hok₂, hs₂⟩ := readIdentifier_yields "a struct member name" f.name r₁ hs₁
      obtain ⟨r₃, h₃, hok₃, hs₃⟩ := readSymbol_yields ";" r₂ hs₂
      obtain ⟨r₄, h₄, hok₄, hs₄⟩ := ih (fun g hg => h g (by simp [hg])) r₃ hs₃
      refine ⟨r₄, by omega, ?_, hs₄⟩
      obtain ⟨l, rest, rfl, hl⟩ := cons_of_atSymbol_false h₁ hbrace
      rw [readStructMembers]
      simp [hl, hok₁, hok₂, hok₃, hok₄, LocalField.mapType, bind, Except.bind, pure, Except.pure]

/-- A struct is read up to its enums. -/
theorem readStruct_yields
    (henums : ∀ name ∈ enums, IsDeclarable name)
    {s : Structure}
    (h : s.Printable enums) :
    Yields src (readStruct src) (s.glyphs.tail ++ hs) (s.mapTypes TypeExpr.forget) hs := by
  intro input hshows
  simp only [Structure.glyphs, List.tail_cons, List.cons_append, List.append_assoc,
    List.nil_append] at hshows
  obtain ⟨r₁, h₁, hok₁, hs₁⟩ := readIdentifier_yields "a struct name" s.name input hshows
  obtain ⟨r₂, h₂, hok₂, hs₂⟩ := readSymbol_yields "\x7b" r₁ hs₁
  obtain ⟨r₃, h₃, hok₃, hs₃⟩ :=
    readStructMembers_yields ("struct " ++ s.name) henums h.fields r₂ hs₂
  refine ⟨r₃, by omega, ?_, hs₃⟩
  simp [readStruct, hok₁, hok₂, hok₃, Structure.mapTypes, bind, Except.bind, pure, Except.pure]

theorem readEnumValues_yields
    (values : List String) :
    Yields src (readEnumValues src)
      (commaGlyphs (values.map fun value => [word value]) ++ sign "\x7d" :: hs) values hs := by
  induction values with
  | nil =>
      intro input hshows
      have hbrace : atSymbol "\x7d" input = true := by
        simp [atSymbol_eq hshows]
      refine ⟨input.tail, tail_lt_of_atSymbol hbrace, ?_, shows_tail hshows⟩
      rw [readEnumValues, dif_pos hbrace]
      rfl
  | cons value values ih =>
      intro input hshows
      cases values with
      | nil =>
          have hbrace : ¬atSymbol "\x7d" input = true := by
            simp [atSymbol_eq hshows]
          obtain ⟨r₁, h₁, hok₁, hs₁⟩ := readIdentifier_yields "an enum value" value input hshows
          obtain ⟨r₂, h₂, hok₂, hs₂⟩ := readSymbol_yields "\x7d" r₁ hs₁
          refine ⟨r₂, Reading.lt_of_lt_lt h₁ h₂, ?_, hs₂⟩
          rw [readEnumValues, dif_neg hbrace]
          simp [hok₁, atSymbol_eq hs₁, hok₂, bind, Except.bind, pure, Except.pure]
      | cons next values =>
          have hbrace : ¬atSymbol "\x7d" input = true := by
            simp [atSymbol_eq hshows]
          obtain ⟨r₁, h₁, hok₁, hs₁⟩ := readIdentifier_yields "an enum value" value input hshows
          obtain ⟨r₂, h₂, hok₂, hs₂⟩ := ih r₁.tail (shows_tail hs₁)
          refine ⟨r₂, Reading.lt_of_lt_lt h₁ (Reading.lt_of_lt_tail h₂), ?_, hs₂⟩
          rw [readEnumValues, dif_neg hbrace]
          simp [hok₁, atSymbol_eq hs₁, hok₂, bind, Except.bind, pure, Except.pure]

/-- An enum is read back. -/
theorem readEnum_yields
    (e : Enumeration) :
    Yields src (readEnum src) (e.glyphs.tail ++ hs) e hs := by
  intro input hshows
  simp only [Enumeration.glyphs, List.tail_cons, List.cons_append, List.append_assoc,
    List.nil_append] at hshows
  obtain ⟨r₁, h₁, hok₁, hs₁⟩ := readIdentifier_yields "an enum name" e.name input hshows
  obtain ⟨r₂, h₂, hok₂, hs₂⟩ := readSymbol_yields "\x7b" r₁ hs₁
  obtain ⟨r₃, h₃, hok₃, hs₃⟩ := readEnumValues_yields e.values r₂ hs₂
  refine ⟨r₃, by omega, ?_, hs₃⟩
  simp [readEnum, hok₁, hok₂, hok₃, bind, Except.bind, pure, Except.pure]

/-- An event is read up to its enums. -/
theorem readEvent_yields
    (henums : ∀ name ∈ enums, IsDeclarable name)
    {e : Event}
    (h : e.Printable enums) :
    Yields src (readEvent src) (e.glyphs.tail ++ hs) (e.mapTypes TypeExpr.forget) hs := by
  intro input hshows
  simp only [Event.glyphs, argumentGlyphs, List.tail_cons, List.cons_append, List.append_assoc,
    List.nil_append] at hshows
  obtain ⟨r₁, h₁, hok₁, hs₁⟩ := readIdentifier_yields "an event name" e.name input hshows
  obtain ⟨r₂, h₂, hok₂, hs₂⟩ := readLocalFields_yields henums h.parameters r₁ hs₁
  obtain ⟨r₃, h₃, hok₃, hs₃⟩ := readSymbol_yields ";" r₂ hs₂
  have hskip : skipKeyword "anonymous" r₂ = .whole r₂ := by
    obtain ⟨l, rest, rfl, hl, -⟩ := shows_token.mp hs₂
    simp [skipKeyword, hl]
  refine ⟨r₃, by omega, ?_, hs₃⟩
  simp only [readEvent, hok₁, hok₂, bind, Except.bind]
  rw [hskip]
  simp [Left.whole, hok₃, Event.mapTypes, pure, Except.pure]

/-- A custom error is read up to its enums. -/
theorem readErrorDefinition_yields
    (henums : ∀ name ∈ enums, IsDeclarable name)
    {e : ErrorDefinition}
    (h : e.Printable enums) :
    Yields src (readErrorDefinition src) (e.glyphs.tail ++ hs) (e.mapTypes TypeExpr.forget) hs := by
  intro input hshows
  simp only [ErrorDefinition.glyphs, argumentGlyphs, List.tail_cons, List.cons_append,
    List.append_assoc, List.nil_append] at hshows
  obtain ⟨r₁, h₁, hok₁, hs₁⟩ := readIdentifier_yields "an error name" e.name input hshows
  obtain ⟨r₂, h₂, hok₂, hs₂⟩ := readLocalFields_yields henums h.parameters r₁ hs₁
  obtain ⟨r₃, h₃, hok₃, hs₃⟩ := readSymbol_yields ";" r₂ hs₂
  refine ⟨r₃, by omega, ?_, hs₃⟩
  simp [readErrorDefinition, hok₁, hok₂, hok₃, ErrorDefinition.mapTypes, bind, Except.bind, pure,
    Except.pure]

end Data

end Source
end ContractGen
