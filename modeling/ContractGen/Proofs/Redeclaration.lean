import ContractGen.Generation.Gap
import ContractGen.Proofs.ErrorPlaces
import ContractGen.Proofs.TypesReadBack
import Mathlib.Tactic.Choose

/-!
# Redeclared functions

The implementation that is made for a user redeclares the functions of the user's interface. The
header of such a function is read as the function it redeclares, now marked as an override, unless
one of its types is an array of payable addresses. The marker of these stands behind the brackets,
where it is taken for a name.

**Definitions.**
* `functionAt?`: the function that is read at some place of a text.
* `Rereading`: what the text of a parameter is read as.

**Results.**
* `exists_rereading`: what the text of a parameter that was read is read as.
* `readFunction_rereads`: what a header is read as, if it is read at all.
* `overriding_redeclares_iff`: which functions are redeclared as they are.
-/

namespace ContractGen
namespace Source

open Target
open Domain (reservedWords)

/-! ## Parameters that are read again -/

section Parameters

variable {p : Parameter} {first : String} {tg : List Glyph}

/-- The parameter that a raw one becomes. -/
def RawParameter.parameter (p : RawParameter) : Parameter :=
  ⟨p.name, p.type.parameterType, p.location⟩

/-- Glyphs, the parameter that they are read as, and those of them that are left. -/
structure Rereading where
  glyphs : List Glyph
  raw : RawParameter
  left : List Glyph

instance : Inhabited Rereading :=
  ⟨⟨[], ⟨{ type := .named "" }, none, ""⟩, []⟩⟩

/-- The glyphs are read as a parameter; what is left of them does not end it. -/
structure Rereading.Holds (r : Rereading) : Prop where
  glyphs : ∃ name gs, r.glyphs = word name :: gs
  left : r.left = [] ∨ ∃ name gs, r.left = word name :: gs
  reads : ∀ src hs, Leads EndsParameter hs →
    Yields src (readParameter src) (r.glyphs ++ hs) r.raw (r.left ++ hs)

/--
The glyphs are those of the text of a parameter. They are read as this parameter, unless a payable
marker is out of place, and then its type is read as another.
-/
structure Rereading.IsOf (r : Rereading) (p : Parameter) : Prop extends r.Holds where
  spells : SpellsApart p.text r.glyphs
  same : ¬ IsPayableArray p.type → r.left = [] ∧ r.raw.parameter = p
  other : IsPayableArray p.type → r.raw.type.parameterType ≠ p.type

/-- A parameter whose text can be told apart from the markers around it. -/
structure IsRedeclarable (p : Parameter) : Prop where
  type : IsPassed p.type
  name : p.name = "" ∨ isIdentifier p.name = true
  unreserved : p.name ∉ reservedWords
  location : p.location.isSome = true → p.type.isReference = true

theorem Rereading.Holds.leads
    {r : Rereading}
    (h : r.Holds)
    (symbol : String)
    (hs : List Glyph) :
    Leads (· ≠ .symbol symbol) (r.glyphs ++ hs) := by
  obtain ⟨name, gs, hglyphs⟩ := h.glyphs
  rw [hglyphs]
  exact leads_token (by simp)

/-- A type that is read back has a parameter that is read back. -/
theorem exists_rereading_same
    (reading : TypeReading)
    (h : IsRedeclarable p)
    (hspells : SpellsApart p.type.text (word first :: tg))
    (hread : ∀ src hs, Leads EndsType hs →
      Yields src (readType src) (word first :: tg ++ hs) reading hs)
    (htype : reading.parameterType = p.type)
    (hplain : ¬ IsPayableArray p.type) :
    ∃ r : Rereading, r.IsOf p := by
  refine ⟨⟨word first :: tg ++ locationGlyphs p.location ++ nameGlyphs p.name,
    ⟨reading, p.location, p.name⟩, []⟩, ⟨⟨first, _, rfl⟩, Or.inl rfl, fun src hs hlead => ?_⟩,
    spellsApart_parameter hspells h.location h.name, fun _ => ⟨rfl, ?_⟩,
    fun hpayable => absurd hpayable hplain⟩
  · exact readParameter_yields p.location (hread src) h.unreserved hlead
  · rw [RawParameter.parameter, htype]

/-- A payable marker behind brackets is taken for the name of the parameter. -/
theorem readParameter_marked
    {src : SourceText} {type : TypeExpr} {hs : List Glyph}
    (h : ReadsClosed src tg type) :
    Yields src (readParameter src) (tg ++ word "payable" :: hs)
      { type := { type }, location := none, name := "payable" } hs := by
  intro input hshows
  obtain ⟨rest, hrest, hdone⟩ := h _ input hshows
  obtain ⟨l, later, rfl, hl, hlater⟩ := shows_token.mp hrest
  have hbrackets := readBrackets_none type
    (leads_token (P := (· ≠ .symbol "[")) (by simp)) hrest
  obtain ⟨hlt, hok⟩ := hdone type _ (Nat.le_refl _) hbrackets
  refine ⟨later, Reading.lt_of_lt_lt hlt Reading.rest_lt, ?_, hlater⟩
  have hlocation : takeLocation? (l :: later) = (none, ⟨l :: later, Nat.le_refl _⟩) := by
    simp [takeLocation?, hl, DataLocation.ofKeyword?, DataLocation.all, DataLocation.keyword]
    rfl
  have hindexed : skipKeyword "indexed" (l :: later) = .whole (l :: later) := by
    simp [skipKeyword, hl]
  have hname : takeIdentifier? (l :: later) = (some "payable", .one l later) := by
    simp [takeIdentifier?, hl]
  simp only [readParameter, hok, bind, Except.bind, pure, Except.pure]
  rw [hlocation]
  dsimp only
  rw [hindexed]
  simp [Left.whole, hname]
  rfl

/-- What follows the type of a parameter is nothing or begins with a word. -/
theorem markerGlyphs_cases
    (p : Parameter) :
    locationGlyphs p.location ++ nameGlyphs p.name = [] ∨
      ∃ name gs, locationGlyphs p.location ++ nameGlyphs p.name = word name :: gs := by
  cases p.location with
  | some location =>
      exact Or.inr ⟨location.keyword, nameGlyphs p.name, rfl⟩
  | none =>
      by_cases hname : p.name = ""
      · exact Or.inl (by simp [locationGlyphs, nameGlyphs, hname])
      · exact Or.inr ⟨p.name, [], by simp [locationGlyphs, nameGlyphs, hname]⟩

/-- A type with a payable marker behind its brackets is read without the marker. -/
theorem exists_rereading_marked
    {type : TypeExpr}
    (h : IsRedeclarable p)
    (hclosed : ReadsBackClosed type)
    (htype : .named (type.text ++ " payable") = p.type) :
    ∃ r : Rereading, r.IsOf p := by
  obtain ⟨⟨text, htext⟩, first, gs, hspells, hreads⟩ := id hclosed
  have hmarked : IsPayableArray p.type := by
    rw [← htype, htext]
    exact ⟨text.toList, by simp⟩
  have hspells' : SpellsApart p.type.text (word first :: gs ++ [word "payable"]) := by
    rw [← htype]
    exact spellsApart_payable hspells
  refine ⟨⟨word first :: gs ++ [word "payable"] ++ locationGlyphs p.location ++ nameGlyphs p.name,
    ⟨{ type }, none, "payable"⟩, locationGlyphs p.location ++ nameGlyphs p.name⟩,
    ⟨⟨first, _, rfl⟩, markerGlyphs_cases p, fun src hs _ => ?_⟩,
    spellsApart_parameter hspells' h.location h.name, fun hplain => absurd hmarked hplain,
    fun _ hsame => ?_⟩
  · have hread : Yields src (readParameter src)
        (word first :: gs ++ word "payable" ::
          (locationGlyphs p.location ++ nameGlyphs p.name ++ hs)) _ _ :=
      readParameter_marked (hreads src)
    simpa using hread
  · have hsame' : type = p.type := hsame
    exact hclosed.plain (hsame' ▸ hmarked)

/-- The text of a parameter has glyphs that are read, though maybe not as the parameter. -/
theorem exists_rereading
    (h : IsRedeclarable p) :
    ∃ r : Rereading, r.IsOf p := by
  obtain ⟨t, ht, htype⟩ := h.type
  unfold TypeReading.parameterType at htype
  split at htype
  · rename_i hpayable
    rcases ht.payable hpayable with haddress | hclosed
    · rw [haddress] at htype
      have hspells : SpellsApart p.type.text [word "address", word "payable"] := by
        rw [← htype]
        exact spellsApart_payable (spellsApart_word "address" rfl)
      refine exists_rereading_same { type := .named "address", payable := true } h hspells
        (fun src hs hlead => readType_payable (hlead.mono fun _ h => h.1)) htype ?_
      rw [← htype]
      decide
    · exact exists_rereading_marked h hclosed htype
  · obtain ⟨first, gs, hspells, hreads⟩ := ht.type
    exact exists_rereading_same { type := t.type } h (htype ▸ hspells)
      (fun src hs hlead => (hreads src).yields hlead) htype (htype ▸ ht.plain)

end Parameters

/-! ## Headers that are read again -/

section Headers

variable {α : Type} {src : SourceText} {gs hs : List Glyph} {input : List Lexeme}
  {r : α → Rereading} {xs : List α} {context : String} {f : Function}

theorem Yields.gives
    {β : Type} {reader : Reader β} {value : β}
    (h : Yields src reader gs value hs)
    (hshows : Shows src gs input) :
    Gives (reader input) fun t => t.value = value ∧ Shows src hs t.rest := by
  obtain ⟨rest, hlt, hok, hrest⟩ := h input hshows
  rw [hok]
  exact gives_ok ⟨rfl, hrest⟩

/-- A symbol that is not there is not read. -/
theorem readSymbol_absent
    {symbol : String} {P : Taken Unit input → Prop}
    (hlead : Leads (· ≠ .symbol symbol) gs)
    (h : Shows src gs input) :
    Gives (readSymbol src symbol input) P := by
  obtain ⟨t, rest, rfl, ht⟩ := hlead
  obtain ⟨l, later, rfl, rfl, -⟩ := shows_token.mp h
  rw [readSymbol, if_neg ht]
  exact gives_error _

/-- No parameters are read if a word follows the first. -/
theorem readParametersToClose_absent
    {raw : RawParameter} {rest : List Lexeme} {hlt : rest.length < input.length} {name : String}
    {P : Taken (List RawParameter) input → Prop}
    (hok : readParameter src input = .ok ⟨raw, rest, hlt⟩)
    (hrest : Shows src (word name :: gs) rest) :
    Gives (readParametersToClose src input) P := by
  rw [readParametersToClose, hok]
  simp only [bind, Except.bind, atSymbol_eq hrest]
  exact (readSymbol_absent (leads_token (by simp)) hrest).bind fun _ => id

/-- Parameters up to the closing parenthesis are read one by one, if they are read. -/
theorem readParametersToClose_rereads
    {x : α}
    (h : ∀ y ∈ x :: xs, (r y).Holds)
    (hshows : Shows src
      (commaGlyphs ((x :: xs).map fun y => (r y).glyphs) ++ sign ")" :: hs) input) :
    Gives (readParametersToClose src input) fun t =>
      t.value = (x :: xs).map (fun y => (r y).raw) ∧ Shows src hs t.rest := by
  have hx := h x List.mem_cons_self
  induction xs generalizing x input with
  | nil =>
      obtain ⟨rest, hlt, hok, hrest⟩ := hx.reads src _ (leads_token (Or.inr rfl)) input hshows
      rcases hx.left with hleft | ⟨name, more, hleft⟩
      · rw [hleft, List.nil_append] at hrest
        obtain ⟨left, hlt', hok', hshown⟩ := readSymbol_yields ")" rest hrest
        rw [readParametersToClose, hok]
        simp only [bind, Except.bind, atSymbol_eq hrest, hok']
        exact gives_ok ⟨rfl, hshown⟩
      · rw [hleft] at hrest
        exact readParametersToClose_absent hok hrest
  | cons y ys ih =>
      have hfirst : Shows src ((r x).glyphs ++ sign "," ::
          (commaGlyphs ((y :: ys).map fun z => (r z).glyphs) ++ sign ")" :: hs)) input := by
        simpa [commaGlyphs] using hshows
      obtain ⟨rest, hlt, hok, hrest⟩ := hx.reads src _ (leads_token (Or.inl rfl)) input hfirst
      rcases hx.left with hleft | ⟨name, more, hleft⟩
      · rw [hleft, List.nil_append] at hrest
        have hlater := fun z hz => h z (List.mem_cons_of_mem x hz)
        rw [readParametersToClose, hok]
        simp only [bind, Except.bind, atSymbol_eq hrest, decide_true, if_true]
        refine (ih hlater (shows_tail hrest) (hlater y List.mem_cons_self)).bind ?_
        rintro ⟨parameters, left, hleft'⟩ ⟨rfl, hshown⟩
        exact gives_ok ⟨rfl, hshown⟩
      · rw [hleft] at hrest
        exact readParametersToClose_absent hok hrest

/-- A parenthesized list is read item by item, if it is read. -/
theorem readParameterList_rereads
    (h : ∀ x ∈ xs, (r x).Holds)
    (hshows : Shows src
      (sign "(" :: (commaGlyphs (xs.map fun x => (r x).glyphs) ++ sign ")" :: hs)) input) :
    Gives (readParameterList src input) fun t =>
      t.value = xs.map (fun x => (r x).raw) ∧ Shows src hs t.rest := by
  obtain ⟨rest, hlt, hok, hrest⟩ := readSymbol_yields "(" input hshows
  simp only [readParameterList, hok, bind, Except.bind]
  cases xs with
  | nil =>
      simp only [atSymbol_eq hrest]
      exact gives_ok ⟨rfl, shows_tail hrest⟩
  | cons x xs =>
      have hlead := (h x List.mem_cons_self).leads ")"
      simp only [atSymbol_false (leads_commaGlyphs hlead) hrest]
      refine (readParametersToClose_rereads h hrest).bind ?_
      rintro ⟨parameters, left, hleft⟩ ⟨rfl, hshown⟩
      exact gives_ok ⟨rfl, hshown⟩

/-- The words between the parameters and the return list of a header. -/
def markWords (f : Function) : List String :=
  f.visibility.keyword :: (f.mutability.toList.map Mutability.keyword ++
    ((if f.isVirtual then ["virtual"] else []) ++ (if f.isOverride then ["override"] else [])))

theorem headerWith_eq
    (f : Function)
    (parameters returns : List Glyph) :
    f.headerWith parameters returns =
      word "function" :: word f.name :: sign "(" :: (parameters ++ sign ")" ::
        ((markWords f).map word ++ returns)) := by
  have hmutability : mutabilityGlyphs f.mutability =
      (f.mutability.toList.map Mutability.keyword).map word := by
    cases f.mutability <;> rfl
  have hmarks : overrideGlyphs f.isVirtual f.isOverride =
      ((if f.isVirtual then ["virtual"] else []) ++
        (if f.isOverride then ["override"] else [])).map word := by
    cases f.isVirtual <;> cases f.isOverride <;> rfl
  simp [Function.headerWith, markWords, hmutability, hmarks]

theorem not_mem_markWords
    (f : Function) :
    "returns" ∉ markWords f := by
  have hvisibility : "returns" ≠ f.visibility.keyword := by
    cases f.visibility <;> decide
  have hmutability : "returns" ∉ f.mutability.toList.map Mutability.keyword := by
    cases f.mutability with
    | none =>
        decide
    | some mutability =>
        cases mutability <;> decide
  have hmarks : "returns" ∉ (if f.isVirtual then ["virtual"] else []) ++
      (if f.isOverride then ["override"] else []) := by
    cases f.isVirtual <;> cases f.isOverride <;> decide
  rw [markWords, List.mem_cons, List.mem_append]
  exact not_or_intro hvisibility (not_or_intro hmutability hmarks)

theorem skipQualifierArguments_none
    (name : String)
    (hlead : Leads (· ≠ .symbol "(") gs)
    (h : Shows src gs input) :
    skipQualifierArguments src context name input = .ok (.whole input) := by
  unfold skipQualifierArguments
  split
  · exact skipArguments_none hlead h
  · split
    · rfl
    · exact skipArguments_none hlead h

theorem readFunctionTail_words
    {words : List String} {P : Function → Prop}
    (hwords : "returns" ∉ words)
    (hlead : Leads (· ≠ .symbol "(") gs)
    (hshows : Shows src (words.map word ++ gs) input)
    (h : ∀ rest, Shows src gs rest →
      Gives (readFunctionTail src context (words.foldl qualify f) rest) fun t => P t.value) :
    Gives (readFunctionTail src context f input) fun t => P t.value := by
  induction words generalizing f input with
  | nil =>
      exact h input hshows
  | cons name words ih =>
      obtain ⟨hname, hwords⟩ := not_or.mp (mt List.mem_cons.mpr hwords)
      obtain ⟨l, rest, rfl, hl, hrest⟩ := shows_token.mp hshows
      have hnext : Leads (· ≠ .symbol "(") (words.map word ++ gs) := by
        cases words with
        | nil =>
            exact hlead
        | cons next words =>
            exact leads_token (by simp)
      have hskip : skipQualifierArguments src context name rest = .ok (.whole rest) :=
        skipQualifierArguments_none name hnext hrest
      have htail : Gives (readFunctionTail src context (qualify f name) rest) fun t => P t.value :=
        ih hwords hrest h
      have hreturns : Token.identifier name ≠ .identifier "returns" := by
        simpa using Ne.symm hname
      rw [readFunctionTail]
      simp only [hl]
      split
      · contradiction
      · contradiction
      · rename_i he
        exact absurd he hreturns
      · rename_i he
        cases he
        rw [hskip]
        refine htail.bind ?_
        rintro ⟨f', left, hleft⟩ hf'
        exact gives_ok hf'
      · rename_i hother
        exact absurd rfl (hother name)

theorem foldl_qualify_keeps
    (words : List String) :
    (words.foldl qualify f).parameters = f.parameters ∧
      (words.foldl qualify f).returns = f.returns := by
  induction words generalizing f with
  | nil =>
      exact ⟨rfl, rfl⟩
  | cons name words ih =>
      obtain ⟨-, hparameters, hreturns, -⟩ := qualify_keeps f name
      obtain ⟨hparameters', hreturns'⟩ := ih (f := qualify f name)
      exact ⟨hparameters'.trans hparameters, hreturns'.trans hreturns⟩

/-- A return list is read item by item, if the function is read to its semicolon. -/
theorem readFunctionTail_rereads
    (h : ∀ x ∈ xs, (r x).Holds)
    (hf : f.returns = [])
    (hshows : Shows src (returnListGlyphs (xs.map fun x => (r x).glyphs) ++ sign ";" :: hs) input) :
    Gives (readFunctionTail src context f input) fun t =>
      t.value = { f with returns := xs.map fun x => (r x).raw.type.parameterType } := by
  cases xs with
  | nil =>
      have hend : Yields src (readFunctionTail src context f) (sign ";" :: hs) f hs :=
        readFunctionTail_semicolon
      obtain ⟨left, hleft, hok, -⟩ := hend input hshows
      rw [hok]
      refine gives_ok ?_
      rw [List.map_nil, ← hf]
  | cons x xs =>
      simp only [List.map_cons, returnListGlyphs, List.cons_append, List.append_assoc,
        List.nil_append] at hshows
      obtain ⟨l, rest, rfl, hl, hrest⟩ := shows_token.mp hshows
      rw [readFunctionTail]
      simp only [hl]
      refine (readParameterList_rereads h hrest).bind ?_
      rintro ⟨raw, next, hnext⟩ ⟨rfl, hshown⟩
      have hend : ∀ k, Yields src (readFunctionTail src context k) (sign ";" :: hs) k hs :=
        fun k => readFunctionTail_semicolon
      obtain ⟨left, hleft, hok, -⟩ :=
        hend { f with returns := (x :: xs).map fun x => (r x).raw.type.parameterType } next hshown
      simp only [List.map_map, Function.comp_def, hok]
      exact gives_ok rfl

/-- A return value, as a parameter without a name. -/
def returned (type : TypeExpr) : Parameter :=
  ⟨"", type, if type.isReference then some .memory else none⟩

/-- The glyphs of a header, those of its parameters and return values being given. -/
def headerFrom (r : Parameter → Rereading) (f : Function) : List Glyph :=
  f.headerWith (commaGlyphs (f.parameters.map fun p => (r p).glyphs))
    (returnListGlyphs (f.returns.map fun type => (r (returned type)).glyphs))

theorem leads_returnList_semicolon
    (gss : List (List Glyph)) :
    Leads (· ≠ .symbol "(") (returnListGlyphs gss ++ sign ";" :: hs) :=
  leads_returnList (leads_token (by simp))

theorem readParameters_rereads
    (h : ∀ x ∈ xs, (r x).Holds)
    (hshows : Shows src
      (sign "(" :: (commaGlyphs (xs.map fun x => (r x).glyphs) ++ sign ")" :: hs)) input) :
    Gives (readParameters src input) fun t =>
      t.value = xs.map (fun x => (r x).raw.parameter) ∧ Shows src hs t.rest := by
  refine (readParameterList_rereads h hshows).bind ?_
  rintro ⟨raw, rest, hlt⟩ ⟨rfl, hrest⟩
  exact gives_ok ⟨List.map_map, hrest⟩

/-- What follows the parameters of a header is read to a function with its return types. -/
theorem readFunctionTail_header
    {g : Function}
    (h : ∀ x ∈ xs, (r x).Holds)
    (hg : g.returns = [])
    (hshows : Shows src ((markWords f).map word ++
      (returnListGlyphs (xs.map fun x => (r x).glyphs) ++ sign ";" :: hs)) input) :
    Gives (readFunctionTail src context g input) fun t =>
      t.value.parameters = g.parameters ∧
        t.value.returns = xs.map fun x => (r x).raw.type.parameterType := by
  refine readFunctionTail_words (P := fun k => k.parameters = g.parameters ∧
    k.returns = xs.map fun x => (r x).raw.type.parameterType)
    (not_mem_markWords f) (leads_returnList_semicolon _) hshows fun rest hrest taken htaken => ?_
  obtain ⟨hparameters, hreturns⟩ := foldl_qualify_keeps (f := g) (markWords f)
  rw [readFunctionTail_rereads h (hreturns.trans hg) hrest taken htaken]
  exact ⟨hparameters, rfl⟩

/-- A header is read item by item, if it is read. -/
theorem readFunction_rereads
    {r : Parameter → Rereading}
    (visibility : Visibility)
    (hparameters : ∀ p ∈ f.parameters, (r p).Holds)
    (hreturns : ∀ type ∈ f.returns, (r (returned type)).Holds)
    (hshows : Shows src ((headerFrom r f).tail ++ sign ";" :: hs) input) :
    Gives (readFunction src visibility input) fun t =>
      t.value.parameters = f.parameters.map (fun p => (r p).raw.parameter) ∧
        t.value.returns = f.returns.map fun type => (r (returned type)).raw.type.parameterType := by
  rw [headerFrom, headerWith_eq] at hshows
  simp only [List.tail_cons, List.cons_append, List.append_assoc] at hshows
  refine ((readIdentifier_yields "a function name" f.name).gives hshows).bind ?_
  rintro ⟨name, r₁, h₁⟩ ⟨-, hs₁⟩
  refine (readParameters_rereads hparameters hs₁).bind ?_
  rintro ⟨parameters, r₂, h₂⟩ ⟨rfl, hs₂⟩
  refine (readFunctionTail_header (g := ⟨name, visibility, none, false, false, _, [], []⟩)
    hreturns rfl hs₂).bind ?_
  rintro ⟨g, r₃, h₃⟩ hg
  exact gives_ok hg

/-- A list of parameters without misplaced payable markers is read back. -/
theorem readParameterList_same
    (parameter : α → Parameter)
    (h : ∀ x ∈ xs, (r x).IsOf (parameter x) ∧ ¬ IsPayableArray (parameter x).type) :
    Yields src (readParameterList src)
      (sign "(" :: (commaGlyphs (xs.map fun x => (r x).glyphs) ++ sign ")" :: hs))
      (xs.map fun x => (r x).raw) hs := by
  refine readParameterList_yields (fun x hx hs => (h x hx).1.leads ")" hs) fun x hx hs hlead => ?_
  obtain ⟨hof, hplain⟩ := h x hx
  have hread := hof.reads src hs hlead
  rw [(hof.same hplain).1] at hread
  exact hread

/-- A header without misplaced payable markers is read back. -/
theorem readFunction_same
    {r : Parameter → Rereading}
    (visibility : Visibility)
    (hparameters : ∀ p ∈ f.parameters, (r p).IsOf p ∧ ¬ IsPayableArray p.type)
    (hreturns : ∀ type ∈ f.returns,
      (r (returned type)).IsOf (returned type) ∧ ¬ IsPayableArray type) :
    Yields src (readFunction src visibility) ((headerFrom r f).tail ++ sign ";" :: hs)
      { f with statements := [] } hs := by
  have hsame : f.parameters.map (fun p => (r p).raw.parameter) = f.parameters := by
    rw [List.map_congr_left fun p hp => ((hparameters p hp).1.same (hparameters p hp).2).2]
    exact List.map_id' _
  have hsameReturn : ∀ type ∈ f.returns, (r (returned type)).raw.type.parameterType = type :=
    fun type htype =>
      congrArg Parameter.type ((hreturns type htype).1.same (hreturns type htype).2).2
  refine readFunction_header visibility (fun later => ?_) (fun k hk hnext => ?_)
    (leads_returnList_semicolon _) readFunctionTail_semicolon rfl
  · intro input hshows
    obtain ⟨rest, hlt, hok, hrest⟩ := readParameterList_same id hparameters input hshows
    refine ⟨rest, hlt, ?_, hrest⟩
    rw [← hsame]
    simp [readParameters, hok, RawParameter.parameter, bind, Except.bind, pure, Except.pure]
  · refine readFunctionTail_returnList ?_ (by simp) hk
      (readParameterList_same returned hreturns) hnext
    rw [List.map_map, Function.comp_def, List.map_congr_left hsameReturn]
    exact List.map_id' _

end Headers

/-! ## Functions of a text -/

section Functions

variable {f : Function} {n left : Nat} {text : String}

/--
The function that is read off a text after its first `n` tokens, as the interfaces of the text would
have it, and the number of tokens that are left.
-/
def functionAt? (n : Nat) (text : String) : Option (Function × Nat) :=
  (scan text).toOption.bind fun lexemes =>
    (readFunction (sourceText text.toList lexemes) .externally
      ((lexemes.filter Lexeme.isReadable).drop n)).toOption.map fun t => (t.value, t.rest.length)

theorem eq_ok_of_toOption
    {ε α : Type} {result : Except ε α} {value : α}
    (h : result.toOption = some value) :
    result = .ok value := by
  cases result with
  | error e =>
      cases h
  | ok value' =>
      cases h
      rfl

theorem functionAt?_gives
    (h : functionAt? n text = some (f, left)) :
    IsReadFunction f := by
  obtain ⟨lexemes, hscan, hread⟩ := Option.bind_eq_some_iff.mp h
  obtain ⟨t, ht, he⟩ := Option.map_eq_some_iff.mp hread
  cases he
  have hinput : IsInput (sourceText text.toList lexemes)
      ((lexemes.filter Lexeme.isReadable).drop n) :=
    ⟨lexemes, tiles_of_scan (eq_ok_of_toOption hscan), List.drop_suffix _ _⟩
  exact readFunction_gives .externally hinput t (eq_ok_of_toOption ht)

/-- A header that is spelled is read off its glyphs. -/
theorem functionAt?_header
    {r : Parameter → Rereading}
    (hspells : SpellsApart (signature f) (headerFrom r f)) :
    ∃ src input, Shows src ((headerFrom r f).tail ++ [sign ";"]) input ∧
      functionAt? 1 (signature f ++ ";") =
        (readFunction src .externally input).toOption.map fun t => (t.value, t.rest.length) := by
  have hscans := hspells.close closes_semicolon [] [] scans_nil
  simp only [List.append_nil] at hscans
  obtain ⟨ls, hscan, hshows⟩ := hscans.scan_eq
  have hheader : headerFrom r f = word "function" :: (headerFrom r f).tail := rfl
  rw [hheader, List.cons_append] at hshows
  refine ⟨sourceText (signature f ++ ";").toList ls, (ls.filter Lexeme.isReadable).drop 1, ?_, ?_⟩
  · rw [List.drop_one]
    exact shows_tail (hshows _)
  · rw [functionAt?, hscan]
    rfl

theorem returned_text
    (type : TypeExpr) :
    (returned type).text = returnText type := by
  rw [returnText, returned, Parameter.text]
  cases type.isReference with
  | false =>
      rfl
  | true =>
      simp [withName, DataLocation.keyword, String.append_assoc]

theorem isRedeclarable_returned
    {type : TypeExpr}
    (h : IsPassed type) :
    IsRedeclarable (returned type) := by
  refine ⟨h, Or.inl rfl, ?_, fun hlocation => ?_⟩
  · show "" ∉ reservedWords
    decide
  · simpa [returned] using hlocation

end Functions

end Source

namespace Generation
namespace Gap

open Source Target
open Domain (reservedWords)

/--
The header of an overriding function is read as the function it overrides, marked as an override,
exactly if the function passes and returns no array of payable addresses.
-/
theorem overriding_redeclares_iff
    {n left : Nat} {text : String} {f : Function}
    (hread : functionAt? n text = some (f, left))
    (hnames : ∀ p ∈ f.parameters, p.name ∉ reservedWords)
    (hlocations : ∀ p ∈ f.parameters, p.location.isSome = true → p.type.isReference = true) :
    functionAt? 1 (signature (overriding f) ++ ";") =
        some ({ f with isVirtual := false, isOverride := true }, 0) ↔
      (∀ p ∈ f.parameters, ¬ IsPayableArray p.type) ∧
        ∀ type ∈ f.returns, ¬ IsPayableArray type := by
  have hf := functionAt?_gives hread
  choose! r hr using fun p : Parameter => exists_rereading (p := p)
  have hparameters : ∀ p ∈ f.parameters, (r p).IsOf p := fun p hp =>
    hr p ⟨(hf.parameters p hp).1, (hf.parameters p hp).2, hnames p hp, hlocations p hp⟩
  have hreturns : ∀ type ∈ f.returns, (r (returned type)).IsOf (returned type) :=
    fun type htype => hr _ (isRedeclarable_returned (hf.returns type htype))
  have hspells : SpellsApart (signature (overriding f)) (headerFrom r (overriding f)) := by
    refine spellsApart_signature hf.name
      (spellsApart_joined fun p hp => (hparameters p hp).spells) fun htext => ?_
    have htypes : ∀ type ∈ f.returns, SpellsApart (returnText type) (r (returned type)).glyphs :=
      fun type htype => returned_text type ▸ (hreturns type htype).spells
    exact spellsApart_returnList htypes htext
  obtain ⟨src, input, hshows, hat⟩ := functionAt?_header hspells
  rw [hat]
  -- If the header is read, then item by item, so a misplaced marker changes a type.
  constructor
  · intro h
    obtain ⟨t, ht, he⟩ := Option.map_eq_some_iff.mp h
    have hvalue : t.value = { f with isVirtual := false, isOverride := true } :=
      congrArg Prod.fst he
    obtain ⟨hsame, hsameReturns⟩ := readFunction_rereads (f := overriding f) .externally
      (fun p hp => (hparameters p hp).toHolds)
      (fun type htype => (hreturns type htype).toHolds) hshows t (eq_ok_of_toOption ht)
    rw [hvalue] at hsame hsameReturns
    have heach := List.map_inj_left.mp (hsame.symm.trans (List.map_id' f.parameters).symm)
    have heachReturn := List.map_inj_left.mp (hsameReturns.symm.trans (List.map_id' f.returns).symm)
    exact ⟨fun p hp hpayable => (hparameters p hp).other hpayable
        (congrArg Parameter.type (heach p hp)),
      fun type htype hpayable => (hreturns type htype).other hpayable (heachReturn type htype)⟩
  · rintro ⟨hplain, hplainReturns⟩
    obtain ⟨rest, hlt, hok, hrest⟩ := readFunction_same (f := overriding f) .externally
      (fun p hp => ⟨hparameters p hp, hplain p hp⟩)
      (fun type htype => ⟨hreturns type htype, hplainReturns type htype⟩) input hshows
    obtain rfl := shows_nil.mp hrest
    rw [hok]
    have hstatements : ({ overriding f with statements := [] } : Function) =
        { f with isVirtual := false, isOverride := true } := by
      rw [overriding, ← hf.statements]
    rw [hstatements]
    rfl

/-- An interface whose function passes a payable address and an array with a size. -/
def payInterface : String :=
  "interface Base \x7b function pay(address payable to, uint[ 2 ][] memory) external " ++
    "returns (bytes memory); \x7d"

/-- The function of this interface. -/
def payFunction : Function where
  name := "pay"
  visibility := .externally
  parameters :=
    [⟨"to", .named "address payable", none⟩, ⟨"", .array (.named "uint[2]"), some .memory⟩]
  returns := [.named "bytes"]

theorem overriding_redeclares_iff_pay :
    functionAt? 4 payInterface = some (payFunction, 1) ∧
      (∀ p ∈ payFunction.parameters, p.name ∉ reservedWords) ∧
      (∀ p ∈ payFunction.parameters, p.location.isSome = true → p.type.isReference = true) ∧
      (functionAt? 1 (signature (overriding payFunction) ++ ";") =
          some ({ payFunction with isVirtual := false, isOverride := true }, 0) ↔
        (∀ p ∈ payFunction.parameters, ¬ IsPayableArray p.type) ∧
          ∀ type ∈ payFunction.returns, ¬ IsPayableArray type) := by
  have hread : functionAt? 4 payInterface = some (payFunction, 1) := by
    decide +kernel
  have hnames : ∀ p ∈ payFunction.parameters, p.name ∉ reservedWords := by
    decide
  have hlocations : ∀ p ∈ payFunction.parameters,
      p.location.isSome = true → p.type.isReference = true := by
    decide +kernel
  exact ⟨hread, hnames, hlocations, overriding_redeclares_iff hread hnames hlocations⟩

/-- A function that passes an array of payable addresses is not redeclared as it is. -/
theorem not_overriding_redeclares :
    ¬ ∀ (n left : Nat) (text : String) (f : Function),
      functionAt? n text = some (f, left) →
      (∀ p ∈ f.parameters, p.name ∉ reservedWords) →
      (∀ p ∈ f.parameters, p.location.isSome = true → p.type.isReference = true) →
      functionAt? 1 (signature (overriding f) ++ ";") =
        some ({ f with isVirtual := false, isOverride := true }, 0) := by
  intro h
  have hread : functionAt? 4
      "interface VaultBase \x7b function pay(address payable[] memory to) external; \x7d" =
      some ({ name := "pay", visibility := .externally,
              parameters := [⟨"to", .named "address[] payable", some .memory⟩] }, 1) := by
    decide +kernel
  have hredeclared := h _ _ _ _ hread (by decide) (by decide +kernel)
  revert hredeclared
  decide +kernel

end Gap
end Generation
end ContractGen
