import ContractGen.Proofs.ReadDeclarations

/-!
# Reading files back

Contracts, interfaces and files are read item by item. The items come in the order in which they
are printed, and every kind keeps its own order.

**Results.**
* `readContract_yields`, `readInterface_yields`: members are read up to their enums.
* `readItems_definitions`: so are the definitions of a file.
-/

namespace ContractGen
namespace Source

open Target
open Domain (reservedWords)

/-! ## Members of contracts and interfaces -/

section Members

variable {src : SourceText} {gs hs : List Glyph} {enums : List String}

/-- An item that begins with a keyword is read by the reader for what comes after it. -/
theorem yields_after
    {α : Type} {keyword : String} {wrap : α → Item} {reader : Reader α} {member : Reader Item}
    {value : α}
    (hmember : ∀ l rest, l.token = .identifier keyword →
      member (l :: rest) = readAfter l wrap reader rest)
    (h : Yields src reader gs value hs) :
    Yields src member (word keyword :: gs) (wrap value) hs := by
  intro input hshows
  obtain ⟨l, rest, rfl, hl, hrest⟩ := shows_token.mp hshows
  obtain ⟨left, hleft, hok, hshown⟩ := h rest hrest
  refine ⟨left, Reading.lt_cons_of_lt hleft, ?_, hshown⟩
  simp [hmember l rest hl, readAfter, hok, bind, Except.bind, pure, Except.pure]

theorem readBaseList_yields
    {base : String} {bases : List String} :
    Yields src (readBaseList src)
      (commaGlyphs ((base :: bases).map fun name => dottedGlyphs (nameParts name)) ++
        sign "\x7b" :: hs) (base :: bases) (sign "\x7b" :: hs) := by
  induction bases generalizing base with
  | nil =>
      intro input hshows
      obtain ⟨r₁, h₁, hok₁, hs₁⟩ :=
        readQualifiedName_yields "a base name" (leads_token (by simp)) input hshows
      refine ⟨r₁, h₁, ?_, hs₁⟩
      rw [readBaseList]
      simp [hok₁, skipArguments_none (leads_token (by simp)) hs₁, Left.whole, atSymbol_eq hs₁,
        bind, Except.bind, pure, Except.pure]
  | cons next bases ih =>
      intro input hshows
      have hbase : Shows src (dottedGlyphs (nameParts base) ++ sign "," ::
          (commaGlyphs ((next :: bases).map fun name => dottedGlyphs (nameParts name)) ++
            sign "\x7b" :: hs)) input := by
        simpa [commaGlyphs] using hshows
      obtain ⟨r₁, h₁, hok₁, hs₁⟩ :=
        readQualifiedName_yields "a base name" (leads_token (by simp)) input hbase
      obtain ⟨r₂, h₂, hok₂, hs₂⟩ := ih r₁.tail (shows_tail hs₁)
      refine ⟨r₂, Reading.lt_of_lt_lt h₁ (Reading.lt_of_lt_tail h₂), ?_, hs₂⟩
      rw [readBaseList]
      simp [hok₁, skipArguments_none (leads_token (by simp)) hs₁, Left.whole, atSymbol_eq hs₁,
        hok₂, bind, Except.bind, pure, Except.pure]

/-- The bases of a contract or interface are read back. -/
theorem readBases_glyphs
    {bases : List String} {input : List Lexeme}
    (h : Shows src (basesGlyphs bases ++ sign "\x7b" :: hs) input) :
    ∃ rest hrest, readBases src input = .ok (bases, ⟨rest, hrest⟩) ∧
      Shows src (sign "\x7b" :: hs) rest := by
  cases bases with
  | nil =>
      exact ⟨input, Nat.le_refl _, by simp [readBases, atKeyword_eq h]; rfl, h⟩
  | cons base bases =>
      obtain ⟨rest, hlt, hok, hrest⟩ := readBaseList_yields input.tail (shows_tail h)
      refine ⟨rest, Reading.le_of_lt (Reading.lt_of_lt_tail hlt), ?_, hrest⟩
      simp [readBases, atKeyword_eq h, hok, bind, Except.bind, pure, Except.pure]

/-- A way of reading items goes on over some glyphs, and adds their items. -/
def Extends (read : List Glyph → List Item → Prop) (gs : List Glyph) (items : List Item) : Prop :=
  ∀ hs more, read hs more → read (gs ++ hs) (items ++ more)

theorem Extends.append
    {read : List Glyph → List Item → Prop} {gs gs' : List Glyph} {items items' : List Item}
    (h : Extends read gs items)
    (h' : Extends read gs' items') :
    Extends read (gs ++ gs') (items ++ items') := by
  intro hs more hread
  rw [List.append_assoc, List.append_assoc]
  exact h _ _ (h' _ _ hread)

theorem extends_flatMap
    {α : Type} {read : List Glyph → List Item → Prop} {glyphs : α → List Glyph} {item : α → Item}
    {xs : List α}
    (h : ∀ x ∈ xs, Extends read (glyphs x) [item x]) :
    Extends read (xs.flatMap glyphs) (xs.map item) := by
  induction xs with
  | nil =>
      exact fun hs more hread => hread
  | cons x xs ih =>
      exact (h x (by simp)).append (ih fun y hy => h y (by simp [hy]))

/-- Reading members up to the closing brace. -/
def ReadsMembers (src : SourceText) (context : String) (member : Reader Item)
    (later gs : List Glyph) (items : List Item) : Prop :=
  Yields src (readMembers src context member) gs items later

theorem readsMembers_close
    {context : String} {member : Reader Item} :
    ReadsMembers src context member hs (sign "\x7d" :: hs) [] := by
  intro input hshows
  obtain ⟨l, rest, rfl, hl, hrest⟩ := shows_token.mp hshows
  refine ⟨rest, Reading.rest_lt, ?_, hrest⟩
  rw [readMembers]
  simp [hl]

theorem readsMembers_one
    {context : String} {member : Reader Item} {later : List Glyph} {item : Item}
    (hlead : ∀ hs, Leads (· ≠ .symbol "\x7d") (gs ++ hs))
    (h : ∀ hs, Yields src member (gs ++ hs) item hs) :
    Extends (ReadsMembers src context member later) gs [item] := by
  intro hs more hmore input hshows
  obtain ⟨r₁, h₁, hok₁, hs₁⟩ := h hs input hshows
  obtain ⟨r₂, h₂, hok₂, hs₂⟩ := hmore r₁ hs₁
  have hbrace := atSymbol_false (hlead hs) hshows
  refine ⟨r₂, Reading.lt_of_lt_lt h₁ h₂, ?_, hs₂⟩
  obtain ⟨l, rest, rfl, hl⟩ := cons_of_atSymbol_false h₁ hbrace
  rw [readMembers]
  simp [hl, hok₁, hok₂, bind, Except.bind, pure, Except.pure]

theorem leads_word
    {name symbol : String} :
    Leads (· ≠ .symbol symbol) (word name :: gs) :=
  leads_token (by simp)

/-- A function with a body, after its keyword. -/
theorem readFunction_body
    (henums : ∀ name ∈ enums, IsDeclarable name)
    {level : Nat} {f : Function}
    (h : f.Printable enums level)
    (visibility : Visibility) :
    Yields src (readFunction src visibility) ((f.glyphs level).tail ++ hs)
      (f.outline.mapTypes TypeExpr.forget) hs := by
  have hread : Yields src (readFunction src visibility)
      (f.headerGlyphs.tail ++ sign "\x7b" :: (bodyGlyphs level f.statements ++ sign "\x7d" :: hs))
      (f.outline.mapTypes TypeExpr.forget) hs :=
    readFunction_yields henums h.header visibility (leads_token (by simp))
      fun context g => readFunctionTail_body h.body.nests
  simpa [Function.glyphs, Function.headerGlyphs] using hread

/-- A function without a body, after its keyword. -/
theorem readFunction_declaration
    (henums : ∀ name ∈ enums, IsDeclarable name)
    {f : Function}
    (h : f.PrintableHeader enums)
    (visibility : Visibility) :
    Yields src (readFunction src visibility) (f.declarationGlyphs.tail ++ hs)
      (f.outline.mapTypes TypeExpr.forget) hs := by
  have hread : Yields src (readFunction src visibility)
      (f.headerGlyphs.tail ++ sign ";" :: hs) (f.outline.mapTypes TypeExpr.forget) hs :=
    readFunction_yields henums h visibility (leads_token (by simp))
      fun context g => readFunctionTail_semicolon
  simpa [Function.declarationGlyphs, Function.headerGlyphs] using hread

end Members

/-! ## Contracts and interfaces -/

section Contracts

variable {src : SourceText} {hs : List Glyph} {enums : List String} {context : String}

/-- An error in a contract is told from a state variable by its parenthesis. -/
theorem readContractMember_error
    (henums : ∀ name ∈ enums, IsDeclarable name)
    {e : ErrorDefinition}
    (h : e.Printable enums) :
    Yields src (readContractMember src context) (e.glyphs ++ hs)
      (.error (e.mapTypes TypeExpr.forget)) hs := by
  intro input hshows
  obtain ⟨l, rest, rfl, hl, hrest⟩ := shows_token.mp hshows
  obtain ⟨left, hleft, hok, hshown⟩ := readErrorDefinition_yields henums h rest hrest
  have hopen : atSymbol "(" rest.tail = true := by
    simp [atSymbol_eq (shows_tail hrest)]
  refine ⟨left, Reading.lt_cons_of_lt hleft, ?_, hshown⟩
  simp [readContractMember, hl, hopen, readAfter, hok, bind, Except.bind, pure, Except.pure]

/-- A state variable begins with none of the keywords of other members. -/
theorem readContractMember_field
    (henums : ∀ name ∈ enums, IsDeclarable name)
    {f : Field}
    (h : f.Printable enums) :
    Yields src (readContractMember src context) (f.glyphs ++ hs)
      (.field (f.mapType TypeExpr.forget)) hs := by
  intro input hshows
  obtain ⟨left, hleft, hok, hshown⟩ := readField_yields henums h input hshows
  obtain ⟨first, gs, hgs, hfirst⟩ := TypeExpr.leads henums h.type
  have hne : ∀ keyword, keyword ∈ reservedWords →
      ¬(keyword = "mapping" ∨ keyword ∈ elementaryWords) → first ≠ keyword := by
    rintro keyword hr hplain rfl
    exact hplain (hfirst hr)
  rw [Field.glyphs, markedGlyphs, hgs] at hshows
  obtain ⟨l, rest, rfl, hl, -⟩ := shows_token.mp hshows
  refine ⟨left, hleft, ?_, hshown⟩
  simp [readContractMember, hl, hne "function" (by decide) (by decide),
    hne "modifier" (by decide) (by decide), hne "struct" (by decide) (by decide),
    hne "enum" (by decide) (by decide), hne "event" (by decide) (by decide),
    hne "constructor" (by decide) (by decide), hne "fallback" (by decide) (by decide),
    hne "receive" (by decide) (by decide), hne "using" (by decide) (by decide),
    hne "error" (by decide) (by decide), hok, bind, Except.bind, pure, Except.pure]

/-- The items of the members of a contract, in their printed order. -/
def contractItems (c : Contract) : List Item :=
  c.fields.map (fun f => Item.field (f.mapType TypeExpr.forget)) ++
    c.definitions.structures.map (fun s => Item.struct (s.mapTypes TypeExpr.forget)) ++
    c.definitions.enumerations.map Item.enumeration ++
    c.definitions.events.map (fun e => Item.event (e.mapTypes TypeExpr.forget)) ++
    c.definitions.errors.map (fun e => Item.error (e.mapTypes TypeExpr.forget)) ++
    c.definitions.modifiers.map (fun m => Item.modifier (m.outline.mapTypes TypeExpr.forget)) ++
    c.definitions.functions.map (fun f => Item.function (f.outline.mapTypes TypeExpr.forget))

theorem readsMembers_contract
    (henums : ∀ name ∈ enums, IsDeclarable name)
    {c : Contract}
    (h : c.Printable enums) :
    Extends (ReadsMembers src context (readContractMember src context) hs) (c.memberGlyphs 2)
      (contractItems c) := by
  refine .append (.append (.append (.append (.append (.append ?_ ?_) ?_) ?_) ?_) ?_) ?_
  · refine extends_flatMap fun f hf => readsMembers_one (fun hs => ?_) fun hs =>
      readContractMember_field henums (h.fields f hf)
    rw [Field.glyphs, List.append_assoc]
    exact leads_marked _ henums (h.fields f hf).type
  · exact extends_flatMap fun s hs => readsMembers_one (fun hs => leads_word) fun hs' =>
      yields_after (fun l rest hl => by simp [readContractMember, hl])
        (readStruct_yields henums (h.data.structures s hs))
  · exact extends_flatMap fun e he => readsMembers_one (fun hs => leads_word) fun hs =>
      yields_after (fun l rest hl => by simp [readContractMember, hl]) (readEnum_yields e)
  · exact extends_flatMap fun e he => readsMembers_one (fun hs => leads_word) fun hs =>
      yields_after (fun l rest hl => by simp [readContractMember, hl])
        (readEvent_yields henums (h.data.events e he))
  · exact extends_flatMap fun e he => readsMembers_one (fun hs => leads_word) fun hs =>
      readContractMember_error henums (h.data.errors e he)
  · exact extends_flatMap fun m hm => readsMembers_one (fun hs => leads_word) fun hs =>
      yields_after (fun l rest hl => by simp [readContractMember, hl])
        (readModifier_yields henums (h.modifiers m hm))
  · exact extends_flatMap fun f hf => readsMembers_one (fun hs => leads_word) fun hs =>
      yields_after (fun l rest hl => by simp [readContractMember, hl])
        (readFunction_body henums (h.functions f hf) .publicly)

end Contracts

/-! ## Items and definitions -/

section Items

variable {α : Type}

/-- Items of one kind are appended to the definitions of that kind. -/
theorem foldl_addTo
    {wrap : α → Item}
    (put : Definitions → List α → Definitions)
    (hnil : ∀ d, put d [] = d)
    (hcons : ∀ d x xs, put ((wrap x).addTo d) xs = put d (x :: xs))
    (d : Definitions)
    (xs : List α) :
    (xs.map wrap).foldl Item.addTo d = put d xs := by
  induction xs generalizing d with
  | nil =>
      exact (hnil d).symm
  | cons x xs ih =>
      rw [List.map_cons, List.foldl_cons, ih, hcons]

variable (d : Definitions) (xs : List α)

theorem foldl_field
    (g : α → Field) :
    (xs.map fun x => Item.field (g x)).foldl Item.addTo d = d :=
  foldl_addTo (fun d _ => d) (fun _ => rfl) (fun _ _ _ => rfl) d xs

theorem foldl_struct
    (g : α → Structure) :
    (xs.map fun x => Item.struct (g x)).foldl Item.addTo d =
      { d with structures := d.structures ++ xs.map g } :=
  foldl_addTo (fun d xs => { d with structures := d.structures ++ xs.map g })
    (by rintro ⟨⟩; simp) (by simp [Item.addTo]) d xs

theorem foldl_enumeration
    (xs : List Enumeration) :
    (xs.map Item.enumeration).foldl Item.addTo d =
      { d with enumerations := d.enumerations ++ xs } :=
  foldl_addTo (fun d xs => { d with enumerations := d.enumerations ++ xs })
    (by rintro ⟨⟩; simp) (by simp [Item.addTo]) d xs

theorem foldl_event
    (g : α → Event) :
    (xs.map fun x => Item.event (g x)).foldl Item.addTo d =
      { d with events := d.events ++ xs.map g } :=
  foldl_addTo (fun d xs => { d with events := d.events ++ xs.map g })
    (by rintro ⟨⟩; simp) (by simp [Item.addTo]) d xs

theorem foldl_error
    (g : α → ErrorDefinition) :
    (xs.map fun x => Item.error (g x)).foldl Item.addTo d =
      { d with errors := d.errors ++ xs.map g } :=
  foldl_addTo (fun d xs => { d with errors := d.errors ++ xs.map g })
    (by rintro ⟨⟩; simp) (by simp [Item.addTo]) d xs

theorem foldl_function
    (g : α → Function) :
    (xs.map fun x => Item.function (g x)).foldl Item.addTo d =
      { d with functions := d.functions ++ xs.map g } :=
  foldl_addTo (fun d xs => { d with functions := d.functions ++ xs.map g })
    (by rintro ⟨⟩; simp) (by simp [Item.addTo]) d xs

theorem foldl_modifier
    (g : α → Modifier) :
    (xs.map fun x => Item.modifier (g x)).foldl Item.addTo d =
      { d with modifiers := d.modifiers ++ xs.map g } :=
  foldl_addTo (fun d xs => { d with modifiers := d.modifiers ++ xs.map g })
    (by rintro ⟨⟩; simp) (by simp [Item.addTo]) d xs

theorem foldl_contract
    (g : α → Contract) :
    (xs.map fun x => Item.contract (g x)).foldl Item.addTo d =
      { d with contracts := d.contracts ++ xs.map g } :=
  foldl_addTo (fun d xs => { d with contracts := d.contracts ++ xs.map g })
    (by rintro ⟨⟩; simp) (by simp [Item.addTo]) d xs

theorem foldl_interface
    (g : α → Interface) :
    (xs.map fun x => Item.interface (g x)).foldl Item.addTo d =
      { d with interfaces := d.interfaces ++ xs.map g } :=
  foldl_addTo (fun d xs => { d with interfaces := d.interfaces ++ xs.map g })
    (by rintro ⟨⟩; simp) (by simp [Item.addTo]) d xs

/-- The definitions of a contract are the items of its members. -/
theorem foldl_contractItems
    {c : Contract}
    (hflat : c.definitions.contracts = [] ∧ c.definitions.interfaces = []) :
    (contractItems c).foldl Item.addTo {} = c.definitions.outline.mapTypes TypeExpr.forget := by
  obtain ⟨name, isAbstract, parents, implements, fields, ⟨⟩⟩ := c
  obtain ⟨rfl, rfl⟩ := hflat
  simp [contractItems, foldl_field, foldl_struct, foldl_enumeration, foldl_event, foldl_error,
    foldl_modifier, foldl_function, Definitions.outline, Definitions.mapTypes,
    Contract.listOutline, Contract.listMapTypes, Interface.listOutline, Interface.listMapTypes,
    Function.comp_def]

theorem filterMap_contractItems
    (c : Contract) :
    (contractItems c).filterMap Item.field? = c.fields.map (Field.mapType TypeExpr.forget) := by
  simp [contractItems, List.filterMap_map, Function.comp_def, Item.field?]

end Items

/-! ## Reading contracts and interfaces -/

section Bodies

variable {src : SourceText} {hs : List Glyph} {enums : List String}

theorem outline_mapTypes_contract
    (c : Contract)
    (f : TypeExpr → TypeExpr) :
    c.outline.mapTypes f =
      { name := c.name, isAbstract := c.isAbstract, parents := c.bases,
        fields := c.fields.map (Field.mapType f),
        definitions := c.definitions.outline.mapTypes f } := by
  obtain ⟨name, isAbstract, parents, implements, fields, definitions⟩ := c
  simp [Contract.outline, Contract.mapTypes, Contract.bases]

theorem outline_mapTypes_interface
    (i : Interface)
    (f : TypeExpr → TypeExpr) :
    i.outline.mapTypes f =
      { name := i.name, parents := i.parents,
        definitions := i.definitions.outline.mapTypes f } := by
  obtain ⟨name, parents, definitions⟩ := i
  simp [Interface.outline, Interface.mapTypes]

/-- A contract is read up to its enums and without statements. -/
theorem readContract_yields
    (henums : ∀ name ∈ enums, IsDeclarable name)
    {c : Contract}
    (h : c.Printable enums) :
    Yields src (readContract src c.isAbstract)
      (word c.name :: (basesGlyphs c.bases ++
        sign "\x7b" :: (c.memberGlyphs 2 ++ sign "\x7d" :: hs)))
      (c.outline.mapTypes TypeExpr.forget) hs := by
  intro input hshows
  obtain ⟨r₁, h₁, hok₁, hs₁⟩ := readIdentifier_yields "a contract name" c.name input hshows
  obtain ⟨r₂, h₂, hok₂, hs₂⟩ := readBases_glyphs hs₁
  obtain ⟨r₃, h₃, hok₃, hs₃⟩ := readSymbol_yields "\x7b" r₂ hs₂
  have hmembers : ReadsMembers src ("contract " ++ c.name)
      (readContractMember src ("contract " ++ c.name)) hs (c.memberGlyphs 2 ++ sign "\x7d" :: hs)
      (contractItems c ++ []) :=
    readsMembers_contract henums h _ _ readsMembers_close
  obtain ⟨r₄, h₄, hok₄, hs₄⟩ := hmembers r₃ hs₃
  refine ⟨r₄, by omega, ?_, hs₄⟩
  simp [readContract, hok₁, hok₂, hok₃, hok₄, foldl_contractItems h.flat, filterMap_contractItems,
    outline_mapTypes_contract, bind, Except.bind, pure, Except.pure]

/-- The items of the members of an interface, in their printed order. -/
def interfaceItems (i : Interface) : List Item :=
  i.definitions.structures.map (fun s => Item.struct (s.mapTypes TypeExpr.forget)) ++
    i.definitions.enumerations.map Item.enumeration ++
    i.definitions.events.map (fun e => Item.event (e.mapTypes TypeExpr.forget)) ++
    i.definitions.errors.map (fun e => Item.error (e.mapTypes TypeExpr.forget)) ++
    i.definitions.functions.map (fun f => Item.function (f.outline.mapTypes TypeExpr.forget))

theorem readsMembers_interface
    {context : String}
    (henums : ∀ name ∈ enums, IsDeclarable name)
    {i : Interface}
    (h : i.Printable enums) :
    Extends (ReadsMembers src context (readInterfaceMember src context) hs) i.memberGlyphs
      (interfaceItems i) := by
  refine .append (.append (.append (.append ?_ ?_) ?_) ?_) ?_
  · exact extends_flatMap fun s hs => readsMembers_one (fun hs => leads_word) fun hs' =>
      yields_after (fun l rest hl => by simp [readInterfaceMember, hl])
        (readStruct_yields henums (h.data.structures s hs))
  · exact extends_flatMap fun e he => readsMembers_one (fun hs => leads_word) fun hs =>
      yields_after (fun l rest hl => by simp [readInterfaceMember, hl]) (readEnum_yields e)
  · exact extends_flatMap fun e he => readsMembers_one (fun hs => leads_word) fun hs =>
      yields_after (fun l rest hl => by simp [readInterfaceMember, hl])
        (readEvent_yields henums (h.data.events e he))
  · exact extends_flatMap fun e he => readsMembers_one (fun hs => leads_word) fun hs =>
      yields_after (fun l rest hl => by simp [readInterfaceMember, hl])
        (readErrorDefinition_yields henums (h.data.errors e he))
  · exact extends_flatMap fun f hf => readsMembers_one (fun hs => leads_word) fun hs =>
      yields_after (fun l rest hl => by simp [readInterfaceMember, hl])
        (readFunction_declaration henums (h.functions f hf) .externally)

theorem foldl_interfaceItems
    {i : Interface}
    (h : i.Printable enums) :
    (interfaceItems i).foldl Item.addTo {} = i.definitions.outline.mapTypes TypeExpr.forget := by
  have hflat := h.flat
  have hmodifiers := h.modifiers
  obtain ⟨name, parents, ⟨⟩⟩ := i
  obtain ⟨rfl, rfl⟩ := hflat
  obtain rfl := hmodifiers
  simp [interfaceItems, foldl_struct, foldl_enumeration, foldl_event, foldl_error,
    foldl_function, Definitions.outline, Definitions.mapTypes, Contract.listOutline,
    Contract.listMapTypes, Interface.listOutline, Interface.listMapTypes, Function.comp_def]

/-- An interface is read up to its enums and without statements. -/
theorem readInterface_yields
    (henums : ∀ name ∈ enums, IsDeclarable name)
    {i : Interface}
    (h : i.Printable enums) :
    Yields src (readInterface src) (i.glyphs.tail ++ hs) (i.outline.mapTypes TypeExpr.forget)
      hs := by
  intro input hshows
  simp only [Interface.glyphs, List.tail_cons, List.cons_append, List.append_assoc,
    List.nil_append] at hshows
  obtain ⟨r₁, h₁, hok₁, hs₁⟩ := readIdentifier_yields "an interface name" i.name input hshows
  obtain ⟨r₂, h₂, hok₂, hs₂⟩ := readBases_glyphs hs₁
  obtain ⟨r₃, h₃, hok₃, hs₃⟩ := readSymbol_yields "\x7b" r₂ hs₂
  have hmembers : ReadsMembers src ("interface " ++ i.name)
      (readInterfaceMember src ("interface " ++ i.name)) hs (i.memberGlyphs ++ sign "\x7d" :: hs)
      (interfaceItems i ++ []) :=
    readsMembers_interface henums h _ _ readsMembers_close
  obtain ⟨r₄, h₄, hok₄, hs₄⟩ := hmembers r₃ hs₃
  refine ⟨r₄, by omega, ?_, hs₄⟩
  simp [readInterface, hok₁, hok₂, hok₃, hok₄, foldl_interfaceItems h,
    outline_mapTypes_interface, bind, Except.bind, pure, Except.pure]

end Bodies

/-! ## Whole files -/

section Files

variable {src : SourceText} {gs hs : List Glyph} {enums : List String}

/-- Reading the top-level declarations of a file to its end. -/
def ReadsItems (src : SourceText) (gs : List Glyph) (items : List Item) : Prop :=
  ∀ input, Shows src gs input → readItems src input = .ok items

theorem readsItems_nil :
    ReadsItems src [] [] := by
  intro input h
  rw [shows_nil.mp h, readItems]

theorem readsItems_one
    {item : Item}
    (h : ∀ hs, Yields src (readItem src) (gs ++ hs) item hs) :
    Extends (ReadsItems src) gs [item] := by
  intro hs more hmore input hshows
  obtain ⟨rest, hlt, hok, hrest⟩ := h hs input hshows
  cases input with
  | nil =>
      simp at hlt
  | cons l input =>
      rw [readItems]
      simp [hok, hmore rest hrest, bind, Except.bind, pure, Except.pure]

theorem readItem_contract
    (henums : ∀ name ∈ enums, IsDeclarable name)
    {c : Contract}
    (h : c.Printable enums) :
    Yields src (readItem src) (c.glyphs ++ hs) (.contract (c.outline.mapTypes TypeExpr.forget))
      hs := by
  have hread : Yields src (readContract src c.isAbstract)
      (word c.name :: (basesGlyphs c.bases ++
        sign "\x7b" :: (c.memberGlyphs 2 ++ sign "\x7d" :: hs)))
      (c.outline.mapTypes TypeExpr.forget) hs :=
    readContract_yields henums h
  cases ha : c.isAbstract with
  | false =>
      rw [ha] at hread
      have hitem : Yields src (readItem src) (word "contract" :: _)
          (.contract (c.outline.mapTypes TypeExpr.forget)) hs :=
        yields_after (fun l rest hl => by simp [readItem, hl]) hread
      simpa [Contract.glyphs, Contract.headerGlyphs, ha] using hitem
  | true =>
      rw [ha] at hread
      intro input hshows
      simp only [Contract.glyphs, Contract.headerGlyphs, ha, if_true, List.cons_append,
        List.nil_append, List.append_assoc] at hshows
      obtain ⟨l, rest, rfl, hl, hrest⟩ := shows_token.mp hshows
      obtain ⟨r₁, h₁, hok₁, hs₁⟩ := readKeyword_yields "contract" rest hrest
      obtain ⟨r₂, h₂, hok₂, hs₂⟩ := hread r₁ hs₁
      refine ⟨r₂, Reading.lt_cons_of_lt (Reading.lt_of_lt_lt h₁ h₂), ?_, hs₂⟩
      simp [readItem, hl, hok₁, hok₂, bind, Except.bind, pure, Except.pure]

theorem readItem_import
    (path : String) :
    Yields src (readItem src) (importGlyphs path ++ hs) (.importing path) hs := by
  have hread : Yields src (readImport src)
      (.token (.stringLiteral path) :: sign ";" :: hs) path hs := by
    intro input hshows
    obtain ⟨l, rest, rfl, hl, hrest⟩ := shows_token.mp hshows
    obtain ⟨k, rest, rfl, hk, hrest⟩ := shows_token.mp hrest
    refine ⟨rest, by simp only [List.length_cons]; omega, ?_, hrest⟩
    simp [readImport, readImportPath, hl, hk, bind, Except.bind, pure, Except.pure]
  exact yields_after (fun l rest hl => by simp [readItem, hl]) hread

theorem readItem_pragma
    {text : String}
    (h : IsStretch text) :
    Yields src (readItem src) (pragmaGlyphs text ++ hs) (.pragma text) hs := by
  have hread : Yields src (readPragma src)
      (word "solidity" :: stretchGlyph text :: sign ";" :: hs) (.pragma text) hs := by
    intro input hshows
    obtain ⟨rest, hlt, hok, hrest⟩ :=
      readRawUntil_yields "pragma" h input.tail (shows_tail hshows)
    refine ⟨rest, Reading.lt_of_lt_tail hlt, ?_, hrest⟩
    simp [readPragma, atKeyword_eq hshows, hok, bind, Except.bind, pure, Except.pure]
  have hitem : Yields src (readItem src) (word "pragma" :: _) (id (.pragma text)) hs :=
    yields_after (fun l rest hl => by simp [readItem, hl]) hread
  exact hitem

/-- The items of the definitions of a file, in their printed order. -/
def definitionItems (d : Definitions) : List Item :=
  d.enumerations.map Item.enumeration ++
    d.structures.map (fun s => Item.struct (s.mapTypes TypeExpr.forget)) ++
    d.events.map (fun e => Item.event (e.mapTypes TypeExpr.forget)) ++
    d.errors.map (fun e => Item.error (e.mapTypes TypeExpr.forget)) ++
    d.interfaces.map (fun i => Item.interface (i.outline.mapTypes TypeExpr.forget)) ++
    d.contracts.map (fun c => Item.contract (c.outline.mapTypes TypeExpr.forget)) ++
    d.functions.map (fun f => Item.function (f.outline.mapTypes TypeExpr.forget))

/-- The definitions of a file are read up to their enums and without statements. -/
theorem readItems_definitions
    {u : SourceUnit}
    (henums : ∀ name ∈ u.enumerationNames, IsDeclarable name)
    (h : u.Printable) :
    Extends (ReadsItems src) u.definitions.glyphs (definitionItems u.definitions) := by
  refine .append (.append (.append (.append (.append (.append ?_ ?_) ?_) ?_) ?_) ?_) ?_
  · exact extends_flatMap fun e he => readsItems_one fun hs =>
      yields_after (fun l rest hl => by simp [readItem, hl]) (readEnum_yields e)
  · exact extends_flatMap fun s hs => readsItems_one fun hs' =>
      yields_after (fun l rest hl => by simp [readItem, hl])
        (readStruct_yields henums (h.data.structures s hs))
  · exact extends_flatMap fun e he => readsItems_one fun hs =>
      yields_after (fun l rest hl => by simp [readItem, hl])
        (readEvent_yields henums (h.data.events e he))
  · exact extends_flatMap fun e he => readsItems_one fun hs =>
      yields_after (fun l rest hl => by simp [readItem, hl])
        (readErrorDefinition_yields henums (h.data.errors e he))
  · exact extends_flatMap fun i hi => readsItems_one fun hs =>
      yields_after (fun l rest hl => by simp [readItem, hl])
        (readInterface_yields henums (h.interfaces i hi))
  · exact extends_flatMap fun c hc => readsItems_one fun hs =>
      readItem_contract henums (h.contracts c hc)
  · exact extends_flatMap fun f hf => readsItems_one fun hs =>
      yields_after (fun l rest hl => by simp [readItem, hl])
        (readFunction_body henums (h.functions f hf) .internally)

end Files

end Source
end ContractGen
