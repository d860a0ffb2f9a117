import ContractGen.Proofs.ReadFile
import ContractGen.Source.File

/-!
# Printing and reading back

The text of a printable unit is read back as the same declarations, without the bodies of its
functions and modifiers.

**Results.**
* `Definitions.restore`: resolving enums undoes what reading forgets about types.
* `scan_print`: the tokens of the printed text show the glyphs of the unit.
* `parse_print`: printing and then parsing gives the outline of the unit.
-/

namespace ContractGen
namespace Target

/-! ## Enums -/

section Enums

variable {enums : List String}

mutual

/-- Neither statements nor types matter for the enums that are declared. -/
theorem Definitions.enumerationNames_outline
    (f : TypeExpr → TypeExpr) :
    ∀ d : Definitions, (d.outline.mapTypes f).enumerationNames = d.enumerationNames
  | ⟨contracts, interfaces, _, _, _, _, _, _⟩ => by
      simp [Definitions.outline, Definitions.mapTypes, Definitions.enumerationNames,
        Contract.listEnumerationNames_outline f contracts,
        Interface.listEnumerationNames_outline f interfaces]

/--
Emptying bodies and mapping types keep the enumeration names of a contract and of those inside it.
-/
theorem Contract.enumerationNames_outline
    (f : TypeExpr → TypeExpr) :
    ∀ c : Contract, (c.outline.mapTypes f).enumerationNames = c.enumerationNames
  | ⟨_, _, _, _, _, definitions⟩ => by
      simp [Contract.outline, Contract.mapTypes, Contract.enumerationNames,
        Definitions.enumerationNames_outline f definitions]

theorem Contract.listEnumerationNames_outline
    (f : TypeExpr → TypeExpr) :
    ∀ cs : List Contract,
      Contract.listEnumerationNames (Contract.listMapTypes f (Contract.listOutline cs)) =
        Contract.listEnumerationNames cs
  | [] => rfl
  | c :: cs => by
      simp [Contract.listOutline, Contract.listMapTypes, Contract.listEnumerationNames,
        Contract.enumerationNames_outline f c, Contract.listEnumerationNames_outline f cs]

/--
Emptying bodies and mapping types keep the enumeration names of an interface and of those inside it.
-/
theorem Interface.enumerationNames_outline
    (f : TypeExpr → TypeExpr) :
    ∀ i : Interface, (i.outline.mapTypes f).enumerationNames = i.enumerationNames
  | ⟨_, _, definitions⟩ => by
      simp [Interface.outline, Interface.mapTypes, Interface.enumerationNames,
        Definitions.enumerationNames_outline f definitions]

theorem Interface.listEnumerationNames_outline
    (f : TypeExpr → TypeExpr) :
    ∀ is : List Interface,
      Interface.listEnumerationNames (Interface.listMapTypes f (Interface.listOutline is)) =
        Interface.listEnumerationNames is
  | [] => rfl
  | i :: is => by
      simp [Interface.listOutline, Interface.listMapTypes, Interface.listEnumerationNames,
        Interface.enumerationNames_outline f i, Interface.listEnumerationNames_outline f is]

end

theorem mem_listEnumerationNames_contract
    {name : String} {cs : List Contract}
    (h : name ∈ Contract.listEnumerationNames cs) :
    ∃ c ∈ cs, name ∈ c.enumerationNames := by
  induction cs with
  | nil =>
      simp [Contract.listEnumerationNames] at h
  | cons c cs ih =>
      rw [Contract.listEnumerationNames, List.mem_append] at h
      rcases h with h | h
      · exact ⟨c, by simp, h⟩
      · obtain ⟨c', hc', hname⟩ := ih h
        exact ⟨c', by simp [hc'], hname⟩

theorem mem_listEnumerationNames_interface
    {name : String} {is : List Interface}
    (h : name ∈ Interface.listEnumerationNames is) :
    ∃ i ∈ is, name ∈ i.enumerationNames := by
  induction is with
  | nil =>
      simp [Interface.listEnumerationNames] at h
  | cons i is ih =>
      rw [Interface.listEnumerationNames, List.mem_append] at h
      rcases h with h | h
      · exact ⟨i, by simp, h⟩
      · obtain ⟨i', hi', hname⟩ := ih h
        exact ⟨i', by simp [hi'], hname⟩

/--
An enumeration name of a set of definitions is declared at its own level or inside one of its
contracts or interfaces.
-/
theorem mem_enumerationNames
    {name : String} {d : Definitions}
    (h : name ∈ d.enumerationNames) :
    (∃ e ∈ d.enumerations, e.name = name) ∨ (∃ c ∈ d.contracts, name ∈ c.enumerationNames) ∨
      ∃ i ∈ d.interfaces, name ∈ i.enumerationNames := by
  obtain ⟨contracts, interfaces, structures, enumerations, events, errors, functions,
    modifiers⟩ := d
  rw [Definitions.enumerationNames, List.mem_append, List.mem_append] at h
  rcases h with h | h | h
  · exact Or.inl (List.mem_map.mp h)
  · exact Or.inr (Or.inl (mem_listEnumerationNames_contract h))
  · exact Or.inr (Or.inr (mem_listEnumerationNames_interface h))

/-- Without contracts and interfaces inside, only its own enums are declared. -/
theorem isDeclarable_of_flat
    {name : String} {d : Definitions}
    (h : d.PrintableData enums)
    (hflat : d.contracts = [] ∧ d.interfaces = [])
    (hname : name ∈ d.enumerationNames) :
    IsDeclarable name := by
  rcases mem_enumerationNames hname with ⟨e, he, rfl⟩ | ⟨c, hc, -⟩ | ⟨i, hi, -⟩
  · exact (h.enumerations e he).name
  · rw [hflat.1] at hc
    cases hc
  · rw [hflat.2] at hi
    cases hi

/-- The enums of a printable unit have names that can be declared. -/
theorem SourceUnit.Printable.isDeclarable
    {u : SourceUnit}
    (h : u.Printable) :
    ∀ name ∈ u.enumerationNames, IsDeclarable name := by
  intro name hname
  rcases mem_enumerationNames hname with ⟨e, he, rfl⟩ | ⟨c, hc, hname⟩ | ⟨i, hi, hname⟩
  · exact (h.data.enumerations e he).name
  · obtain ⟨name', isAbstract, parents, implements, fields, definitions⟩ := c
    exact isDeclarable_of_flat (h.contracts _ hc).data (h.contracts _ hc).flat hname
  · obtain ⟨name', parents, definitions⟩ := i
    exact isDeclarable_of_flat (h.interfaces _ hi).data (h.interfaces _ hi).flat hname

end Enums

/-! ## Types are restored -/

section Restore

variable {enums : List String}

/-- Reading forgets which names are enums, and resolving them restores it. -/
def restore (enums : List String) (type : TypeExpr) : TypeExpr :=
  type.forget.resolve enums

/--
A printable type comes back from the names alone, once these are resolved with the unit's
enumerations.
-/
theorem restore_printable
    {type : TypeExpr}
    (h : type.Printable enums) :
    restore enums type = type := by
  unfold restore
  induction type with
  | named name =>
      exact if_neg h.2
  | enumeration name =>
      exact if_pos h
  | mapping key value ihkey ihvalue =>
      rw [TypeExpr.forget, TypeExpr.resolve, ihkey h.1, ihvalue h.2]
  | array element ih =>
      rw [TypeExpr.forget, TypeExpr.resolve, ih h]

/-- A type that may be a parameter comes back from what the reader keeps of it. -/
theorem restore_passable
    (henums : ∀ name ∈ enums, IsDeclarable name)
    {type : TypeExpr}
    (h : type.Passable enums) :
    restore enums type = type := by
  rcases h with rfl | h
  · refine if_neg fun hmem => ?_
    -- a space is no part of a name
    have hid := (henums _ hmem).isIdentifier
    revert hid
    decide
  · exact restore_printable h

/-- A list of declarations is restored if each of them is. -/
theorem map_restore
    {α : Type} {mapTypes : (TypeExpr → TypeExpr) → α → α} {xs : List α}
    (h : ∀ x ∈ xs, mapTypes (TypeExpr.resolve enums) (mapTypes TypeExpr.forget x) = x) :
    (xs.map (mapTypes TypeExpr.forget)).map (mapTypes (TypeExpr.resolve enums)) = xs := by
  rw [List.map_map]
  exact (List.map_congr_left h).trans (List.map_id xs)

theorem Parameter.restore
    (henums : ∀ name ∈ enums, IsDeclarable name)
    {p : Parameter}
    (h : p.Printable enums) :
    (p.mapType .forget).mapType (.resolve enums) = p := by
  have htype : p.type.forget.resolve enums = p.type := restore_passable henums h.type
  simp [Parameter.mapType, htype]

theorem LocalField.restore
    {f : LocalField}
    (h : f.Typed enums) :
    (f.mapType .forget).mapType (.resolve enums) = f := by
  have htype : f.type.forget.resolve enums = f.type := restore_printable h.type
  simp [LocalField.mapType, htype]

theorem Field.restore
    {f : Field}
    (h : f.Printable enums) :
    (f.mapType .forget).mapType (.resolve enums) = f := by
  have htype : f.type.forget.resolve enums = f.type := restore_printable h.type
  simp [Field.mapType, htype]

theorem Structure.restore
    {s : Structure}
    (h : s.Printable enums) :
    (s.mapTypes .forget).mapTypes (.resolve enums) = s := by
  have hfields := map_restore fun f hf => LocalField.restore (h.fields f hf).typed
  simp only [Structure.mapTypes, hfields]

theorem Event.restore
    {e : Event}
    (h : e.Printable enums) :
    (e.mapTypes .forget).mapTypes (.resolve enums) = e := by
  have hparameters := map_restore fun f hf => LocalField.restore (h.parameters f hf).typed
  simp only [Event.mapTypes, hparameters]

theorem ErrorDefinition.restore
    {e : ErrorDefinition}
    (h : e.Printable enums) :
    (e.mapTypes .forget).mapTypes (.resolve enums) = e := by
  have hparameters := map_restore fun f hf => LocalField.restore (h.parameters f hf).typed
  simp only [ErrorDefinition.mapTypes, hparameters]

/-- A function comes back from its names alone, with its body emptied. -/
theorem Function.restore
    (henums : ∀ name ∈ enums, IsDeclarable name)
    {f : Function}
    (h : f.PrintableHeader enums) :
    (f.outline.mapTypes .forget).mapTypes (.resolve enums) = f.outline := by
  have hparameters := map_restore fun p hp => Parameter.restore henums (h.parameters p hp)
  have hreturns : (f.returns.map TypeExpr.forget).map (TypeExpr.resolve enums) = f.returns := by
    rw [List.map_map]
    exact (List.map_congr_left fun type ht => restore_passable henums (h.returns type ht)).trans
      (List.map_id f.returns)
  simp only [Function.mapTypes, Function.outline, hparameters, hreturns]

theorem Modifier.restore
    (henums : ∀ name ∈ enums, IsDeclarable name)
    {m : Modifier}
    (h : ∀ p ∈ m.parameters, p.Printable enums) :
    (m.outline.mapTypes .forget).mapTypes (.resolve enums) = m.outline := by
  have hparameters := map_restore fun p hp => Parameter.restore henums (h p hp)
  simp only [Modifier.mapTypes, Modifier.outline, hparameters]

/-- Outlines are restored as a whole if each of them is. -/
theorem map_outline_restore
    {α : Type} {outline : α → α} {mapTypes : (TypeExpr → TypeExpr) → α → α} {xs : List α}
    (h : ∀ x ∈ xs, mapTypes (TypeExpr.resolve enums) (mapTypes TypeExpr.forget (outline x)) =
      outline x) :
    ((xs.map outline).map (mapTypes TypeExpr.forget)).map (mapTypes (TypeExpr.resolve enums)) =
      xs.map outline := by
  refine map_restore fun y hy => ?_
  obtain ⟨x, hx, rfl⟩ := List.mem_map.mp hy
  exact h x hx

theorem Contract.listMapTypes_eq
    (f : TypeExpr → TypeExpr)
    (cs : List Contract) :
    Contract.listMapTypes f cs = cs.map (Contract.mapTypes f) := by
  induction cs with
  | nil =>
      rfl
  | cons c cs ih =>
      rw [Contract.listMapTypes, ih, List.map_cons]

theorem Contract.listOutline_eq
    (cs : List Contract) :
    Contract.listOutline cs = cs.map Contract.outline := by
  induction cs with
  | nil =>
      rfl
  | cons c cs ih =>
      rw [Contract.listOutline, ih, List.map_cons]

theorem Interface.listMapTypes_eq
    (f : TypeExpr → TypeExpr)
    (is : List Interface) :
    Interface.listMapTypes f is = is.map (Interface.mapTypes f) := by
  induction is with
  | nil =>
      rfl
  | cons i is ih =>
      rw [Interface.listMapTypes, ih, List.map_cons]

theorem Interface.listOutline_eq
    (is : List Interface) :
    Interface.listOutline is = is.map Interface.outline := by
  induction is with
  | nil =>
      rfl
  | cons i is ih =>
      rw [Interface.listOutline, ih, List.map_cons]

/-- Definitions are restored if their contracts and interfaces are. -/
theorem Definitions.restore
    (henums : ∀ name ∈ enums, IsDeclarable name)
    {d : Definitions}
    (hdata : d.PrintableData enums)
    (hfunctions : ∀ f ∈ d.functions, f.PrintableHeader enums)
    (hmodifiers : ∀ m ∈ d.modifiers, ∀ p ∈ m.parameters, p.Printable enums)
    (hcontracts : ∀ c ∈ d.contracts, (c.outline.mapTypes .forget).mapTypes (.resolve enums) =
      c.outline)
    (hinterfaces : ∀ i ∈ d.interfaces, (i.outline.mapTypes .forget).mapTypes (.resolve enums) =
      i.outline) :
    (d.outline.mapTypes .forget).mapTypes (.resolve enums) = d.outline := by
  have hstructures := map_restore fun s hs => Structure.restore (hdata.structures s hs)
  have hevents := map_restore fun e he => Event.restore (hdata.events e he)
  have herrors := map_restore fun e he => ErrorDefinition.restore (hdata.errors e he)
  have hfs := map_outline_restore fun f hf => Function.restore henums (hfunctions f hf)
  have hms := map_outline_restore fun m hm => Modifier.restore henums (hmodifiers m hm)
  have hcs := map_outline_restore hcontracts
  have his := map_outline_restore hinterfaces
  obtain ⟨contracts, interfaces, structures, enumerations, events, errors, functions,
    modifiers⟩ := d
  simp only [Definitions.outline, Definitions.mapTypes, Contract.listOutline_eq,
    Contract.listMapTypes_eq, Interface.listOutline_eq, Interface.listMapTypes_eq] at *
  rw [hcs, his, hstructures, hevents, herrors, hfs, hms]

/-- A printable contract comes back from its names alone, by restoring every declaration in it. -/
theorem Contract.restore
    (henums : ∀ name ∈ enums, IsDeclarable name)
    {c : Contract}
    (h : c.Printable enums) :
    (c.outline.mapTypes .forget).mapTypes (.resolve enums) = c.outline := by
  have hfields := map_restore fun f hf => Field.restore (h.fields f hf)
  have hdefinitions := Definitions.restore henums h.data (fun f hf => (h.functions f hf).header)
    (fun m hm => (h.modifiers m hm).parameters) (by simp [h.flat.1]) (by simp [h.flat.2])
  obtain ⟨name, isAbstract, parents, implements, fields, definitions⟩ := c
  simp only [Contract.outline, Contract.mapTypes] at *
  rw [hfields, hdefinitions]

theorem Interface.restore
    (henums : ∀ name ∈ enums, IsDeclarable name)
    {i : Interface}
    (h : i.Printable enums) :
    (i.outline.mapTypes .forget).mapTypes (.resolve enums) = i.outline := by
  have hdefinitions := Definitions.restore henums h.data h.functions (by simp [h.modifiers])
    (by simp [h.flat.1]) (by simp [h.flat.2])
  obtain ⟨name, parents, definitions⟩ := i
  simp only [Interface.outline, Interface.mapTypes] at *
  rw [hdefinitions]

end Restore

end Target

namespace Source

open Target Layout

/-! ## The license line -/

section License

variable {gs : List Glyph}

/-- The scanner takes a line comment as one token with the trimmed text. -/
theorem takeToken_comment
    {text : List Char}
    (hline : '\n' ∉ text)
    (rest : List Char) :
    takeToken '/' ('/' :: (text ++ '\n' :: rest)) =
      .ok ⟨.comment (String.ofList (Text.trim text)), '/' :: '/' :: text, '\n' :: rest⟩ := by
  have hall : ∀ c ∈ text, (c != '\n') = true := by
    intro c hc
    rw [bne_iff_ne]
    rintro rfl
    exact hline hc
  rw [takeToken, takeLineComment, List.takeWhile_append_of_pos hall,
    List.dropWhile_append_of_pos hall]
  simp

/-- A line comment is passed over. -/
theorem spells_comment
    {text : String}
    (hline : '\n' ∉ text.toList) :
    Spells ("//" ++ text ++ "\n") [] := by
  intro rest hs h p before src hoffset hchars
  have he : ("//" ++ text ++ "\n").toList ++ rest =
      '/' :: '/' :: (text.toList ++ '\n' :: rest) := by
    simp
  rw [he] at hchars ⊢
  have hpiece := takeToken_comment hline rest
  obtain ⟨ls, hls, hshows⟩ := h.blanks (w := ['\n']) (by simp; rfl)
    (p.after ('/' :: '/' :: text.toList)) (before ++ '/' :: '/' :: text.toList) src
    (by rw [Position.offset_after, hoffset, List.length_append])
    (by rw [hchars]; simp)
  refine ⟨⟨.comment (String.ofList (Text.trim text.toList)), p,
    (p.after ('/' :: '/' :: text.toList)).offset⟩ :: ls, ?_, ?_⟩
  · rw [scanFrom_cons rfl hpiece]
    rw [List.singleton_append] at hls
    rw [hls]
    rfl
  · rw [List.filter_cons_of_neg (by simp [Lexeme.isReadable, Token.isComment])]
    exact hshows

theorem dropStart?_self
    (start text : List Char) :
    Text.dropStart? start (start ++ text) = some text := by
  induction start with
  | nil =>
      rfl
  | cons c start ih =>
      simp [Text.dropStart?, ih]

theorem splitOnce?_self
    {separator : List Char}
    (hne : separator ≠ [])
    (text : List Char) :
    Text.splitOnce? separator (separator ++ text) = some ([], text) := by
  cases separator with
  | nil =>
      exact absurd rfl hne
  | cons c separator =>
      rw [List.cons_append, Text.splitOnce?, ← List.cons_append, dropStart?_self]

/-- The license is what the comment says after the tag. -/
theorem licenseIn?_tagged
    {license : String}
    (h : Text.trimmed license = license) :
    licenseIn? (String.ofList (Text.trim (' ' :: (licenseTag.toList ++ ' ' :: license.toList)))) =
      some license := by
  have htrim : Text.trim license.toList = license.toList := by
    rw [← String.ofList_inj, String.ofList_toList]
    exact h
  have hspace : ∀ cs, Text.trim (' ' :: cs) = Text.trim cs := fun _ => rfl
  obtain ⟨tail, hcomment, htail⟩ : ∃ tail,
      Text.trim (licenseTag.toList ++ ' ' :: license.toList) = licenseTag.toList ++ tail ∧
        Text.trim tail = license.toList := by
    cases hl : license.toList with
    | nil =>
        exact ⟨[], by decide, rfl⟩
    | cons c cs =>
        refine ⟨' ' :: license.toList, ?_, by rw [hspace, htrim, hl]⟩
        rw [← hl]
        refine trim_of_not_blank ?_ ?_
        · simp [licenseTag]
          decide
        · intro d hd
          have hlast : (licenseTag.toList ++ ' ' :: license.toList).getLast? =
              license.toList.getLast? := by
            simp [hl, List.getLast?_append, List.getLast?_cons]
          rw [hlast] at hd
          exact (not_blank_of_trim htrim).2 d hd
  have hsplit : Text.splitOnce? licenseTag.toList (licenseTag.toList ++ tail) = some ([], tail) :=
    splitOnce?_self (by decide) tail
  simp [licenseIn?, hspace, hcomment, hsplit, htail]

end License

/-! ## Whole units -/

section Units

variable {u : SourceUnit}

/-- The glyphs of a unit. -/
def unitGlyphs (u : SourceUnit) : List Glyph :=
  pragmaGlyphs u.pragma ++ (u.imports.flatMap importGlyphs ++ u.definitions.glyphs)

/-- What follows the first slashes of a printed unit on its first line. -/
def licenseLine (u : SourceUnit) : String :=
  " " ++ licenseTag ++ " " ++ u.license

theorem not_mem_licenseLine
    (h : u.Printable) :
    '\n' ∉ (licenseLine u).toList := by
  have hlicense := h.license.2
  have htag : '\n' ∉ licenseTag.toList := by
    decide
  simp [licenseLine, hlicense, htag]

/-- The first lines of a printed unit spell the license comment and the version pragma. -/
theorem prints_header
    (h : u.Printable) :
    Prints 0 [.comment (licenseTag ++ " " ++ u.license),
      .line ("pragma solidity " ++ u.pragma ++ ";")] (pragmaGlyphs u.pragma) := by
  have hcomment : Prints 0 [.comment (licenseTag ++ " " ++ u.license)] [] := by
    have hline := spells_comment (not_mem_licenseLine h)
    have htext : "//" ++ licenseLine u ++ "\n" =
        layoutAll .standard 0 [.comment (licenseTag ++ " " ++ u.license)] := by
      rw [← String.toList_inj]
      simp [licenseLine, layoutAll, layoutOne, lineText, Indent.margin, Indent.standard]
    rw [htext] at hline
    exact hline
  exact hcomment.append (prints_pragma h.pragma)

/-- The text of a unit spells its glyphs. -/
theorem spells_print
    (h : u.Printable) :
    Spells u.print (unitGlyphs u) := by
  have himports : Prints 0 (u.imports.map fun path => .line ("import \"" ++ path ++ "\";"))
      (u.imports.flatMap importGlyphs) :=
    prints_flatMap fun path hpath => prints_import (h.imports path hpath)
  have hall := (((printsGroups_one (prints_header h)).append (printsGroups_one himports)).append
    (SourceUnit.prints_definitions h.isDeclarable h)).separated
  have hprint : u.print = layoutAll .standard 0 u.fragments := render_eq .standard u.fragments
  rw [hprint, unitGlyphs, ← List.append_assoc]
  exact hall

theorem separatedFrom_prefix
    (before : List Fragment)
    (groups : List (List Fragment)) :
    ∃ more, Fragment.separatedFrom before groups = before ++ more := by
  fun_induction Fragment.separatedFrom before groups with
  | case1 before =>
      exact ⟨[], by simp⟩
  | case2 before groups ih =>
      exact ih
  | case3 before group groups _ ih =>
      obtain ⟨more, hmore⟩ := ih
      rw [hmore]
      by_cases he : before = []
      · exact ⟨group ++ more, by simp [he]⟩
      · exact ⟨.blank :: (group ++ more), by simp [he]⟩

/-- The text of a unit begins with its license line. -/
theorem print_eq
    (u : SourceUnit) :
    ∃ rest, u.print.toList = '/' :: '/' :: ((licenseLine u).toList ++ '\n' :: rest) := by
  obtain ⟨more, hmore⟩ := separatedFrom_prefix
    [.comment (licenseTag ++ " " ++ u.license), .line ("pragma solidity " ++ u.pragma ++ ";")]
    ((u.imports.map fun path => .line ("import \"" ++ path ++ "\";")) :: u.definitions.groups)
  refine ⟨(layoutAll .standard 0
    (.line ("pragma solidity " ++ u.pragma ++ ";") :: more)).toList, ?_⟩
  have hfragments : u.fragments = [.comment (licenseTag ++ " " ++ u.license),
      .line ("pragma solidity " ++ u.pragma ++ ";")] ++ more := hmore
  rw [SourceUnit.print, render_eq, hfragments]
  simp [licenseLine, layoutAll, layoutOne, lineText, Indent.margin, Indent.standard]

/-- The tokens of a printed unit: its license first, and then those that show its glyphs. -/
theorem scan_print
    (h : u.Printable) :
    ∃ ls, scan u.print = .ok ls ∧ ls.findSome? Lexeme.license? = some u.license ∧
      ∀ stop, Shows ⟨u.print.toList, stop⟩ (unitGlyphs u) (ls.filter Lexeme.isReadable) := by
  have hscans : Scans (u.print.toList ++ []) (unitGlyphs u ++ []) :=
    spells_print h [] [] scans_nil
  simp only [List.append_nil] at hscans
  obtain ⟨ls, hls, hshows⟩ := hscans.scan_eq
  refine ⟨ls, hls, ?_, hshows⟩
  obtain ⟨rest, hprint⟩ := print_eq u
  rw [scan, hprint, scanFrom_cons rfl (takeToken_comment (not_mem_licenseLine h) rest)] at hls
  cases hlater : scanFrom _ ('\n' :: rest) with
  | error e =>
      rw [hlater] at hls
      cases hls
  | ok later =>
      rw [hlater] at hls
      cases hls
      have hlicense := licenseIn?_tagged h.license.1
      have hline : (licenseLine u).toList =
          ' ' :: (licenseTag.toList ++ ' ' :: u.license.toList) := by
        simp [licenseLine]
      rw [← hline] at hlicense
      simp [Lexeme.license?, hlicense]

end Units

/-! ## Reading the whole text -/

section Parse

variable {u : SourceUnit}

/-- The items of a unit, in their printed order. -/
def unitItems (u : SourceUnit) : List Item :=
  [Item.pragma u.pragma] ++ (u.imports.map Item.importing ++ definitionItems u.definitions)

/-- The reader takes the printed items of a unit one after the other. -/
theorem readItems_unit
    {src : SourceText}
    (h : u.Printable) :
    ReadsItems src (unitGlyphs u) (unitItems u) := by
  have hpragma : Extends (ReadsItems src) (pragmaGlyphs u.pragma) [.pragma u.pragma] :=
    readsItems_one fun hs => readItem_pragma h.pragma
  have himports : Extends (ReadsItems src) (u.imports.flatMap importGlyphs)
      (u.imports.map .importing) :=
    extends_flatMap fun path _ => readsItems_one fun hs => readItem_import path
  have hall := hpragma.append (himports.append (readItems_definitions h.isDeclarable h))
  simpa [unitGlyphs, unitItems] using hall [] [] readsItems_nil

/-- Definitions are added to the definitions of a unit. -/
theorem foldl_addToUnit
    {items : List Item}
    (h : ∀ item ∈ items, ∀ u, item.addToUnit u = { u with definitions := item.addTo u.definitions })
    (u : SourceUnit) :
    items.foldl Item.addToUnit u =
      { u with definitions := items.foldl Item.addTo u.definitions } := by
  induction items generalizing u with
  | nil =>
      rfl
  | cons item items ih =>
      rw [List.foldl_cons, h item (by simp), ih fun i hi => h i (by simp [hi])]
      rfl

theorem foldl_imports
    (paths : List String)
    (u : SourceUnit) :
    (paths.map Item.importing).foldl Item.addToUnit u =
      { u with imports := u.imports ++ paths } := by
  induction paths generalizing u with
  | nil =>
      simp
  | cons path paths ih =>
      rw [List.map_cons, List.foldl_cons, ih]
      simp [Item.addToUnit]

/-- The items that definitions print to add up to the outline of the definitions, types as names. -/
theorem foldl_definitionItems
    {d : Definitions}
    (h : d.modifiers = []) :
    (definitionItems d).foldl Item.addTo {} = d.outline.mapTypes TypeExpr.forget := by
  obtain ⟨contracts, interfaces, structures, enumerations, events, errors, functions,
    modifiers⟩ := d
  obtain rfl := h
  simp [definitionItems, foldl_struct, foldl_enumeration, foldl_event, foldl_error, foldl_function,
    foldl_contract, foldl_interface, Definitions.outline, Definitions.mapTypes,
    Contract.listOutline_eq, Contract.listMapTypes_eq, Interface.listOutline_eq,
    Interface.listMapTypes_eq, Function.comp_def]

/-- What a unit is before its enums are told apart. -/
theorem foldl_unitItems
    (h : u.Printable)
    (name : String) :
    (unitItems u).foldl Item.addToUnit { name, license := u.license, pragma := "" } =
      { name, license := u.license, pragma := u.pragma, imports := u.imports
        definitions := u.definitions.outline.mapTypes TypeExpr.forget } := by
  have hdefinitions : ∀ item ∈ definitionItems u.definitions, ∀ v,
      item.addToUnit v = { v with definitions := item.addTo v.definitions } := by
    intro item hitem v
    simp only [definitionItems, List.mem_append, List.mem_map] at hitem
    rcases hitem with (((((⟨_, _, rfl⟩ | ⟨_, _, rfl⟩) | ⟨_, _, rfl⟩) | ⟨_, _, rfl⟩) |
      ⟨_, _, rfl⟩) | ⟨_, _, rfl⟩) | ⟨_, _, rfl⟩ <;> rfl
  rw [unitItems, List.foldl_append, List.foldl_append, foldl_imports,
    foldl_addToUnit hdefinitions]
  simp [Item.addToUnit, foldl_definitionItems h.modifiers]

/-- The text of a printable unit is read back as its outline. -/
theorem parse_print
    {u : SourceUnit} {filename : String}
    (h : u.Printable)
    (hname : Path.stem? filename = some u.name) :
    parse (unitName filename) u.print = .ok u.outline := by
  obtain ⟨ls, hscan, hlicense, hshows⟩ := scan_print h
  have hitems := readItems_unit h _ (hshows ((ls.getLast?.map Lexeme.start).getD {}))
  have hunit : readUnit (unitName filename) u.print.toList ls =
      .ok { name := u.name, license := u.license, pragma := u.pragma, imports := u.imports,
            definitions := u.definitions.outline.mapTypes TypeExpr.forget } := by
    simp [readUnit, hitems, hlicense, unitName, hname, foldl_unitItems h, bind, Except.bind, pure,
      Except.pure]
  have hrestore : (u.definitions.outline.mapTypes TypeExpr.forget).mapTypes
      (TypeExpr.resolve u.enumerationNames) = u.definitions.outline :=
    Definitions.restore h.isDeclarable h.data (fun f hf => (h.functions f hf).header)
      (by simp [h.modifiers]) (fun c hc => Contract.restore h.isDeclarable (h.contracts c hc))
      fun i hi => Interface.restore h.isDeclarable (h.interfaces i hi)
  have hnames : (u.definitions.outline.mapTypes TypeExpr.forget).enumerationNames =
      u.enumerationNames :=
    Definitions.enumerationNames_outline _ _
  have hresolve : SourceUnit.resolveOwnEnumerations
      { name := u.name, license := u.license, pragma := u.pragma, imports := u.imports,
        definitions := u.definitions.outline.mapTypes TypeExpr.forget } = u.outline := by
    rw [SourceUnit.resolveOwnEnumerations, SourceUnit.resolveEnumerations,
      SourceUnit.enumerationNames, hnames, hrestore]
    rfl
  simp [parse, hscan, hunit, hresolve, bind, Except.bind, pure, Except.pure]

/-- A unit with declarations of every kind. -/
def bank : SourceUnit where
  name := "Bank"
  license := "MIT"
  pragma := "^0.8.0"
  imports := ["./Owned.sol"]
  definitions :=
    { enumerations := [⟨"State", ["Open", "Closed"]⟩]
      structures := [⟨"Account",
        [⟨"owner", .named "address", true⟩, ⟨"state", .enumeration "State", false⟩]⟩]
      errors := [⟨"Denied", [⟨"", .named "address", false⟩]⟩]
      interfaces := [
        { name := "IBank", parents := ["lib.Base"]
          definitions := { functions := [
            { name := "close", visibility := .externally
              parameters := [⟨"to", payableAddress, none⟩] }] } }]
      contracts := [
        { name := "Bank", isAbstract := true, parents := ["Owned"], implements := ["IBank"]
          fields := [
            { name := "accounts", visibility := .internally
              type := .mapping (.named "address") (.array (.named "Account")) },
            { name := "limit", type := .named "uint256", initializer := some "max(1, [2])" }]
          definitions := {
            events := [⟨"Moved", [⟨"state", .enumeration "State", false⟩]⟩]
            modifiers := [
              { name := "open", isVirtual := true, statements := [.expression "check()"] }]
            functions := [
              { name := "close", mutability := some .payable, isVirtual := true, isOverride := true
                parameters := [⟨"to", payableAddress, none⟩,
                  ⟨"names", .array (.named "string"), some .memory⟩]
                returns := [.enumeration "State", .named "bytes"]
                statements := [
                  .conditional [⟨"state == State.Open", [.revert "still open"]⟩] none] }] } }] }

theorem parse_print_bank :
    bank.Printable ∧ Path.stem? "out/Bank.sol" = some bank.name ∧
      parse (unitName "out/Bank.sol") bank.print = .ok bank.outline :=
  ⟨by decide +kernel, by decide +kernel, parse_print (by decide +kernel) (by decide +kernel)⟩

end Parse

end Source

end ContractGen
