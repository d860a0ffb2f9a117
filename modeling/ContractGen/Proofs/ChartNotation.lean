import ContractGen.Proofs.ChartLines
import ContractGen.Proofs.Disk
import ContractGen.Proofs.TokenTiling

/-!
# Diagrams read back from their notation

A diagram is written down as the line `@startuml`, an arrow to its initial state if it has one, an
arrow with a label for each of its transitions, and the line `@enduml`. Other lines may stand
anywhere between, as long as each is a comment or neither an arrow nor an end. Whatever these lines
are and however the lines of the text end, the text is read as the diagram.

**Definitions.**
* `Interleaves`: the rows of a diagram with further lines between them.
* `IsText`: the texts that have given lines.
* `Draws`: the rows that write a diagram down.

**Results.**
* `lines_of_isText`: a text is split into its lines.
* `parseLabel?_label`: a written label is read as its parts.
* `parse_notation`: a diagram is read back from its notation.
-/

namespace ContractGen

/-! ## Lines of a text -/

namespace Text

/-- A text that consists of the given lines. A line ends with a newline or with a carriage return
and a newline; the last one need not end. -/
inductive IsText : List (List Char) → List Char → Prop
  | nil : IsText [] []
  | open {line : List Char} (h : '\n' ∉ line) (hne : line ≠ []) : IsText [line] line
  | newline {line : List Char} {lines : List (List Char)} {text : List Char}
      (h : '\n' ∉ line) (hend : line.getLast? ≠ some '\r') (rest : IsText lines text) :
      IsText (line :: lines) (line ++ '\n' :: text)
  | carriage {line : List Char} {lines : List (List Char)} {text : List Char}
      (h : '\n' ∉ line) (rest : IsText lines text) :
      IsText (line :: lines) (line ++ '\r' :: '\n' :: text)

theorem lines_append
    {line : List Char}
    (h : '\n' ∉ line)
    (text : List Char) :
    lines (line ++ '\n' :: text) = dropCarriageReturn line :: lines text := by
  rw [lines, Files.Disk.splitAt_append, Files.Disk.splitAt_of_notMem h, lines]
  cases hparts : splitAt '\n' text with
  | nil =>
      exact absurd hparts (Files.Disk.splitAt_ne_nil '\n' text)
  | cons part parts =>
      rfl

/-- A text is split into its lines. -/
theorem lines_of_isText
    {ls : List (List Char)}
    {text : List Char}
    (h : IsText ls text) :
    lines text = ls := by
  induction h with
  | nil =>
      rfl
  | «open» h hne =>
      rw [lines, Files.Disk.splitAt_of_notMem h, finishLines, if_neg (by simpa using hne)]
  | newline h hend rest ih =>
      rw [lines_append h, ih, dropCarriageReturn, if_neg hend]
  | @carriage line ls text h rest ih =>
      have hline : '\n' ∉ line ++ ['\r'] := by
        simpa using h
      have htext : line ++ '\r' :: '\n' :: text = (line ++ ['\r']) ++ '\n' :: text := by
        rw [List.append_assoc]
        rfl
      rw [htext, lines_append hline, ih, dropCarriageReturn, if_pos List.getLast?_concat,
        List.dropLast_concat]

end Text

namespace Behavior

open Text (isBlank)

/-! ## Rows with further lines between them -/

section Interleaving

variable {α β : Type}

/-- Rows in their order, with any number of idle lines before, between and after them. -/
inductive Interleaves
    (idle : α → Prop) : List α → List α → Prop
  | nil : Interleaves idle [] []
  | keep (row : α) {rows lines : List α} (h : Interleaves idle rows lines) :
      Interleaves idle (row :: rows) (row :: lines)
  | skip {line : α} (hidle : idle line) {rows lines : List α} (h : Interleaves idle rows lines) :
      Interleaves idle rows (line :: lines)

variable {idle : α → Prop} {rows lines : List α}

/-- An idle row counts as one of the idle lines. -/
theorem Interleaves.absorb
    {row : α}
    (h : Interleaves idle (row :: rows) lines)
    (hrow : idle row) :
    Interleaves idle rows lines := by
  generalize hall : row :: rows = all at h
  induction h with
  | nil =>
      cases hall
  | keep row h ih =>
      cases hall
      exact .skip hrow h
  | skip hidle h ih =>
      exact .skip hidle (ih hall)

/-- Idle lines add nothing to what is collected from the rows. -/
theorem Interleaves.filterMap_eq
    {f : α → Option β}
    (hidle : ∀ line, idle line → f line = none)
    (h : Interleaves idle rows lines) :
    lines.filterMap f = rows.filterMap f := by
  induction h with
  | nil =>
      rfl
  | keep row h ih =>
      rw [List.filterMap_cons, List.filterMap_cons, ih]
  | skip hline h ih =>
      rw [List.filterMap_cons, hidle _ hline, ih]

/-- Looking for an idle first row finds it or an earlier idle line; the other rows follow. -/
theorem Interleaves.dropWhile_eq
    {p : α → Bool}
    {start : α}
    (hstart : p start = true)
    (hidle : idle start)
    (h : Interleaves idle (start :: rows) lines) :
    ∃ first rest, (lines.dropWhile fun line => !p line) = first :: rest ∧
      Interleaves idle rows rest := by
  generalize hall : start :: rows = all at h
  induction h with
  | nil =>
      cases hall
  | @keep row rows lines h ih =>
      cases hall
      exact ⟨start, lines, by simp [hstart], h⟩
  | @skip line hline all lines h ih =>
      cases hp : p line with
      | true =>
          subst hall
          exact ⟨line, lines, by simp [hp], h.absorb hidle⟩
      | false =>
          obtain ⟨first, rest, hdrop, hrest⟩ := ih hall
          exact ⟨first, rest, by simpa [hp] using hdrop, hrest⟩

/-- Cutting the lines at the first one with a property, which is a row, keeps the rows before it. -/
theorem Interleaves.takeWhile_eq
    {p : α → Bool}
    {stop : α}
    (hidle : ∀ line, idle line → p line = false)
    (hrows : ∀ row ∈ rows, p row = false)
    (hstop : p stop = true)
    (h : Interleaves idle (rows ++ [stop]) lines) :
    lines.any p = true ∧ Interleaves idle rows (lines.takeWhile fun line => !p line) := by
  generalize hall : rows ++ [stop] = all at h
  induction h generalizing rows with
  | nil =>
      cases rows <;> cases hall
  | @keep row all lines h ih =>
      cases rows with
      | nil =>
          cases hall
          refine ⟨by simp [hstop], ?_⟩
          simpa [hstop] using Interleaves.nil
      | cons row rows =>
          cases hall
          obtain ⟨hany, hkept⟩ := ih (fun r hr => hrows r (List.mem_cons_of_mem row hr)) rfl
          refine ⟨by simp [hany], ?_⟩
          simpa [hrows row List.mem_cons_self] using Interleaves.keep row hkept
  | @skip line hline all lines h ih =>
      obtain ⟨hany, hkept⟩ := ih hrows hall
      refine ⟨by simp [hany], ?_⟩
      simpa [hidle line hline] using Interleaves.skip hline hkept

end Interleaving

/-! ## Trimmed parts -/

section Parts

/-- A text that can be a part of a label: not empty and without blanks at its ends. -/
def IsPart
    (cs : List Char) : Prop :=
  cs ≠ [] ∧ Text.trim cs = cs

variable {cs : List Char}

theorem trim_space_cons :
    Text.trim (' ' :: cs) = Text.trim cs := by
  rfl

theorem IsPart.trim_space
    (h : IsPart cs) :
    Text.trim (cs ++ [' ']) = cs := by
  obtain ⟨hhead, -⟩ := Source.not_blank_of_trim h.2
  have hstart : ∀ ds : List Char, Text.trimStart (cs ++ ds) = cs ++ ds := by
    intro ds
    cases cs with
    | nil =>
        exact absurd rfl h.1
    | cons c cs =>
        simp [Text.trimStart, hhead c rfl]
  calc Text.trim (cs ++ [' '])
      = Text.trimEnd (cs ++ [' ']) := by rw [Text.trim, hstart]
    _ = Text.trimEnd cs := by
        rw [Text.trimEnd, Text.dropEndWhile, List.reverse_concat]
        rfl
    _ = Text.trim cs := by rw [Text.trim, ← List.append_nil cs, hstart, List.append_nil]
    _ = cs := h.2

/-- A text is a part if it begins with one and ends with one. -/
theorem IsPart.of_ends
    {first last : List Char}
    (hfirst : IsPart first)
    (hlast : IsPart last)
    (hstarts : first <+: cs)
    (hsuffix : last <:+ cs) :
    IsPart cs := by
  obtain ⟨rest, rfl⟩ := hstarts
  refine ⟨by simp [hfirst.1], Source.trim_of_not_blank ?_ ?_⟩
  · intro c hc
    rw [List.head?_append_of_ne_nil _ hfirst.1] at hc
    exact (Source.not_blank_of_trim hfirst.2).1 c hc
  · intro c hc
    obtain ⟨front, hfront⟩ := hsuffix
    rw [← hfront, List.getLast?_append_of_ne_nil _ hlast.1] at hc
    exact (Source.not_blank_of_trim hlast.2).2 c hc

theorem isPart_singleton
    {c : Char}
    (h : isBlank c = false) :
    IsPart [c] :=
  ⟨by simp, Source.trim_of_not_blank (by simpa using h) (by simpa using h)⟩

/-- The name of a state is a part, and no comment begins with it. -/
theorem IsState.isPart
    (h : IsState cs) :
    IsPart cs := by
  obtain ⟨c, ds, rfl, hstart, hds⟩ := h
  have hall : ∀ d ∈ c :: ds, isBlank d = false := by
    intro d hd
    rcases List.mem_cons.mp hd with rfl | hd
    · exact not_isBlank_of_isStatePart (isStatePart_of_isStateStart hstart)
    · exact not_isBlank_of_isStatePart (hds d hd)
  exact ⟨by simp, Source.trim_of_not_blank (fun d hd => hall d (List.mem_of_mem_head? hd))
    fun d hd => hall d (List.mem_of_getLast? hd)⟩

end Parts

/-! ## Labels written down -/

section WrittenLabels

/-- A transition that the notation can express. -/
structure IsDrawable
    (t : Transition) : Prop where
  source : IsState t.source.toList
  target : IsState t.target.toList
  trigger : IsPart t.trigger.toList
  trigger_plain : '[' ∉ t.trigger.toList ∧ '/' ∉ t.trigger.toList
  guard : ∀ g ∈ t.guard, IsPart g.toList ∧ ']' ∉ g.toList
  action : ∀ a ∈ t.action, IsPart a.toList ∧ a.toList.getLast? ≠ some ';'

/-- The text of a guard, in brackets. -/
def writtenGuard : Option String → List Char
  | none => []
  | some g => '[' :: (g.toList ++ [']'])

/-- The text of an action, behind a slash. -/
def writtenAction : Option String → List Char
  | none => []
  | some a => '/' :: ' ' :: a.toList

/-- A text with a space in front, unless it is empty. -/
def spaced
    (cs : List Char) : List Char :=
  if cs.isEmpty then [] else ' ' :: cs

/-- The label of a transition: `trigger [guard] / action`, without the absent parts. -/
def writtenLabel
    (t : Transition) : List Char :=
  t.trigger.toList ++ (spaced (writtenGuard t.guard) ++ spaced (writtenAction t.action))

variable {t : Transition}

theorem unlessEmpty_toList
    {s : String}
    (h : s.toList ≠ []) :
    unlessEmpty s.toList = some s := by
  rw [unlessEmpty, if_neg (by simpa using h), String.ofList_toList]

theorem dropEndWhile_semicolon
    {cs : List Char}
    (h : cs.getLast? ≠ some ';') :
    Text.dropEndWhile (· = ';') cs = cs := by
  have hlast : ∀ c ∈ cs.reverse.head?, decide (c = ';') = false := by
    intro c hc
    rw [List.head?_reverse] at hc
    simpa using fun he : c = ';' => h (he ▸ hc)
  rw [Text.dropEndWhile]
  cases hrev : cs.reverse with
  | nil =>
      simpa using hrev.symm
  | cons c ds =>
      rw [List.dropWhile_cons, hlast c (by rw [hrev]; rfl), if_neg Bool.false_ne_true, ← hrev,
        List.reverse_reverse]

/-- A written action is read, also with a space in front. -/
theorem readAction?_written
    {action : Option String}
    (h : ∀ a ∈ action, IsPart a.toList ∧ a.toList.getLast? ≠ some ';') :
    readAction? (writtenAction action) = some action ∧
      readAction? (spaced (writtenAction action)) = some action := by
  cases action with
  | none =>
      exact ⟨rfl, rfl⟩
  | some a =>
      obtain ⟨hpart, hend⟩ := h a rfl
      have hread : some (unlessEmpty (Text.dropEndWhile (· = ';') (Text.trim (' ' :: a.toList)))) =
          some (some a) := by
        rw [trim_space_cons, hpart.2, dropEndWhile_semicolon hend, unlessEmpty_toList hpart.1]
      exact ⟨hread, hread⟩

/-- A text without the signs that end a trigger has none of them. -/
theorem not_endsTrigger_of_plain
    {cs : List Char}
    (h : '[' ∉ cs ∧ '/' ∉ cs) :
    ∀ c ∈ cs ++ [' '], endsTrigger c = false := by
  intro c hc
  rw [Bool.eq_false_iff]
  intro hends
  simp only [endsTrigger, Bool.or_eq_true, decide_eq_true_eq] at hends
  rcases List.mem_append.mp hc with hc | hc
  · rcases hends with rfl | rfl
    · exact h.1 hc
    · exact h.2 hc
  · obtain rfl := List.mem_singleton.mp hc
    exact absurd hends (by decide)

/-- A written label is read as its parts. -/
theorem parseLabel?_label
    (h : IsDrawable t) :
    parseLabel? (writtenLabel t) = some { trigger := t.trigger, guard := t.guard, action := t.action }
    := by
  obtain ⟨haction, hspaced⟩ := readAction?_written h.action
  have htrim : Text.trim (t.trigger.toList ++ [' ']) = t.trigger.toList := h.trigger.trim_space
  have hne : ¬ t.trigger.toList.isEmpty = true := by
    simpa using h.trigger.1
  have hplain := not_endsTrigger_of_plain h.trigger_plain
  cases hguard : t.guard with
  | some g =>
      obtain ⟨hpart, hinside⟩ := h.guard g hguard
      have hlabel : writtenLabel t = (t.trigger.toList ++ [' ']) ++
          '[' :: (g.toList ++ ']' :: spaced (writtenAction t.action)) := by
        rw [writtenLabel, hguard]
        simp [writtenGuard, spaced]
      rw [hlabel, parseLabel?_append hplain (by intro c hc; cases hc; rfl),
        readGuard?_brackets hinside, Option.bind_some, hspaced, Option.bind_some, htrim,
        if_neg hne, hpart.2, unlessEmpty_toList hpart.1, String.ofList_toList]
  | none =>
      cases hact : t.action with
      | some a =>
          have hlabel : writtenLabel t =
              (t.trigger.toList ++ [' ']) ++ writtenAction (some a) := by
            rw [writtenLabel, hguard, hact]
            simp [writtenGuard, writtenAction, spaced]
          rw [hact] at haction
          rw [hlabel, parseLabel?_append hplain (by intro c hc; cases hc; rfl),
            readGuard?_plain (by simp [writtenAction]), Option.bind_some, haction,
            Option.bind_some, htrim, if_neg hne, String.ofList_toList]
      | none =>
          have hlabel : writtenLabel t = t.trigger.toList ++ [] := by
            rw [writtenLabel, hguard, hact]
            rfl
          rw [hlabel, parseLabel?_append (fun c hc => hplain c (List.mem_append_left _ hc))
              (by simp),
            readGuard?_plain (by simp), Option.bind_some, h.trigger.2, String.ofList_toList]
          exact if_neg hne

theorem isPart_writtenAction
    {a : String}
    (h : IsPart a.toList) :
    IsPart (writtenAction (some a)) :=
  .of_ends (isPart_singleton (c := '/') rfl) h ⟨_, rfl⟩ ⟨['/', ' '], rfl⟩

theorem isPart_writtenLabel
    (h : IsDrawable t) :
    IsPart (writtenLabel t) := by
  cases hact : t.action with
  | some a =>
      refine .of_ends h.trigger (isPart_writtenAction (h.action a hact).1) ⟨_, rfl⟩ ?_
      rw [writtenLabel, hact]
      exact ((List.suffix_cons ' ' _).trans (List.suffix_append _ _)).trans (List.suffix_append _ _)
  | none =>
      cases hguard : t.guard with
      | some g =>
          refine .of_ends h.trigger (isPart_singleton (c := ']') rfl) ⟨_, rfl⟩ ?_
          refine ⟨t.trigger.toList ++ (' ' :: '[' :: g.toList), ?_⟩
          rw [writtenLabel, hact, hguard]
          simp [writtenGuard, writtenAction, spaced]
      | none =>
          have hlabel : writtenLabel t = t.trigger.toList := by
            rw [writtenLabel, hact, hguard]
            exact List.append_nil _
          exact hlabel ▸ h.trigger

end WrittenLabels

/-! ## Rows -/

section Rows

/-- The row of a transition. -/
inductive IsRow
    (t : Transition) : List Char → Prop
  | intro {dash : List Char} (h : IsDash dash) :
      IsRow t (t.source.toList ++ ' ' :: (dash ++ ' ' :: (t.target.toList ++
        ' ' :: ':' :: ' ' :: writtenLabel t)))

/-- The rows for the initial state of a diagram: one arrow if there is such a state. -/
inductive IsEntry : Option String → List (List Char) → Prop
  | absent : IsEntry none []
  | arrow {state : String} {dash : List Char} (h : IsDash dash) :
      IsEntry (some state) ['[' :: '*' :: ']' :: ' ' :: (dash ++ ' ' :: state.toList)]

/-- The rows that write a diagram down. -/
inductive Draws
    (chart : Statechart) : List (List Char) → Prop
  | intro {entry steps : List (List Char)}
      (hentry : IsEntry chart.initial entry)
      (hsteps : List.Forall₂ IsRow chart.transitions steps) :
      Draws chart ("@startuml".toList :: (entry ++ steps ++ ["@enduml".toList]))

/-- A line that is a comment, or neither an arrow nor the end of a block. -/
def IsIdle
    (line : List Char) : Prop :=
  (Text.trim line).head? = some '\'' ∨
    (¬ ∃ a, IsArrow (Text.trim line) a) ∧ ¬ "@enduml".toList <+: Text.trim line

/-- The arrow that the row of a transition is. -/
def arrowOfTransition
    (t : Transition) : Arrow :=
  { source := .state t.source, target := .state t.target, label := writtenLabel t }

variable {t : Transition} {row line : List Char}

theorem endsBlock_iff :
    endsBlock line = true ↔ "@enduml".toList <+: Text.trim line := by
  rw [endsBlock, Text.startsWith, Option.isSome_iff_exists, Source.isPrefix_iff_dropStart?]

theorem arrowOf?_of_isIdle
    (h : IsIdle line) :
    arrowOf? (Text.trim line) = none := by
  unfold arrowOf?
  split
  · rfl
  · rename_i hcomment
    rw [Option.eq_none_iff_forall_ne_some]
    intro a ha
    exact (h.resolve_left hcomment).1 ⟨a, readLine?_eq_some_iff.mp ha⟩

theorem not_endsBlock_of_head
    {c : Char}
    (hhead : (Text.trim line).head? = some c)
    (hc : c ≠ '@') :
    endsBlock line = false := by
  rw [Bool.eq_false_iff]
  intro hends
  obtain ⟨rest, hrest⟩ := endsBlock_iff.mp hends
  rw [← hrest] at hhead
  exact hc (Option.some.inj hhead).symm

theorem not_endsBlock_of_isIdle
    (h : IsIdle line) :
    endsBlock line = false := by
  rcases h with hcomment | ⟨-, hends⟩
  · exact not_endsBlock_of_head hcomment (by decide)
  · rw [Bool.eq_false_iff]
    exact fun he => hends (endsBlock_iff.mp he)

theorem isIdle_start :
    IsIdle "@startuml".toList := by
  refine .inr ⟨?_, by decide +kernel⟩
  rintro ⟨a, ha⟩
  have hnone : readLine? (Text.trim "@startuml".toList) = none := by decide +kernel
  rw [readLine?_eq_some_iff.mpr ha] at hnone
  cases hnone

/-- A state is written as its name. -/
theorem written_state
    {name : String}
    (h : IsState name.toList) :
    Endpoint.Written (.state name) name.toList := by
  simpa using Endpoint.Written.state h

/-- A trimmed line that begins with an endpoint is an arrow, if its form is that of one, and does
not end the block. -/
theorem arrowOf?_of_isArrow
    {a : Arrow}
    {c : Char}
    (htrim : Text.trim row = row)
    (hhead : row.head? = some c)
    (hc : c ≠ '\'' ∧ c ≠ '@')
    (h : IsArrow row a) :
    arrowOf? (Text.trim row) = some a ∧ endsBlock row = false := by
  refine ⟨?_, not_endsBlock_of_head (htrim.symm ▸ hhead) hc.2⟩
  rw [htrim, arrowOf?, if_neg, readLine?_eq_some_iff.mpr h]
  rw [hhead]
  exact fun he => hc.1 (Option.some.inj he)

theorem IsState.head
    (h : IsState row)
    (rest : List Char) :
    ∃ c, (row ++ rest).head? = some c ∧ c ≠ '\'' ∧ c ≠ '@' := by
  obtain ⟨c, cs, rfl, hstart, -⟩ := h
  refine ⟨c, rfl, ?_, ?_⟩
  all_goals
    rintro rfl
    exact absurd hstart (by decide)

/-- The row of a transition is its arrow. -/
theorem arrowOf?_of_isRow
    (ht : IsDrawable t)
    (h : IsRow t row) :
    arrowOf? (Text.trim row) = some (arrowOfTransition t) ∧ endsBlock row = false := by
  obtain ⟨hdash⟩ := h
  rename_i dash
  have hspace : IsBlanks [' '] := by
    simp [IsBlanks, isBlank]
  obtain ⟨c, hhead, hc⟩ := ht.source.head (' ' :: (dash ++ ' ' :: (t.target.toList ++
    ' ' :: ':' :: ' ' :: writtenLabel t)))
  refine arrowOf?_of_isArrow ?_ hhead hc ?_
  · refine (IsPart.of_ends ht.source.isPart (isPart_writtenLabel ht) ⟨_, rfl⟩ ?_).2
    refine ⟨t.source.toList ++ ' ' :: (dash ++ ' ' :: (t.target.toList ++ [' ', ':', ' '])), ?_⟩
    simp
  · have hlabel := IsLabelled.text (' ' :: writtenLabel t)
    rw [trim_space_cons, (isPart_writtenLabel ht).2] at hlabel
    exact .intro (written_state ht.source) hdash (written_state ht.target) hlabel hspace hspace
      hspace

/-- The rows of the transitions are their arrows. -/
theorem filterMap_rows
    {transitions : List Transition}
    {rows : List (List Char)}
    (hts : ∀ t ∈ transitions, IsDrawable t)
    (h : List.Forall₂ IsRow transitions rows) :
    (rows.filterMap fun row => arrowOf? (Text.trim row)) = transitions.map arrowOfTransition ∧
      ∀ row ∈ rows, endsBlock row = false := by
  induction h with
  | nil =>
      exact ⟨rfl, by simp⟩
  | cons hrow h ih =>
      obtain ⟨harrow, hends⟩ := arrowOf?_of_isRow (hts _ List.mem_cons_self) hrow
      obtain ⟨harrows, hrows⟩ := ih fun t ht => hts t (List.mem_cons_of_mem _ ht)
      refine ⟨by rw [List.filterMap_cons, harrow, harrows, List.map_cons], ?_⟩
      exact List.forall_mem_cons.mpr ⟨hends, hrows⟩

/-- The arrow from the mark to a state. -/
def entryArrow
    (state : String) : Arrow :=
  { source := .mark, target := .state state, label := [] }

theorem filterMap_entry
    {initial : Option String}
    {entry : List (List Char)}
    (hinitial : ∀ s ∈ initial, IsState s.toList)
    (h : IsEntry initial entry) :
    (entry.filterMap fun row => arrowOf? (Text.trim row)) = initial.toList.map entryArrow ∧
      ∀ row ∈ entry, endsBlock row = false := by
  cases h with
  | absent =>
      exact ⟨rfl, by simp⟩
  | @arrow state dash hdash =>
      have hstate := hinitial state rfl
      have hspace : IsBlanks [' '] := by
        simp [IsBlanks, isBlank]
      have htrim : Text.trim ('[' :: '*' :: ']' :: ' ' :: (dash ++ ' ' :: state.toList)) =
          '[' :: '*' :: ']' :: ' ' :: (dash ++ ' ' :: state.toList) := by
        refine (IsPart.of_ends (isPart_singleton (c := '[') rfl) hstate.isPart ⟨_, rfl⟩ ?_).2
        exact ⟨'[' :: '*' :: ']' :: ' ' :: (dash ++ [' ']), by simp⟩
      have hform : IsArrow ('[' :: '*' :: ']' :: ' ' :: (dash ++ ' ' :: state.toList))
          (entryArrow state) := by
        have hnone : IsBlanks [] := by
          simp [IsBlanks]
        have harrow :=
          IsArrow.intro .mark hdash (written_state hstate) .bare hspace hspace hnone
        simpa [entryArrow] using harrow
      obtain ⟨harrow, hends⟩ := arrowOf?_of_isArrow htrim rfl (by decide) hform
      exact ⟨by rw [List.filterMap_cons, harrow]; rfl, by simpa using hends⟩

end Rows

/-! ## Diagrams -/

section Diagrams

/-- A diagram that the notation can express. -/
structure Statechart.IsDrawable
    (chart : Statechart) : Prop where
  nonempty : chart.initial.isSome = true ∨ chart.transitions ≠ []
  initial : ∀ s ∈ chart.initial, IsState s.toList
  transitions : ∀ t ∈ chart.transitions, Behavior.IsDrawable t

variable {chart : Statechart}

theorem findSome?_arrows
    (transitions : List Transition) :
    (transitions.map arrowOfTransition).findSome? Arrow.entry? = none := by
  simp [arrowOfTransition, Arrow.entry?]

theorem transition?_arrowOfTransition
    {t : Transition}
    (h : IsDrawable t) :
    (arrowOfTransition t).transition? = some t := by
  rw [arrowOfTransition, Arrow.transition?, parseLabel?_label h]
  rfl

theorem filterMap_arrows
    {transitions : List Transition}
    (h : ∀ t ∈ transitions, IsDrawable t) :
    (transitions.map arrowOfTransition).filterMap Arrow.transition? = transitions := by
  rw [List.filterMap_map]
  calc transitions.filterMap (Arrow.transition? ∘ arrowOfTransition)
      = transitions.filterMap some :=
        List.filterMap_congr fun t ht => transition?_arrowOfTransition (h t ht)
    _ = transitions := List.filterMap_some

/-- The rows of the arrows of a diagram give the diagram. -/
theorem ofLines_rows
    {entry steps : List (List Char)}
    (hchart : chart.IsDrawable)
    (hentry : IsEntry chart.initial entry)
    (hsteps : List.Forall₂ IsRow chart.transitions steps) :
    Statechart.ofLines (entry ++ steps) = chart := by
  rw [Statechart.ofLines, List.filterMap_append, (filterMap_entry hchart.initial hentry).1,
    (filterMap_rows hchart.transitions hsteps).1, List.findSome?_append, findSome?_arrows,
    List.filterMap_append, filterMap_arrows hchart.transitions]
  obtain ⟨initial, transitions⟩ := chart
  cases initial <;> rfl

/-- A diagram is read back from its notation, with any comments and any other lines that are
neither arrows nor ends between its rows. -/
theorem parse_notation
    {rows lines : List (List Char)}
    {text : String}
    (hchart : chart.IsDrawable)
    (hrows : Draws chart rows)
    (hlines : Interleaves IsIdle rows lines)
    (htext : Text.IsText lines text.toList) :
    Statechart.parse text = .ok chart := by
  obtain ⟨hentry, hsteps⟩ := hrows
  rename_i entry steps
  obtain ⟨first, rest, hdrop, hrest⟩ := hlines.dropWhile_eq
    (p := startsBlock) (by decide +kernel) isIdle_start
  have hinner : ∀ row ∈ entry ++ steps, endsBlock row = false := by
    intro row hrow
    rcases List.mem_append.mp hrow with hrow | hrow
    · exact (filterMap_entry hchart.initial hentry).2 row hrow
    · exact (filterMap_rows hchart.transitions hsteps).2 row hrow
  obtain ⟨hany, hblock⟩ := hrest.takeWhile_eq (fun _ => not_endsBlock_of_isIdle) hinner
    (by decide +kernel)
  have hread : Statechart.ofLines (rest.takeWhile fun line => !endsBlock line) = chart := by
    rw [Statechart.ofLines, hblock.filterMap_eq fun _ => arrowOf?_of_isIdle]
    exact ofLines_rows hchart hentry hsteps
  have hnonempty : ¬ (chart.initial.isNone && chart.transitions.isEmpty) = true := by
    rcases hchart.nonempty with hinitial | hne
    · simp [Option.isNone_eq_false_iff.mpr hinitial]
    · simp [hne]
  rw [Statechart.parse, Text.lines_of_isText htext]
  simp only [hdrop, hany, if_true, hread, if_neg hnonempty]

/-- A gate whose guard has a slash and whose action has brackets, a slash and a colon. -/
def gateChart : Statechart where
  initial := some "Locked"
  transitions :=
    [{ source := "Locked", target := "Open_2", trigger := "coin(paid)",
       guard := some "paid / 2 > 0", action := some "log[0] = a/b : c]" },
     { source := "Open_2", target := "Locked", trigger := "push" }]

/-- The rows of the gate. -/
def gateRows : List (List Char) :=
  ["@startuml".toList, "[*] -> Locked".toList,
    "Locked --> Open_2 : coin(paid) [paid / 2 > 0] / log[0] = a/b : c]".toList,
    "Open_2 -> Locked : push".toList, "@enduml".toList]

/-- The rows of the gate with comments and notes between them. -/
def gateLines : List (List Char) :=
  ["' Locked --> Gone : key".toList, "@startuml".toList, "[*] -> Locked".toList,
    "  note right : a coin --> opens".toList,
    "Locked --> Open_2 : coin(paid) [paid / 2 > 0] / log[0] = a/b : c]".toList,
    "Open_2 -> Locked : push".toList, "".toList, "@enduml".toList, "later".toList]

theorem parse_notation_gate :
    gateChart.IsDrawable ∧ Draws gateChart gateRows ∧ Interleaves IsIdle gateRows gateLines ∧
      Statechart.parse ("' Locked --> Gone : key\n@startuml\r\n[*] -> Locked\n" ++
        "  note right : a coin --> opens\n" ++
        "Locked --> Open_2 : coin(paid) [paid / 2 > 0] / log[0] = a/b : c]\r\n" ++
        "Open_2 -> Locked : push\n\n@enduml\nlater") = .ok gateChart := by
  have hlocked : IsState "Locked".toList :=
    ⟨'L', "ocked".toList, by decide +kernel, rfl, List.all_eq_true.mp (by decide +kernel)⟩
  have hopen : IsState "Open_2".toList :=
    ⟨'O', "pen_2".toList, by decide +kernel, rfl, List.all_eq_true.mp (by decide +kernel)⟩
  have hchart : gateChart.IsDrawable := by
    refine ⟨.inl rfl, by rintro s ⟨⟩; exact hlocked, List.forall_mem_cons.mpr ⟨?_,
      List.forall_mem_cons.mpr ⟨?_, by simp⟩⟩⟩
    · exact ⟨hlocked, hopen, ⟨by decide +kernel, by decide +kernel⟩, by decide +kernel,
        by rintro g ⟨⟩; exact ⟨⟨by decide +kernel, by decide +kernel⟩, by decide +kernel⟩,
        by rintro a ⟨⟩; exact ⟨⟨by decide +kernel, by decide +kernel⟩, by decide +kernel⟩⟩
    · exact ⟨hopen, hlocked, ⟨by decide +kernel, by decide +kernel⟩, by decide +kernel,
        by rintro g ⟨⟩, by rintro a ⟨⟩⟩
  have hrows : Draws gateChart gateRows := by
    have hsteps : List.Forall₂ IsRow gateChart.transitions
        ["Locked --> Open_2 : coin(paid) [paid / 2 > 0] / log[0] = a/b : c]".toList,
          "Open_2 -> Locked : push".toList] :=
      .cons (.intro (.inr rfl)) (.cons (.intro (.inl rfl)) .nil)
    exact .intro (.arrow (.inl rfl)) hsteps
  have hidle : ∀ line : List Char, readLine? (Text.trim line) = none →
      ¬ "@enduml".toList <+: Text.trim line → IsIdle line := by
    intro line hnone hend
    refine .inr ⟨?_, hend⟩
    rintro ⟨a, ha⟩
    rw [readLine?_eq_some_iff.mpr ha] at hnone
    cases hnone
  have hlines : Interleaves IsIdle gateRows gateLines :=
    .skip (.inl (by decide +kernel)) <| .keep _ <| .keep _ <|
      .skip (hidle _ (by decide +kernel) (by decide +kernel)) <| .keep _ <| .keep _ <|
      .skip (hidle _ (by decide +kernel) (by decide +kernel)) <| .keep _ <|
      .skip (hidle _ (by decide +kernel) (by decide +kernel)) .nil
  have htext : Text.IsText gateLines
      ("' Locked --> Gone : key".toList ++ '\n' :: ("@startuml".toList ++ '\r' :: '\n' ::
        ("[*] -> Locked".toList ++ '\n' :: ("  note right : a coin --> opens".toList ++ '\n' ::
        ("Locked --> Open_2 : coin(paid) [paid / 2 > 0] / log[0] = a/b : c]".toList ++
          '\r' :: '\n' :: ("Open_2 -> Locked : push".toList ++ '\n' :: ("".toList ++ '\n' ::
        ("@enduml".toList ++ '\n' :: "later".toList)))))))) :=
    .newline (by decide +kernel) (by decide +kernel) <| .carriage (by decide +kernel) <|
      .newline (by decide +kernel) (by decide +kernel) <|
      .newline (by decide +kernel) (by decide +kernel) <| .carriage (by decide +kernel) <|
      .newline (by decide +kernel) (by decide +kernel) <|
      .newline (by decide +kernel) (by decide +kernel) <|
      .newline (by decide +kernel) (by decide +kernel) <|
      .open (by decide +kernel) (by decide +kernel)
  refine ⟨hchart, hrows, hlines, parse_notation hchart hrows hlines ?_⟩
  convert htext using 1
  decide +kernel

end Diagrams

end Behavior
end ContractGen
