import ContractGen.Proofs.ChartLines
import ContractGen.Proofs.TokenTiling

/-!
# The transitions of a diagram, line by line

Each line of the block of a diagram contributes at most one transition, and the transitions of the
diagram are these contributions in the order of the lines. A line contributes only if it is an arrow
between two states whose label has a trigger and goes on in the documented form, with a guard in
brackets and an action behind a slash. A line of this form whose guard has no closing bracket inside
does contribute.

**Definitions.**
* `IsBlock`: the lines between the first start of a block and the next end.
* `IsStep`: the lines that are an arrow between two states with a trigger.
* `Contributes`: what a line may and must contribute.

**Results.**
* `transitions_eq_flatten`: the transitions of a diagram are the contributions of its lines.
* `parse_accounts`: which lines contribute a transition, and which one.
* `not_parse_keeps_every_trigger`: a line whose guard is not closed has a trigger and is dropped.
-/

namespace ContractGen
namespace Behavior

/-! ## Blocks -/

section Blocks

/-- The lines between the first line that starts a block and the next line that ends one. -/
def IsBlock
    (lines block : List (List Char)) : Prop :=
  ∃ before start stop after, lines = before ++ start :: (block ++ stop :: after) ∧
    (∀ line ∈ before, startsBlock line = false) ∧ startsBlock start = true ∧
    (∀ line ∈ block, endsBlock line = false) ∧ endsBlock stop = true

variable {lines block : List (List Char)}

/-- A list cut at the first element with a property. -/
theorem takeWhile_dropWhile_cut
    {α : Type}
    {p : α → Bool}
    {before after : List α}
    {a : α}
    (hbefore : ∀ b ∈ before, p b = false)
    (ha : p a = true) :
    ((before ++ a :: after).takeWhile fun b => !p b) = before ∧
      ((before ++ a :: after).dropWhile fun b => !p b) = a :: after := by
  have hskip : ∀ b ∈ before, (!p b) = true := by
    intro b hb
    rw [hbefore b hb]
    rfl
  rw [List.takeWhile_append_of_pos hskip, List.dropWhile_append_of_pos hskip]
  simp [ha]

/-- There is only one block. -/
theorem IsBlock.eq_takeWhile
    (h : IsBlock lines block) :
    block = ((lines.dropWhile fun line => !startsBlock line).tail.takeWhile fun line =>
      !endsBlock line) := by
  obtain ⟨before, start, stop, after, rfl, hbefore, hstart, hblock, hstop⟩ := h
  rw [(takeWhile_dropWhile_cut hbefore hstart).2, List.tail_cons,
    (takeWhile_dropWhile_cut hblock hstop).1]

/-- An element with a property is the first one at some place. -/
theorem exists_cut
    {α : Type}
    {p : α → Bool}
    {as : List α}
    (h : as.any p = true) :
    ∃ a after, p a = true ∧ as = (as.takeWhile fun b => !p b) ++ a :: after ∧
      ∀ b ∈ as.takeWhile (fun b => !p b), p b = false := by
  have hkept : ∀ b ∈ as.takeWhile (fun b => !p b), p b = false := by
    intro b hb
    simpa using List.all_eq_true.mp List.all_takeWhile b hb
  cases hrest : as.dropWhile fun b => !p b with
  | nil =>
      obtain ⟨a, ha, hpa⟩ := List.any_eq_true.mp h
      rw [← List.takeWhile_append_dropWhile (p := fun b => !p b) (l := as), hrest,
        List.append_nil] at ha
      rw [hkept a ha] at hpa
      cases hpa
  | cons a after =>
      refine ⟨a, after, ?_, ?_, hkept⟩
      · have hhead := List.head?_dropWhile_not (fun b => !p b) as
        simpa [hrest] using hhead
      · rw [← hrest, List.takeWhile_append_dropWhile]

/-- A diagram that is read is what the lines of its block say. -/
theorem ofLines_of_parse
    {text : String}
    {chart : Statechart}
    (h : Statechart.parse text = .ok chart) :
    ∃ block, IsBlock (Text.lines text.toList) block ∧ chart = Statechart.ofLines block := by
  unfold Statechart.parse at h
  generalize Text.lines text.toList = lines at h ⊢
  cases hrest : lines.dropWhile fun line => !startsBlock line with
  | nil =>
      simp only [hrest] at h
      cases h
  | cons start rest =>
      simp only [hrest] at h
      split at h
      · rename_i hany
        split at h
        · cases h
        · cases h
          obtain ⟨stop, after, hstop, hcut, hblock⟩ := exists_cut hany
          refine ⟨_, ⟨lines.takeWhile fun line => !startsBlock line, start, stop, after, ?_, ?_, ?_,
            hblock, hstop⟩, rfl⟩
          · rw [← hcut, ← hrest, List.takeWhile_append_dropWhile]
          · intro line hline
            simpa using List.all_eq_true.mp List.all_takeWhile line hline
          · have hhead := List.head?_dropWhile_not (fun line => !startsBlock line) lines
            simpa [hrest] using hhead
      · cases h

end Blocks

/-! ## What a line contributes -/

section Contributions

/-- A line that is an arrow between two states. Its label has a trigger up to the first sign that
ends one, and what follows has the given form. -/
def IsStep
    (form : List Char → Prop)
    (line : List Char)
    (source target trigger : String) : Prop :=
  ∃ before after,
    IsArrow (Text.trim line) ⟨.state source, .state target, before ++ after⟩ ∧
    (∀ c ∈ before, c ≠ '[' ∧ c ≠ '/') ∧ (∀ c ∈ after.head?, c = '[' ∨ c = '/') ∧
    Text.trim before ≠ [] ∧ trigger = String.ofList (Text.trim before) ∧ form after

/-- What a line contributes to the transitions: at most one, only as a step whose label may go on
so, and always as a step whose label must go on so. -/
structure Contributes
    (must may : List Char → Prop)
    (line : List Char)
    (parts : List Transition) : Prop where
  atMostOne : parts.length ≤ 1
  onlySteps : ∀ t ∈ parts, IsStep may line t.source t.target t.trigger
  everyStep : ∀ source target trigger, IsStep must line source target trigger →
    ∃ t, parts = [t] ∧ t.source = source ∧ t.target = target ∧ t.trigger = trigger

/-- The transitions of a diagram are the contributions of the lines of its block, in order. -/
def Accounts
    (must may : List Char → Prop)
    (text : String)
    (chart : Statechart) : Prop :=
  ∃ block parts, IsBlock (Text.lines text.toList) block ∧ chart.transitions = parts.flatten ∧
    List.Forall₂ (Contributes must may) block parts

/-- The transition of a line. -/
def transitionOf?
    (line : List Char) : Option Transition :=
  (arrowOf? (Text.trim line)).bind Arrow.transition?

variable {line : List Char}

theorem transitions_eq_flatten
    (block : List (List Char)) :
    (Statechart.ofLines block).transitions =
      (block.map fun line => (transitionOf? line).toList).flatten := by
  simp only [Statechart.ofLines, List.filterMap_filterMap]
  induction block with
  | nil =>
      rfl
  | cons line block ih =>
      rw [List.map_cons, List.flatten_cons, ← ih, List.filterMap_cons, ← transitionOf?]
      cases transitionOf? line <;> rfl

/-- A line that is an arrow is no comment. -/
theorem IsArrow.not_comment
    {a : Arrow}
    (h : IsArrow line a) :
    line.head? ≠ some '\'' := by
  obtain ⟨hsource⟩ := h
  cases hsource with
  | mark =>
      simp
  | state hname =>
      obtain ⟨c, cs, rfl, hstart, -⟩ := hname
      intro hhead
      obtain rfl : c = '\'' := Option.some.inj hhead
      exact absurd hstart (by decide)

/-- A line is read as the arrow that it is. -/
theorem arrowOf?_eq_some_iff
    {a : Arrow} :
    arrowOf? line = some a ↔ IsArrow line a := by
  constructor
  · intro h
    unfold arrowOf? at h
    split at h
    · cases h
    · exact readLine?_eq_some_iff.mp h
  · intro h
    rw [arrowOf?, if_neg h.not_comment, readLine?_eq_some_iff.mpr h]

theorem endsTrigger_iff
    {c : Char} :
    endsTrigger c = true ↔ c = '[' ∨ c = '/' := by
  simp [endsTrigger]

/-- The cut of a label at the first sign that ends a trigger. -/
theorem label_cut
    (label : List Char) :
    ∃ before after, label = before ++ after ∧ (∀ c ∈ before, endsTrigger c = false) ∧
      ∀ c ∈ after.head?, endsTrigger c = true := by
  refine ⟨label.takeWhile fun c => !endsTrigger c, label.dropWhile fun c => !endsTrigger c,
    List.takeWhile_append_dropWhile.symm, ?_, ?_⟩
  · intro c hc
    simpa using List.all_eq_true.mp List.all_takeWhile c hc
  · intro c hc
    have hhead := List.head?_dropWhile_not (fun c => !endsTrigger c) label
    rw [Option.mem_def.mp hc] at hhead
    simpa using hhead

/-- The transition of a line is a step in the form that is read. -/
theorem isStep_of_transitionOf?
    {t : Transition}
    (h : transitionOf? line = some t) :
    IsStep (IsTail (']' ∉ ·)) line t.source t.target t.trigger := by
  obtain ⟨⟨source, target, label⟩, harrow, htransition⟩ := Option.bind_eq_some_iff.mp h
  obtain ⟨before, after, rfl, hbefore, hafter⟩ := label_cut label
  unfold Arrow.transition? at htransition
  split at htransition
  · rename_i source' target' hsource htarget
    obtain ⟨l, hl, rfl⟩ := Option.map_eq_some_iff.mp htransition
    obtain ⟨htrigger, htail⟩ :=
      (isSome_parseLabel?_iff hbefore hafter).mp (Option.isSome_iff_exists.mpr ⟨l, hl⟩)
    dsimp only at hsource htarget
    subst hsource htarget
    refine ⟨before, after, arrowOf?_eq_some_iff.mp harrow, ?_, ?_, htrigger,
      trigger_of_parseLabel? hbefore hafter hl, htail⟩
    · intro c hc
      simpa [endsTrigger] using hbefore c hc
    · exact fun c hc => endsTrigger_iff.mp (hafter c hc)
  · cases htransition

/-- A step in the form that is read is the transition of its line. -/
theorem transitionOf?_of_isStep
    {source target trigger : String}
    (h : IsStep (IsTail (']' ∉ ·)) line source target trigger) :
    ∃ t, transitionOf? line = some t ∧ t.source = source ∧ t.target = target ∧
      t.trigger = trigger := by
  obtain ⟨before, after, harrow, hbefore, hafter, hne, rfl, htail⟩ := h
  have hplain : ∀ c ∈ before, endsTrigger c = false := by
    intro c hc
    simpa [endsTrigger] using hbefore c hc
  have hstop : ∀ c ∈ after.head?, endsTrigger c = true :=
    fun c hc => endsTrigger_iff.mpr (hafter c hc)
  obtain ⟨l, hl⟩ := Option.isSome_iff_exists.mp
    ((isSome_parseLabel?_iff hplain hstop).mpr ⟨hne, htail⟩)
  refine ⟨{ source, target, trigger := l.trigger, guard := l.guard, action := l.action }, ?_, rfl,
    rfl, trigger_of_parseLabel? hplain hstop hl⟩
  rw [transitionOf?, arrowOf?_eq_some_iff.mpr harrow, Option.bind_some, Arrow.transition?, hl]
  rfl

theorem IsTail.mono
    {inside inside' : List Char → Prop}
    {after : List Char}
    (himp : ∀ guard, inside guard → inside' guard)
    (h : IsTail inside after) :
    IsTail inside' after := by
  cases h with
  | nothing =>
      exact .nothing
  | action action =>
      exact .action action
  | guard h hw =>
      exact .guard (himp _ h) hw
  | both h hw action =>
      exact .both (himp _ h) hw action

theorem contributes_transitionOf?
    (line : List Char) :
    Contributes (IsTail (']' ∉ ·)) (IsTail fun _ => True) line (transitionOf? line).toList where
  atMostOne := by
    cases transitionOf? line <;> simp
  onlySteps := by
    intro t ht
    obtain ⟨before, after, harrow, hbefore, hafter, hne, htrigger, htail⟩ :=
      isStep_of_transitionOf? (Option.mem_toList.mp ht)
    exact ⟨before, after, harrow, hbefore, hafter, hne, htrigger, htail.mono fun _ _ => trivial⟩
  everyStep := by
    intro source target trigger hstep
    obtain ⟨t, ht, hparts⟩ := transitionOf?_of_isStep hstep
    exact ⟨t, by rw [ht]; rfl, hparts⟩

/-- Every line of the block of a diagram that is an arrow between two states with a trigger, and
whose label goes on with nothing, with a guard without a closing bracket, with an action, or with
both, contributes exactly one transition. Nothing else contributes, up to closing brackets inside a
guard. -/
theorem parse_accounts
    {text : String}
    {chart : Statechart}
    (h : Statechart.parse text = .ok chart) :
    Accounts (IsTail (']' ∉ ·)) (IsTail fun _ => True) text chart := by
  obtain ⟨block, hblock, rfl⟩ := ofLines_of_parse h
  refine ⟨block, _, hblock, transitions_eq_flatten block, ?_⟩
  rw [List.forall₂_map_right_iff]
  exact List.forall₂_same.mpr fun line _ => contributes_transitionOf? line

theorem parse_accounts_door :
    Accounts (IsTail (']' ∉ ·)) (IsTail fun _ => True)
      ("@startuml\n[*] --> Shut\nShut -> Open : push [locks/2 < 1] / log[0] = 1\n" ++
        "Open --> Shut :\n@enduml")
      { initial := some "Shut"
        transitions :=
          [{ source := "Shut", target := "Open", trigger := "push", guard := some "locks/2 < 1",
             action := some "log[0] = 1" }] } :=
  parse_accounts (by decide +kernel)

/-- Not every label with a trigger is kept: one that goes on in another form is dropped with its
line. -/
theorem not_parse_keeps_every_trigger :
    ¬ ∀ (text : String) (chart : Statechart), Statechart.parse text = .ok chart →
      Accounts (fun _ => True) (fun _ => True) text chart := by
  intro hkeeps
  obtain ⟨block, parts, hblock, hparts, hlines⟩ :=
    hkeeps "@startuml\n[*] --> A\nA --> B : go [open\n@enduml" { initial := some "A" }
      (by decide +kernel)
  have hlist : block = ["[*] --> A".toList, "A --> B : go [open".toList] := by
    rw [hblock.eq_takeWhile]
    decide +kernel
  subst hlist
  have hstep : IsStep (fun _ => True) "A --> B : go [open".toList "A" "B" "go" := by
    refine ⟨"go ".toList, "[open".toList, ?_, by simp, ?_, by decide +kernel, by decide +kernel,
      trivial⟩
    · exact readLine?_eq_some_iff.mp (by decide +kernel)
    · exact fun c hc => .inl (Option.some.inj hc).symm
  obtain _ | ⟨-, _ | ⟨hline, -⟩⟩ := hlines
  obtain ⟨t, rfl, -⟩ := hline.everyStep _ _ _ hstep
  simp at hparts

end Contributions

end Behavior
end ContractGen
