import ContractGen.Proofs.Layout
import Mathlib.Data.List.Chain

/-!
# Fragments as lines

Nested fragments come to a list of lines, each with the depth at which it stands. What a builder
writes for them is the text of these lines, moved in by the level of the builder, and the builder is
back at its level afterwards. Going back a level never starts from the left margin.

**Definitions.**
* `Indent.unit`, `Indent.units`: one and several levels of indentation.
* `FlatLine`, `flatten`, `flatText`: the lines of fragments and their text at a level.
* `Builder.emit?`: emitting that fails when it would go back from the left margin.
* `Tidy`: no blank line at either end, and no two of them in a row.

**Results.**
* `Indent.margin_eq_units`: a margin is as many units as its level says.
* `layoutAll_eq_flatText`: the text of fragments is the text of their lines.
* `Builder.emit?_eq`: emitting never goes back from the left margin.
* `Fragment.separated_eq_intercalate`: groups are joined by one blank line each.
* `Tidy.separated`: tidy groups stay tidy when they are joined.
* `Builder.emit_flatText`: all of it about a builder in any state.
-/

namespace ContractGen
namespace Layout

/-! ## Indentation -/

section Indentation

/-- The text of one level of indentation. -/
def Indent.unit : Indent → String
  | spaces width => String.ofList (List.replicate width ' ')
  | tab => "\t"

/-- The text of several levels of indentation. -/
def Indent.units (indent : Indent) (count : Nat) : String :=
  String.join (List.replicate count indent.unit)

theorem Indent.units_succ
    (indent : Indent)
    (count : Nat) :
    indent.units (count + 1) = indent.unit ++ indent.units count := by
  rw [units, List.replicate_succ, String.join_cons, ← units]

/-- A margin is as many units as its level says. -/
theorem Indent.margin_eq_units
    (indent : Indent)
    (level : Nat) :
    indent.margin level = indent.units level := by
  induction level with
  | zero =>
      cases indent <;> simp [margin, units]
  | succ level ih =>
      rw [units_succ, ← ih, ← String.toList_inj]
      cases indent with
      | spaces width =>
          simp [margin, unit, Nat.succ_mul, Nat.add_comm]
      | tab =>
          simp [margin, unit, List.replicate_succ]

end Indentation

/-! ## Lines -/

/-- A line of fragments. -/
inductive FlatLine
  /-- A bare end of line. -/
  | blank
  /-- A text at a depth. -/
  | indented (depth : Nat) (text : String)
deriving DecidableEq, Repr

/-- The text of a line, for a builder at a level. -/
def FlatLine.text (indent : Indent) (level : Nat) : FlatLine → String
  | blank => "\n"
  | indented depth text => indent.units (level + depth) ++ text ++ "\n"

/-- The text of lines, for a builder at a level. -/
def flatText (indent : Indent) (level : Nat) (lines : List FlatLine) : String :=
  String.join (lines.map (FlatLine.text indent level))

mutual

/-- The lines of a fragment at a depth. -/
def flattenOne (depth : Nat) : Fragment → List FlatLine
  | .line text => [.indented depth text]
  | .blank => [.blank]
  | .comment text => [.indented depth ("// " ++ text)]
  | .block header body none => .indented depth header :: flatten (depth + 1) body
  | .block header body (some close) =>
    .indented depth header :: flatten (depth + 1) body ++ [.indented depth close]
  | .indent body => flatten (depth + 1) body
  | .sequence body => flatten depth body

/-- The lines of fragments at a depth. -/
def flatten (depth : Nat) : List Fragment → List FlatLine
  | [] => []
  | f :: fs => flattenOne depth f ++ flatten depth fs

end

section Lines

variable {indent : Indent} {level : Nat}

theorem flatText_append
    (lines more : List FlatLine) :
    flatText indent level (lines ++ more) =
      flatText indent level lines ++ flatText indent level more := by
  simp [flatText]

/-- The text of a line of code is the one that a builder writes. -/
theorem flatText_indented
    (depth : Nat)
    (text : String) :
    flatText indent level [.indented depth text] = lineText indent (level + depth) text := by
  simp [flatText, FlatLine.text, lineText, Indent.margin_eq_units]

mutual

/-- The text of a fragment is the text of its lines. -/
theorem layoutOne_eq_flatText
    (depth : Nat) :
    ∀ f : Fragment,
      layoutOne indent (level + depth) f = flatText indent level (flattenOne depth f)
  | .line text => by
      rw [layoutOne, flattenOne, flatText_indented]
  | .blank => by
      simp [layoutOne, flattenOne, flatText, FlatLine.text]
  | .comment text => by
      rw [layoutOne, flattenOne, flatText_indented]
  | .block header body none => by
      rw [layoutOne, flattenOne, Nat.add_assoc, layoutAll_eq_flatText (depth + 1) body,
        ← List.singleton_append, flatText_append, flatText_indented]
  | .block header body (some close) => by
      rw [layoutOne, flattenOne, Nat.add_assoc, layoutAll_eq_flatText (depth + 1) body,
        ← List.singleton_append, flatText_append, flatText_append, flatText_indented,
        flatText_indented]
  | .indent body => by
      rw [layoutOne, flattenOne, Nat.add_assoc, layoutAll_eq_flatText (depth + 1) body]
  | .sequence body => by
      rw [layoutOne, flattenOne, layoutAll_eq_flatText depth body]

/-- The text of fragments is the text of their lines. -/
theorem layoutAll_eq_flatText
    (depth : Nat) :
    ∀ fs : List Fragment,
      layoutAll indent (level + depth) fs = flatText indent level (flatten depth fs)
  | [] => by
      simp [layoutAll, flatten, flatText]
  | f :: fs => by
      rw [layoutAll, flatten, layoutOne_eq_flatText depth f, layoutAll_eq_flatText depth fs,
        flatText_append]

end

end Lines

/-! ## Levels -/

namespace Builder

/-- Go back one level, unless the level is the left margin. -/
def shallower? (b : Builder) : Option Builder :=
  if b.level = 0 then none else some b.shallower

mutual

/-- Append one fragment, and fail where it goes back from the left margin. -/
def emitOne? (b : Builder) : Fragment → Option Builder
  | .line text => some (b.line text)
  | .blank => some b.blank
  | .comment text => some (b.line ("// " ++ text))
  | .block header body none => ((b.line header).deeper.emit? body).bind shallower?
  | .block header body (some close) =>
    (((b.line header).deeper.emit? body).bind shallower?).map fun c => c.line close
  | .indent body => (b.deeper.emit? body).bind shallower?
  | .sequence body => b.emit? body

/-- Append fragments, and fail where they go back from the left margin. -/
def emit? (b : Builder) : List Fragment → Option Builder
  | [] => some b
  | f :: fs => (b.emitOne? f).bind fun c => c.emit? fs

end

section Levels

/-- After a body the builder is deeper than the left margin. -/
theorem shallower?_emit_deeper
    (b : Builder)
    (body : List Fragment) :
    (b.deeper.emit body).shallower? = some (b.deeper.emit body).shallower := by
  refine if_neg ?_
  rw [emit_eq]
  exact Nat.succ_ne_zero b.level

mutual

theorem emitOne?_eq
    (b : Builder) :
    ∀ f : Fragment, b.emitOne? f = some (b.emitOne f)
  | .line text => by
      rw [emitOne?, emitOne]
  | .blank => by
      rw [emitOne?, emitOne]
  | .comment text => by
      rw [emitOne?, emitOne]
  | .block header body none => by
      rw [emitOne?, emitOne, emit?_eq _ body, Option.bind_some, shallower?_emit_deeper]
  | .block header body (some close) => by
      rw [emitOne?, emitOne, emit?_eq _ body, Option.bind_some, shallower?_emit_deeper,
        Option.map_some]
  | .indent body => by
      rw [emitOne?, emitOne, emit?_eq _ body, Option.bind_some, shallower?_emit_deeper]
  | .sequence body => by
      rw [emitOne?, emitOne, emit?_eq b body]

/-- Emitting never goes back from the left margin. -/
theorem emit?_eq
    (b : Builder) :
    ∀ fs : List Fragment, b.emit? fs = some (b.emit fs)
  | [] => by
      rw [emit?, emit]
  | f :: fs => by
      rw [emit?, emit, emitOne?_eq b f, Option.bind_some, emit?_eq _ fs]

end

/-- Emitting two lists is emitting one after the other. -/
theorem emit_append
    (b : Builder)
    (fs gs : List Fragment) :
    b.emit (fs ++ gs) = (b.emit fs).emit gs := by
  rw [emit_eq, emit_eq b fs, emit_eq _ gs, layoutAll_append, String.append_assoc]

/-- Emitting appends the text of the lines and restores the level. -/
theorem emit_eq_flatText
    (b : Builder)
    (fs : List Fragment) :
    b.emit fs = { b with buffer := b.buffer ++ flatText b.indent b.level (flatten 0 fs) } := by
  rw [emit_eq, ← layoutAll_eq_flatText, Nat.add_zero]

end Levels

end Builder

/-! ## Groups -/

section Groups

/-- The groups that have fragments. -/
def nonempty (groups : List (List Fragment)) : List (List Fragment) :=
  groups.filter fun group => !group.isEmpty

/-- Fragments without a blank line at either end and without two of them in a row. -/
structure Tidy (fs : List Fragment) : Prop where
  head : ∀ f ∈ fs.head?, f ≠ .blank
  last : ∀ f ∈ fs.getLast?, f ≠ .blank
  apart : fs.IsChain fun f g => f = .blank → g ≠ .blank

/-- Two groups that are joined already count as two. -/
theorem intercalate_append_cons
    (separator : Fragment)
    (xs ys : List Fragment)
    (groups : List (List Fragment)) :
    [separator].intercalate ((xs ++ separator :: ys) :: groups) =
      [separator].intercalate (xs :: ys :: groups) := by
  cases groups with
  | nil =>
      simp [List.intercalate_cons_cons]
  | cons group groups =>
      simp [List.intercalate_cons_cons]

theorem nonempty_cons
    {group : List Fragment}
    (hne : group ≠ [])
    (groups : List (List Fragment)) :
    nonempty (group :: groups) = group :: nonempty groups :=
  List.filter_cons_of_pos (by simpa using hne)

/-- Joining goes on from what is already there as from a group. -/
theorem Fragment.separatedFrom_eq_intercalate
    (before : List Fragment)
    (groups : List (List Fragment)) :
    separatedFrom before groups = [blank].intercalate (nonempty (before :: groups)) := by
  induction groups generalizing before with
  | nil =>
      cases before with
      | nil =>
          rfl
      | cons f fs =>
          simp [separatedFrom, nonempty]
  | cons group groups ih =>
      cases group with
      | nil =>
          rw [separatedFrom, ih]
          simp [nonempty, List.filter_cons]
      | cons g gs =>
          rw [separatedFrom.eq_3 _ _ _ (List.cons_ne_nil g gs), ih]
          cases before with
          | nil =>
              rfl
          | cons f fs =>
              rw [List.isEmpty_cons, if_neg Bool.false_ne_true, nonempty_cons (by simp),
                intercalate_append_cons, nonempty_cons (by simp), nonempty_cons (by simp)]

/-- Groups are joined by one blank line each, and those without fragments are left out. -/
theorem Fragment.separated_eq_intercalate
    (groups : List (List Fragment)) :
    separated groups = [blank].intercalate (nonempty groups) :=
  separatedFrom_eq_intercalate [] groups

/-- Joining keeps what is joined, in its order. -/
theorem flatten_sublist_intercalate
    (separator : List Fragment)
    (groups : List (List Fragment)) :
    groups.flatten.Sublist (separator.intercalate groups) := by
  match groups with
  | [] =>
      exact List.Sublist.refl _
  | [group] =>
      simp
  | group :: next :: groups =>
      have hrest := flatten_sublist_intercalate separator (next :: groups)
      rw [List.intercalate_cons_cons, List.flatten_cons]
      exact (List.sublist_append_left group separator).append hrest

/-- Two tidy groups stay tidy when a blank line joins them. -/
theorem Tidy.append_blank
    {xs ys : List Fragment}
    (hxs : Tidy xs)
    (hys : Tidy ys)
    (hne : xs ≠ [])
    (hne' : ys ≠ []) :
    Tidy (xs ++ .blank :: ys) where
  head := by
    rw [List.head?_append_of_ne_nil _ hne]
    exact hxs.head
  last := by
    rw [List.getLast?_append_of_ne_nil _ (List.cons_ne_nil _ _), List.getLast?_cons_of_ne_nil hne']
    exact hys.last
  apart := by
    refine List.isChain_append.mpr ⟨hxs.apart, List.isChain_cons.mpr ⟨?_, hys.apart⟩, ?_⟩
    · exact fun f hf _ => hys.head f hf
    · exact fun f hf _ _ hblank => absurd hblank (hxs.last f hf)

theorem intercalate_ne_nil
    {separator group : List Fragment}
    (hne : group ≠ [])
    (groups : List (List Fragment)) :
    separator.intercalate (group :: groups) ≠ [] := by
  cases groups with
  | nil =>
      simpa using hne
  | cons next groups =>
      simp [List.intercalate_cons_cons, hne]

/-- Tidy groups stay tidy when blank lines join them. -/
theorem tidy_intercalate
    {groups : List (List Fragment)}
    (hne : ∀ group ∈ groups, group ≠ [])
    (htidy : ∀ group ∈ groups, Tidy group) :
    Tidy ([Fragment.blank].intercalate groups) := by
  match groups with
  | [] =>
      exact ⟨nofun, nofun, List.isChain_nil⟩
  | [group] =>
      rw [List.intercalate_singleton]
      exact htidy group List.mem_cons_self
  | group :: next :: groups =>
      obtain ⟨hgroup, hrest⟩ := List.forall_mem_cons.mp htidy
      obtain ⟨hgroup', hrest'⟩ := List.forall_mem_cons.mp hne
      rw [List.intercalate_cons_cons, List.append_assoc, List.singleton_append]
      exact hgroup.append_blank (tidy_intercalate hrest' hrest) hgroup'
        (intercalate_ne_nil (hrest' next List.mem_cons_self) groups)

/-- Tidy groups stay tidy when they are joined. -/
theorem Tidy.separated
    {groups : List (List Fragment)}
    (h : ∀ group ∈ groups, Tidy group) :
    Tidy (Fragment.separated groups) := by
  rw [Fragment.separated_eq_intercalate]
  refine tidy_intercalate (fun group hgroup => ?_) fun group hgroup => ?_
  · simpa using (List.mem_filter.mp hgroup).2
  · exact h group (List.mem_filter.mp hgroup).1

/-- Joining keeps the fragments of all groups, in their order. -/
theorem Fragment.flatten_sublist_separated
    (groups : List (List Fragment)) :
    groups.flatten.Sublist (separated groups) := by
  have hall := flatten_sublist_intercalate [blank] (nonempty groups)
  rwa [nonempty, List.flatten_filter_not_isEmpty, ← nonempty, ← separated_eq_intercalate] at hall

end Groups

/-! ## Builders in any state -/

section Builders

/--
What a builder does with fragments, in any state and with any unit of indentation. It never goes
back from the left margin, it is back at its level afterwards, and all that it changes is that the
text of the lines of the fragments stands behind what it had. Emitting one list and then another is
emitting both at once. Groups are joined with one blank line between any two that have fragments,
and all fragments stay in order; if the groups are tidy, there is no blank line at either end and no
second one in a row.
-/
theorem Builder.emit_flatText
    (b : Builder)
    (fs : List Fragment) :
    b.emit? fs = some (b.emit fs) ∧
    (b.emit fs).level = b.level ∧
    (b.emit fs).indent = b.indent ∧
    (b.emit fs).buffer = b.buffer ++ flatText b.indent b.level (flatten 0 fs) ∧
    (∀ gs, (b.emit fs).emit gs = b.emit (fs ++ gs)) ∧
    (∀ groups,
      Fragment.separated groups = [Fragment.blank].intercalate (nonempty groups) ∧
      groups.flatten.Sublist (Fragment.separated groups) ∧
      ((∀ group ∈ groups, Tidy group) → Tidy (Fragment.separated groups))) := by
  have hemit := b.emit_eq_flatText fs
  refine ⟨b.emit?_eq fs, ?_, ?_, ?_, fun gs => (b.emit_append fs gs).symm, fun groups => ?_⟩
  · rw [hemit]
  · rw [hemit]
  · rw [hemit]
  · exact ⟨Fragment.separated_eq_intercalate groups, Fragment.flatten_sublist_separated groups,
      Tidy.separated⟩

/-- A builder inside a block, with two spaces as its unit. -/
def inside : Builder where
  indent := .spaces 2
  level := 1
  buffer := "function f() \x7b\n"

/-- A conditional without a closing line of its own before another, and a blank line in it. -/
def branches : List Fragment :=
  [.block "if (x) \x7b" [.comment "first", .blank, .line "y();"] none,
    .block "\x7d else \x7b" [.sequence [.line "z();"]] (some "\x7d")]

theorem Builder.emit_flatText_branches :
    inside.emit? branches = some (inside.emit branches) ∧
    (inside.emit branches).level = 1 ∧
    (inside.emit branches).buffer =
      "function f() \x7b\n  if (x) \x7b\n    // first\n\n    y();\n" ++
        "  \x7d else \x7b\n    z();\n  \x7d\n" ∧
    Tidy (Fragment.separated [branches, [], [.line "a;"]]) := by
  obtain ⟨hchecked, hlevel, -, hbuffer, -, hgroups⟩ := Builder.emit_flatText inside branches
  refine ⟨hchecked, hlevel, hbuffer.trans (by decide +kernel), (hgroups _).2.2 ?_⟩
  simp only [List.forall_mem_cons]
  refine ⟨⟨?_, ?_, ?_⟩, ⟨nofun, nofun, List.isChain_nil⟩, ⟨?_, ?_, List.isChain_singleton _⟩, nofun⟩
  all_goals simp [branches]

end Builders

end Layout
end ContractGen
