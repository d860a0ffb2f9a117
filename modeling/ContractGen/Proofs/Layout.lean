import ContractGen.Layout.Builder

/-!
# The text of laid out fragments

A builder threads a buffer and a level through the fragments that it emits. This module says what
that comes to: every fragment has a text of its own at a level, and emitting fragments appends
their texts.

**Results.**
* `emit_eq`: emitting changes nothing but the buffer, which grows by the text of the fragments.
* `render_eq`: fragments laid out from the left margin are their text at level zero.
* `layoutAll_append`: the text of a list is the text of its parts, one after the other.
* `endsLine_layoutAll`: fragments always end their last line.
-/

namespace ContractGen
namespace Layout

/-- The text of one line at a level. -/
def lineText (indent : Indent) (level : Nat) (text : String) : String :=
  indent.margin level ++ text ++ "\n"

mutual

/-- The text of a fragment at a level. -/
def layoutOne (indent : Indent) (level : Nat) : Fragment → String
  | .line text => lineText indent level text
  | .blank => "\n"
  | .comment text => lineText indent level ("// " ++ text)
  | .block header body none =>
    lineText indent level header ++ layoutAll indent (level + 1) body
  | .block header body (some close) =>
    lineText indent level header ++ layoutAll indent (level + 1) body ++
      lineText indent level close
  | .indent body => layoutAll indent (level + 1) body
  | .sequence body => layoutAll indent level body

/-- The text of a list of fragments at a level. -/
def layoutAll (indent : Indent) (level : Nat) : List Fragment → String
  | [] => ""
  | f :: fs => layoutOne indent level f ++ layoutAll indent level fs

end

section Emit

/-- Appending a line is appending its text. -/
theorem line_eq
    (b : Builder)
    (text : String) :
    b.line text = { b with buffer := b.buffer ++ lineText b.indent b.level text } := by
  simp [Builder.line, lineText, String.append_assoc]

mutual

/-- Emitting a fragment appends its text and restores the level. -/
theorem emitOne_eq
    (b : Builder) :
    ∀ f : Fragment,
      b.emitOne f = { b with buffer := b.buffer ++ layoutOne b.indent b.level f }
  | .line text => by
      simp [Builder.emitOne, layoutOne, line_eq]
  | .blank => by
      simp [Builder.emitOne, layoutOne, Builder.blank]
  | .comment text => by
      simp [Builder.emitOne, layoutOne, line_eq]
  | .block header body none => by
      simp [Builder.emitOne, layoutOne, line_eq, emit_eq, Builder.deeper, Builder.shallower,
        String.append_assoc]
  | .block header body (some close) => by
      simp [Builder.emitOne, layoutOne, line_eq, emit_eq, Builder.deeper, Builder.shallower,
        String.append_assoc]
  | .indent body => by
      simp [Builder.emitOne, layoutOne, emit_eq, Builder.deeper, Builder.shallower]
  | .sequence body => by
      simp [Builder.emitOne, layoutOne, emit_eq]

/-- Emitting fragments appends their text and restores the level. -/
theorem emit_eq
    (b : Builder) :
    ∀ fs : List Fragment,
      b.emit fs = { b with buffer := b.buffer ++ layoutAll b.indent b.level fs }
  | [] => by
      simp [Builder.emit, layoutAll]
  | f :: fs => by
      simp [Builder.emit, layoutAll, emitOne_eq, emit_eq, String.append_assoc]

end

/-- Laying out from the left margin gives the text at level zero. -/
theorem render_eq
    (indent : Indent)
    (fragments : List Fragment) :
    render indent fragments = layoutAll indent 0 fragments := by
  simp [render, emit_eq]

end Emit

/-- The text of two lists is one text after the other. -/
theorem layoutAll_append
    (indent : Indent)
    (level : Nat)
    (fs gs : List Fragment) :
    layoutAll indent level (fs ++ gs) = layoutAll indent level fs ++ layoutAll indent level gs := by
  induction fs with
  | nil =>
      simp [layoutAll]
  | cons f fs ih =>
      simp [layoutAll, ih, String.append_assoc]

section Ends

variable {indent : Indent}

/-- A text that is empty or ends its last line. -/
def EndsLine (text : String) : Prop :=
  ∀ d ∈ text.toList.getLast?, d = '\n'

theorem endsLine_lineText
    (level : Nat)
    (text : String) :
    EndsLine (lineText indent level text) := by
  intro d hd
  have hlast : (lineText indent level text).toList.getLast? = some '\n' := by
    simp [lineText]
  rw [hlast] at hd
  exact (Option.some.inj hd).symm

theorem EndsLine.append
    {a b : String}
    (ha : EndsLine a)
    (hb : EndsLine b) :
    EndsLine (a ++ b) := by
  intro d hd
  rw [String.toList_append, List.getLast?_append] at hd
  cases hlast : b.toList.getLast? with
  | none =>
      rw [hlast] at hd
      exact ha d hd
  | some e =>
      rw [hlast] at hd
      exact hb d (hlast ▸ hd)

mutual

theorem endsLine_layoutOne
    (level : Nat) :
    ∀ f : Fragment, EndsLine (layoutOne indent level f)
  | .line text => by
      rw [layoutOne]
      exact endsLine_lineText level text
  | .blank => by
      rw [layoutOne]
      simp [EndsLine]
  | .comment text => by
      rw [layoutOne]
      exact endsLine_lineText level _
  | .block header body none => by
      rw [layoutOne]
      exact (endsLine_lineText level header).append (endsLine_layoutAll (level + 1) body)
  | .block header body (some close) => by
      rw [layoutOne]
      exact ((endsLine_lineText level header).append (endsLine_layoutAll (level + 1) body)).append
        (endsLine_lineText level close)
  | .indent body => by
      rw [layoutOne]
      exact endsLine_layoutAll (level + 1) body
  | .sequence body => by
      rw [layoutOne]
      exact endsLine_layoutAll level body

/-- Fragments always end their last line. -/
theorem endsLine_layoutAll
    (level : Nat) :
    ∀ fs : List Fragment, EndsLine (layoutAll indent level fs)
  | [] => by
      simp [EndsLine, layoutAll]
  | f :: fs => by
      rw [layoutAll]
      exact (endsLine_layoutOne level f).append (endsLine_layoutAll level fs)

end

end Ends

end Layout
end ContractGen
