import ContractGen.Layout.Fragment

/-!
# Laying fragments out

A builder holds the text written so far, the unit of indentation and the current level. Emitting
fragments appends their lines to the text; nested fragments are written one level deeper, and the
level is restored after them.
-/

namespace ContractGen
namespace Layout

/-- One level of indentation. -/
inductive Indent
  | spaces (width : Nat)
  | tab
deriving DecidableEq, Repr

namespace Indent

/-- Four spaces, the usual indentation of the target language. -/
def standard : Indent := spaces 4

instance : Inhabited Indent := ⟨standard⟩

/-- The white space in front of a line at a level. -/
def margin : Indent → Nat → String
  | spaces width, level => String.ofList (List.replicate (level * width) ' ')
  | tab, level => String.ofList (List.replicate level '\t')

end Indent

/-- Text under construction. -/
structure Builder where
  indent : Indent := .standard
  level : Nat := 0
  buffer : String := ""
deriving DecidableEq, Inhabited

namespace Builder

/-- Append one indented line. -/
def line (b : Builder) (text : String) : Builder :=
  { b with buffer := b.buffer ++ b.indent.margin b.level ++ text ++ "\n" }

/-- Append an empty line, which carries no indentation. -/
def blank (b : Builder) : Builder :=
  { b with buffer := b.buffer ++ "\n" }

/-- Go one level deeper. -/
def deeper (b : Builder) : Builder :=
  { b with level := b.level + 1 }

/-- Go back one level. -/
def shallower (b : Builder) : Builder :=
  { b with level := b.level - 1 }

mutual

/-- Append one fragment at the current level. -/
def emitOne (b : Builder) : Fragment → Builder
  | .line text => b.line text
  | .blank => b.blank
  | .comment text => b.line ("// " ++ text)
  | .block header body none => ((b.line header).deeper.emit body).shallower
  | .block header body (some close) => ((b.line header).deeper.emit body).shallower.line close
  | .indent body => (b.deeper.emit body).shallower
  | .sequence body => b.emit body

/-- Append fragments at the current level. -/
def emit (b : Builder) : List Fragment → Builder
  | [] => b
  | f :: fs => (b.emitOne f).emit fs

end

end Builder

/-- Fragments laid out from the left margin. -/
def render (indent : Indent) (fragments : List Fragment) : String :=
  ({ indent : Builder }.emit fragments).buffer

end Layout
end ContractGen
