/-!
# Fragments of indented text

A fragment is a line of code, a blank line, a comment, or a group of fragments, possibly with a
header and set one level deeper. It is what lies between the tree of a source file and its text.
-/

namespace ContractGen
namespace Layout

/-- A piece of code to be laid out. -/
inductive Fragment
  /-- One line of code. -/
  | line (text : String)
  /-- An empty line. -/
  | blank
  /-- A header line, a body one level deeper and an optional closing line. -/
  | block (header : String) (body : List Fragment) (close : Option String)
  /-- Fragments one level deeper. -/
  | indent (body : List Fragment)
  /-- Fragments at the same level. -/
  | sequence (body : List Fragment)
  /-- A line comment. -/
  | comment (text : String)

namespace Fragment

/-- A block closed by a lone brace. -/
def braced (header : String) (body : List Fragment) : Fragment :=
  block header body (some "\x7d")

/-- A braced block; an empty body collapses to one line. -/
def bracedOrEmpty (header : String) : List Fragment → Fragment
  | [] => line (header ++ " \x7b\x7d")
  | body => braced (header ++ " \x7b") body

/-- Put one blank line between consecutive non-empty groups, after what is already there. -/
def separatedFrom (before : List Fragment) : List (List Fragment) → List Fragment
  | [] => before
  | [] :: groups => separatedFrom before groups
  | group :: groups =>
    separatedFrom (if before.isEmpty then group else before ++ blank :: group) groups

/-- Join groups of fragments with a blank line between non-empty groups. -/
def separated (groups : List (List Fragment)) : List Fragment :=
  separatedFrom [] groups

end Fragment
end Layout
end ContractGen
