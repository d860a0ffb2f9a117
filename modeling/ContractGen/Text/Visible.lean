import ContractGen.Text.Mark
import ContractGen.Text.Unassigned

/-!
# Characters that can be seen

A character can be seen on its own unless it is a control or formatting character, a blank other
than the space, a filler, a mark on another character, or no character at all.
-/

namespace ContractGen
namespace Text

/-- The ranges of controls, blanks, formatting characters and fillers, in order. -/
def formatting : List (Nat × Nat) :=
  [(0x0, 0x1f), (0x7f, 0xa0), (0xad, 0xad), (0x600, 0x605), (0x61c, 0x61c), (0x6dd, 0x6dd),
    (0x70f, 0x70f), (0x890, 0x891), (0x8e2, 0x8e2), (0x115f, 0x1160), (0x1680, 0x1680),
    (0x180e, 0x180e), (0x2000, 0x200f), (0x2028, 0x202f), (0x205f, 0x2064), (0x2066, 0x206f),
    (0x3000, 0x3000), (0x3164, 0x3164), (0xfeff, 0xfeff), (0xffa0, 0xffa0), (0xfff9, 0xfffb),
    (0x110bd, 0x110bd), (0x110cd, 0x110cd), (0x13430, 0x1343f), (0x1bca0, 0x1bca3),
    (0x1d173, 0x1d17a), (0xe0001, 0xe0001), (0xe0020, 0xe007f)]

/-- Whether a number lies in one of some ranges. -/
def inRanges (ranges : List (Nat × Nat)) (n : Nat) : Bool :=
  ranges.any fun (low, high) => low ≤ n && n ≤ high

/-- Whether a character can be seen on its own. -/
def isVisible (c : Char) : Bool :=
  let n := c.toNat
  c = ' ' || ('!' ≤ c && c ≤ '~') ||
    !(inRanges formatting n ||
      (if n < 0x10000 then inRanges marksLow n || inRanges unassignedLow n
        else inRanges marksHigh n || inRanges unassignedHigh n))

end Text
end ContractGen
