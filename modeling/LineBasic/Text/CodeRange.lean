/-!
# Ranges of code points

A class of characters is given as a list of closed ranges of code points.  The classes of ASCII
characters are decided without their table wherever a class says so, so closed facts about ASCII
text need no search through the ranges of the whole code space.
-/

namespace LineBasic.Text

/-- A closed range of code points, written `(first, last)`. -/
abbrev CodeRange := Nat × Nat

/-- A character lies in some range of the list. -/
def inRanges (ranges : List CodeRange) (c : Char) : Bool :=
  ranges.any fun range => range.1 ≤ c.toNat && c.toNat ≤ range.2

end LineBasic.Text
