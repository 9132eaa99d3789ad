/-!
# Character classes as ranges

A character class beyond ASCII is a list of ranges of code points, both ends included, in
ascending order.
-/

namespace StoryTape.Text

/-- Whether a character's code point lies in one of the ranges; the search ends at the first range
that starts behind it. -/
def inRanges : List (Nat × Nat) → Char → Bool
  | [], _ => false
  | (first, last) :: ranges, c =>
    if c.toNat < first then false else c.toNat ≤ last || inRanges ranges c

end StoryTape.Text
