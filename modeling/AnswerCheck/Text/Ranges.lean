/-! # Tables of character ranges

A character property beyond ASCII is a table of ranges of code points, both ends included.
-/

set_option autoImplicit false

namespace AnswerCheck.Text

/-- Whether the code point of `c` lies in one of the ranges. -/
def inRanges (ranges : List (Nat × Nat)) (c : Char) : Bool :=
  ranges.any fun r => r.1 ≤ c.toNat && c.toNat ≤ r.2

end AnswerCheck.Text
