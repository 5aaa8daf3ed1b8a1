/-! # Ranges of code points

Unicode properties are given as lists of closed ranges of code points.
-/

namespace TemplateLint.Text

/-- A closed range of code points: its first and its last. -/
abbrev Range := Nat × Nat

/-- Whether a character lies in one of the ranges. -/
def inRanges (ranges : List Range) (c : Char) : Bool :=
  ranges.any fun (first, last) => first ≤ c.toNat && c.toNat ≤ last

end TemplateLint.Text
