-- SUMMARY: Tables of code points.

/-!
# Sets of code points

A character property of the Unicode standard is a table of ranges of code points.
-/

namespace StackMachine.Text

/-- A set of code points: inclusive ranges in increasing order. -/
abbrev CodePoints := Array (Nat × Nat)

/-- Whether a character lies in one of the ranges. -/
def CodePoints.contains (table : CodePoints) (c : Char) : Bool :=
  table.any fun range => range.1 ≤ c.toNat && c.toNat ≤ range.2

end StackMachine.Text
