/-!
# Ranges of code points

A character class of the Unicode tables is a list of ranges. A range carries a step, because
letters of the two cases often alternate.
-/

namespace ApiSurface.Text

/-- The code points `first`, `first + step`, … that are not above `last`. -/
structure CodeRange where
  first : Nat
  last : Nat
  step : Nat
deriving DecidableEq, Repr

/-- Whether a code point lies in the range. -/
def CodeRange.contains (r : CodeRange) (code : Nat) : Bool :=
  r.first ≤ code && code ≤ r.last && (code - r.first) % r.step == 0

/-- Whether a code point lies in one of the ranges. -/
def inSome (table : List CodeRange) (code : Nat) : Bool :=
  table.any (·.contains code)

end ApiSurface.Text
