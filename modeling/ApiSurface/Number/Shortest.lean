import ApiSurface.Number.Binary64

/-!
# Shortest decimals

`shortest mantissa exponent` is the decimal with the fewest digits among those that round to the
number `mantissa · 2 ^ exponent`, and of these the nearest to it. The two decimals of a digit count
that lie next to the number are tested for growing counts; seventeen digits always suffice.
-/

namespace ApiSurface

/-- A decimal number `digits · 10 ^ exponent`. -/
structure Decimal where
  digits : Nat
  exponent : Int
deriving DecidableEq, Repr

namespace Binary64

/-- A positive number with the reals that round to it, all over one denominator. -/
structure Neighbourhood where
  low : Nat
  value : Nat
  high : Nat
  denominator : Nat
  /-- Whether the ends round to the number too. -/
  closed : Bool
deriving Repr

/-- The reals that round to `mantissa · 2 ^ exponent`. The lower end is nearer at a power of two. -/
def neighbourhood (mantissa : Nat) (exponent : Int) : Neighbourhood :=
  let nearLow := mantissa = Nat.pow 2 52 && -1074 < exponent
  let up := Nat.pow 2 (exponent - 2).toNat
  { low := (4 * mantissa - (if nearLow then 1 else 2)) * up
    value := 4 * mantissa * up
    high := (4 * mantissa + 2) * up
    denominator := Nat.pow 2 (2 - exponent).toNat
    closed := mantissa % 2 = 0 }

/-- Whether `digits · 10 ^ exponent` rounds to the number. -/
def Neighbourhood.holds (r : Neighbourhood) (digits : Nat) (exponent : Int) : Bool :=
  let scaledDigits := digits * Nat.pow 10 exponent.toNat * r.denominator
  let unit := Nat.pow 10 (-exponent).toNat
  if r.closed then r.low * unit ≤ scaledDigits && scaledDigits ≤ r.high * unit
  else r.low * unit < scaledDigits && scaledDigits < r.high * unit

/-- The number in units of `10 ^ exponent` as a quotient. -/
def Neighbourhood.inUnits (r : Neighbourhood) (exponent : Int) : Nat × Nat :=
  (r.value * Nat.pow 10 (-exponent).toNat, r.denominator * Nat.pow 10 exponent.toNat)

/-- The nearer of the two neighbours on the grid of `10 ^ exponent`, if one rounds to the number. -/
def Neighbourhood.onGrid? (r : Neighbourhood) (exponent : Int) : Option Decimal :=
  let (num, den) := r.inUnits exponent
  let below := num / den
  let nearest := roundDiv num den
  let other := if nearest = below then below + 1 else below
  if r.holds nearest exponent then some ⟨nearest, exponent⟩
  else if r.holds other exponent then some ⟨other, exponent⟩
  else none

/-- The least `p` with the number below `10 ^ p`, searched upwards from `p`. -/
def Neighbourhood.pointFrom (r : Neighbourhood) : Nat → Int → Int
  | 0, p => p
  | steps + 1, p =>
    let (num, den) := r.inUnits p
    if num < den then p else r.pointFrom steps (p + 1)

/-- The first grid with a hit, `tries` digit counts from `count` on. -/
def Neighbourhood.search (r : Neighbourhood) (point : Int) : Nat → Nat → Decimal
  | 0, _ => ⟨r.value / r.denominator, 0⟩
  | tries + 1, count =>
    match r.onGrid? (point - count) with
    | some d => d
    | none => r.search point tries (count + 1)

/-- The decimal with the fewest digits that rounds to `mantissa · 2 ^ exponent`. -/
def shortest (mantissa : Nat) (exponent : Int) : Decimal :=
  let r := neighbourhood mantissa exponent
  let bits : Int := Nat.log2 mantissa + exponent
  let start : Int := bits * 30103 / 100000 - 1
  r.search (r.pointFrom 4 start) 17 1

end Binary64

end ApiSurface
