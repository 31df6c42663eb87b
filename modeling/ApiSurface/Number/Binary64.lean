/-!
# Binary floating point

The numbers of the format binary64, held exactly: a finite number is `mantissa · 2 ^ exponent`.
`ofDecimal` rounds a decimal number to the nearest of them, a tie to the one whose mantissa is
even, and a number beyond the largest to infinity.
-/

namespace ApiSurface

/-- A number of the format binary64. A finite one other than zero has a mantissa of 53 bits, or the
exponent `-1074` and a shorter one; the zeros have mantissa and exponent 0. -/
inductive Binary64 where
  | nan
  | infinite (negative : Bool)
  | finite (negative : Bool) (mantissa : Nat) (exponent : Int)
deriving DecidableEq, Repr

namespace Binary64

/-- The zero of a sign. -/
def zero (negative : Bool) : Binary64 := .finite negative 0 0

/-- Whether a number is one of the two zeros. -/
def isZero : Binary64 → Bool
  | .finite _ 0 _ => true
  | _ => false

/-- The integer that a number is equal to, if there is one. -/
def toInt? : Binary64 → Option Int
  | .finite negative mantissa exponent =>
    let signed (n : Nat) : Int := if negative then -(n : Int) else n
    if 0 ≤ exponent then some (signed (mantissa * Nat.pow 2 exponent.toNat))
    else
      let unit := Nat.pow 2 (-exponent).toNat
      if mantissa % unit = 0 then some (signed (mantissa / unit)) else none
  | _ => none

/-- A quotient rounded to the nearest integer, a tie to the even one. -/
def roundDiv (num den : Nat) : Nat :=
  let q := num / den
  let twice := 2 * (num % den)
  if twice < den then q else if den < twice then q + 1 else q + q % 2

/-- The quotient `num / den` in units of `2 ^ exponent`, rounded. -/
def scaled (num den : Nat) (exponent : Int) : Nat :=
  if 0 ≤ exponent then roundDiv num (den * Nat.pow 2 exponent.toNat)
  else roundDiv (num * Nat.pow 2 (-exponent).toNat) den

/-- Whether `num / den` is less than `2 ^ exponent`. -/
def belowPower (num den : Nat) (exponent : Int) : Bool :=
  if 0 ≤ exponent then num < den * Nat.pow 2 exponent.toNat
  else num * Nat.pow 2 (-exponent).toNat < den

/-- The number nearest to the quotient of two positive integers. -/
def ofQuotient (negative : Bool) (num den : Nat) : Binary64 :=
  let guess : Int := (Nat.log2 num : Int) - Nat.log2 den - 52
  let unit := if belowPower num den (guess + 52) then guess - 1 else guess
  let exponent := max unit (-1074)
  let mantissa := scaled num den exponent
  let (mantissa, exponent) :=
    if mantissa = Nat.pow 2 53 then (Nat.pow 2 52, exponent + 1) else (mantissa, exponent)
  if mantissa = 0 then zero negative
  else if 971 < exponent then .infinite negative
  else .finite negative mantissa exponent

/-- The number nearest to `significand · 10 ^ exponent`. The binary length of the significand bounds
its decimal logarithm from both sides; beyond 400 in either direction no digit matters. -/
def ofDecimal (negative : Bool) (significand : Nat) (exponent : Int) : Binary64 :=
  if significand = 0 then zero negative
  else
    let bits := Nat.log2 significand
    if 400 < (bits * 3 / 10 : Nat) + exponent then .infinite negative
    else if (bits / 3 + 1 : Nat) + exponent < -400 then zero negative
    else if 0 ≤ exponent then ofQuotient negative (significand * Nat.pow 10 exponent.toNat) 1
    else ofQuotient negative significand (Nat.pow 10 (-exponent).toNat)

end Binary64

end ApiSurface
