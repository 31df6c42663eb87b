import ApiSurface.Text.Digit

/-!
# Integer numerals

An integer is read from its digits in a base. In base ten more than 4300 digits are neither read nor
written.
-/

namespace ApiSurface

/-- Why a text is no integer numeral, or an integer has none. -/
inductive NumeralFault where
  /-- More decimal digits than are read. -/
  | tooLong (digits : Nat)
  /-- A text that is not a numeral of the base. -/
  | notANumeral (base : Nat) (text : String)
  /-- An integer with more decimal digits than are written. -/
  | unwritable
deriving DecidableEq, Repr

namespace Numeral

/-- The most decimal digits that an integer is read from or written with. -/
def maxDigits : Nat := 4300

/-- Whether an integer has few enough decimal digits to be written. The first comparison settles all
but huge integers. -/
def isWritable (n : Int) : Bool :=
  n.natAbs < 1000000000000000000 || n.natAbs < Nat.pow 10 maxDigits

/-- The number that digit values, most significant first, stand for. -/
def ofValues (base : Nat) (values : List Nat) : Nat :=
  values.foldl (fun n d => n * base + d) 0

/-- The number that ASCII digits and letters stand for; other characters count as zero. -/
def ofDigits (base : Nat) (cs : List Char) : Nat :=
  ofValues base (cs.map fun c => (Text.hexValue? c).getD 0)

/-- Reads ASCII decimal digits. -/
def decimal? (cs : List Char) : Except NumeralFault Nat :=
  if maxDigits < cs.length then .error (.tooLong cs.length) else .ok (ofDigits 10 cs)

/-- Reads a text as decimal digits of any script. The digits in front are counted first, so a text
that is too long and ends in something else is too long. -/
def anyScript? (s : String) : Except NumeralFault Nat :=
  let values := (s.toList.map Text.decimalValue?).takeWhile (·.isSome)
  if maxDigits < values.length then .error (.tooLong values.length)
  else if values.isEmpty || values.length < s.length then .error (.notANumeral 10 s)
  else .ok (ofValues 10 (values.map (·.getD 0)))

end Numeral

end ApiSurface
