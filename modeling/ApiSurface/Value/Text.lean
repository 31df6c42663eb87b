import ApiSurface.Value.Basic
import ApiSurface.Number.Numeral
import ApiSurface.Number.Shortest
import ApiSurface.Text.Quoted

/-!
# Values as text

`Value.display` is the text of a value where a name or a phrase is expected: a text stands for
itself. `Value.literal` is the form that messages show, with texts in quotes. `Value.isWritable`
says whether every integer in a value has few enough digits to be written.
-/

namespace ApiSurface

/-- When a decimal is written positionally, and how an exponent is padded. -/
structure DecimalLayout where
  /-- The least place of the decimal point, counted from the first digit, without an exponent. -/
  leastPoint : Int
  /-- The greatest place of the decimal point without an exponent. -/
  greatestPoint : Int
  /-- The least number of digits of an exponent. -/
  exponentDigits : Nat

/-- Numbers in messages are positional from a ten-thousandth to below ten to the power 16. -/
def messageLayout : DecimalLayout := ⟨-3, 16, 2⟩

/-- An exponent with its sign, padded with zeros. -/
def DecimalLayout.exponent (layout : DecimalLayout) (e : Int) : List Char :=
  let ds := Nat.toDigits 10 e.natAbs
  (if e < 0 then '-' else '+') :: List.replicate (layout.exponentDigits - ds.length) '0' ++ ds

/-- A positive number from its significant digits, the last of which is not zero, and the place of
the decimal point counted from the first of them. -/
def DecimalLayout.write (layout : DecimalLayout) (ds : List Char) (point : Int) : List Char :=
  if point < layout.leastPoint || layout.greatestPoint < point then
    let fraction := if ds.length ≤ 1 then [] else '.' :: ds.drop 1
    ds.take 1 ++ fraction ++ 'e' :: layout.exponent (point - 1)
  else if point ≤ 0 then
    '0' :: '.' :: List.replicate (-point).toNat '0' ++ ds
  else
    let whole := point.toNat
    if ds.length ≤ whole then ds ++ List.replicate (whole - ds.length) '0' ++ ['.', '0']
    else ds.take whole ++ '.' :: ds.drop whole

/-- The text of a floating point number: the fewest digits that read back. -/
def Binary64.display : Binary64 → String
  | .nan => "nan"
  | .infinite negative => if negative then "-inf" else "inf"
  | .finite negative mantissa exponent =>
    let sign := if negative then ['-'] else []
    if mantissa = 0 then String.ofList (sign ++ ['0', '.', '0'])
    else
      let d := shortest mantissa exponent
      let ds := Nat.toDigits 10 d.digits
      let significant := (ds.reverse.dropWhile (· = '0')).reverse
      String.ofList (sign ++ messageLayout.write significant (ds.length + d.exponent))

namespace Value

mutual
/-- The form of a value that messages show. -/
def literal : Value → String
  | .null => "None"
  | .bool b => if b then "True" else "False"
  | .int n => toString n
  | .float x => x.display
  | .text s => Text.quoted s
  | .list items => "[" ++ ", ".intercalate (itemLiterals items) ++ "]"
  | .map entries => "\x7b" ++ ", ".intercalate (entryLiterals entries) ++ "\x7d"
/-- The forms of the items of a list. -/
def itemLiterals : List Value → List String
  | [] => []
  | v :: vs => literal v :: itemLiterals vs
/-- The forms of the entries of a mapping. -/
def entryLiterals : List (Value × Value) → List String
  | [] => []
  | (k, v) :: rest => (literal k ++ ": " ++ literal v) :: entryLiterals rest
end

/-- The text of a value where a name or a phrase is expected. -/
def display : Value → String
  | .text s => s
  | v => v.literal

mutual
/-- Whether every integer in a value can be written. -/
def isWritable : Value → Bool
  | .int n => Numeral.isWritable n
  | .list items => areWritable items
  | .map entries => areWritableEntries entries
  | _ => true
/-- Whether every integer in some values can be written. -/
def areWritable : List Value → Bool
  | [] => true
  | v :: vs => isWritable v && areWritable vs
/-- Whether every integer in some entries can be written. -/
def areWritableEntries : List (Value × Value) → Bool
  | [] => true
  | (k, v) :: rest => isWritable k && isWritable v && areWritableEntries rest
end

end Value

end ApiSurface
