import ApiSurface.Value.Basic
import ApiSurface.Number.Numeral
import ApiSurface.Text.CodePoint

/-!
# Reading JSON

`Json.read?` reads one JSON document. Beside the grammar of JSON it accepts the numbers `NaN`,
`Infinity` and `-Infinity`. A number without fraction and exponent is an integer, whatever its size;
any other is rounded to binary64. A repeated key keeps its first place and its last value.
-/

namespace ApiSurface.Json

/-- The white space of JSON. -/
def isSpace (c : Char) : Bool := c = ' ' || c = '\t' || c = '\n' || c = '\r'

/-- Passes over white space. -/
def skipSpace (cs : List Char) : List Char := cs.dropWhile isSpace

/-- The value of four hexadecimal digits. -/
def hex4? (a b c d : Char) : Option Nat := do
  return (((← Text.hexValue? a) * 16 + (← Text.hexValue? b)) * 16 + (← Text.hexValue? c)) * 16 +
    (← Text.hexValue? d)

/-- The character that an escape of one letter stands for. -/
def shortEscape? : Char → Option Char
  | '"' => some '"'
  | '\\' => some '\\'
  | '/' => some '/'
  | 'b' => some '\x08'
  | 'f' => some '\x0c'
  | 'n' => some '\n'
  | 'r' => some '\r'
  | 't' => some '\t'
  | _ => none

/-- The codes of a string up to its closing quote, and what follows the quote. -/
def stringCodes : List Char → Option (List Nat × List Char)
  | [] => none
  | '"' :: rest => some ([], rest)
  | '\\' :: 'u' :: a :: b :: c :: d :: rest => do
    let code ← hex4? a b c d
    let (codes, rest) ← stringCodes rest
    return (code :: codes, rest)
  | '\\' :: e :: rest => do
    let c ← shortEscape? e
    let (codes, rest) ← stringCodes rest
    return (c.toNat :: codes, rest)
  | c :: rest =>
    if c.toNat < 32 then none
    else do
      let (codes, rest) ← stringCodes rest
      return (c.toNat :: codes, rest)

/-- The text of a string whose opening quote has been read, and what follows it. -/
def string? (cs : List Char) : Option (String × List Char) := do
  let (codes, rest) ← stringCodes cs
  return (Text.ofCodes (Text.joinHalves codes), rest)

/-- The digits in front of a text, and the rest. -/
def spanDigits (cs : List Char) : List Char × List Char :=
  (cs.takeWhile Text.isAsciiDigit, cs.dropWhile Text.isAsciiDigit)

/-- The digits of an integer part: a zero stands alone. -/
def integerPart? : List Char → Option (List Char × List Char)
  | '0' :: rest => some (['0'], rest)
  | cs =>
    match spanDigits cs with
    | ([], _) => none
    | part => some part

/-- The digits after a decimal point. Without a digit there the point is not part of the number. -/
def fractionPart? : List Char → Option (List Char × List Char)
  | '.' :: cs =>
    match spanDigits cs with
    | ([], _) => none
    | part => some part
  | _ => none

/-- A sign in front of digits, and what follows it. -/
def spanSign : List Char → Bool × List Char
  | '-' :: rest => (true, rest)
  | '+' :: rest => (false, rest)
  | rest => (false, rest)

/-- The exponent of a number. Without a digit it is not part of the number. -/
def exponentPart? : List Char → Option (Int × List Char)
  | c :: cs =>
    if c = 'e' || c = 'E' then
      let (negative, cs) := spanSign cs
      match spanDigits cs with
      | ([], _) => none
      | (ds, rest) =>
        let n : Int := Numeral.ofDigits 10 ds
        some (if negative then -n else n, rest)
    else none
  | [] => none

/-- A number whose sign has been read. -/
def number? (negative : Bool) (cs : List Char) : Option (Value × List Char) := do
  let (whole, rest) ← integerPart? cs
  let fraction := fractionPart? rest
  let afterFraction := (fraction.map (·.2)).getD rest
  let exponent := exponentPart? afterFraction
  if fraction.isNone && exponent.isNone then
    let n ← (Numeral.decimal? whole).toOption
    return (.int (if negative then -(n : Int) else n), rest)
  else
    let places := (fraction.map (·.1)).getD []
    let (e, rest) := exponent.getD (0, afterFraction)
    let significand := Numeral.ofDigits 10 (whole ++ places)
    return (.float (Binary64.ofDecimal negative significand (e - places.length)), rest)

/-- A word or a number. -/
def scalar? : List Char → Option (Value × List Char)
  | 'n' :: 'u' :: 'l' :: 'l' :: rest => some (.null, rest)
  | 't' :: 'r' :: 'u' :: 'e' :: rest => some (.bool true, rest)
  | 'f' :: 'a' :: 'l' :: 's' :: 'e' :: rest => some (.bool false, rest)
  | 'N' :: 'a' :: 'N' :: rest => some (.float .nan, rest)
  | 'I' :: 'n' :: 'f' :: 'i' :: 'n' :: 'i' :: 't' :: 'y' :: rest =>
    some (.float (.infinite false), rest)
  | '-' :: 'I' :: 'n' :: 'f' :: 'i' :: 'n' :: 'i' :: 't' :: 'y' :: rest =>
    some (.float (.infinite true), rest)
  | '-' :: rest => number? true rest
  | cs => number? false cs

mutual
/-- A value without white space in front. The first argument bounds the depth of the recursion. -/
def value? : Nat → List Char → Option (Value × List Char)
  | 0, _ => none
  | _ + 1, '"' :: rest => do
    let (s, rest) ← string? rest
    return (.text s, rest)
  | bound + 1, '[' :: rest =>
    match skipSpace rest with
    | ']' :: rest => some (.list [], rest)
    | rest => do
      let (items, rest) ← items? bound rest
      return (.list items, rest)
  | bound + 1, '{' :: rest =>
    match skipSpace rest with
    | '}' :: rest => some (.map [], rest)
    | rest => do
      let (entries, rest) ← entries? bound rest
      return (Value.ofEntries entries, rest)
  | _ + 1, cs => scalar? cs
/-- One or more values up to the closing bracket. -/
def items? : Nat → List Char → Option (List Value × List Char)
  | 0, _ => none
  | bound + 1, cs => do
    let (v, rest) ← value? bound cs
    match skipSpace rest with
    | ',' :: rest =>
      let (vs, rest) ← items? bound (skipSpace rest)
      return (v :: vs, rest)
    | ']' :: rest => return ([v], rest)
    | _ => none
/-- One or more entries up to the closing brace. -/
def entries? : Nat → List Char → Option (List (Value × Value) × List Char)
  | 0, _ => none
  | bound + 1, '"' :: rest => do
    let (key, rest) ← string? rest
    match skipSpace rest with
    | ':' :: rest =>
      let (v, rest) ← value? bound (skipSpace rest)
      match skipSpace rest with
      | ',' :: rest =>
        let (vs, rest) ← entries? bound (skipSpace rest)
        return ((.text key, v) :: vs, rest)
      | '}' :: rest => return ([(.text key, v)], rest)
      | _ => none
    | _ => none
  | _ + 1, _ => none
end

/-- Reads one JSON document, with white space around it and nothing else. A value is at most as
deep as the text is long. -/
def read? (text : String) : Option Value :=
  let cs := text.toList
  match value? (2 * cs.length + 2) (skipSpace cs) with
  | some (v, rest) => if (skipSpace rest).isEmpty then some v else none
  | none => none

end ApiSurface.Json
