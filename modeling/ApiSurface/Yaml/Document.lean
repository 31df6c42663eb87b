import ApiSurface.Value.Basic
import ApiSurface.Yaml.Node

/-!
# Reading YAML

`Yaml.read?` reads a text with at most one document. A plain scalar is a null, a truth value, an
integer, a floating point number or else a text; a scalar of any other style is a text. Lists and
mappings may not be keys, and a repeated key keeps its first place and its last value. Values are
made level by level, so of several faults in them the least deep counts.
-/

namespace ApiSurface.Yaml

/-- The spellings of a truth value, apart from their capitals. -/
def truthWords : List (String × Bool) :=
  [("yes", true), ("no", false), ("true", true), ("false", false), ("on", true), ("off", false)]

/-- Whether a text is a word in small letters, with a capital in front or in capitals. -/
def isSpelling (word text : String) : Bool :=
  text = word || text = word.capitalize || text = word.toUpper

/-- The truth value that a plain scalar spells. -/
def truth? (text : String) : Option Bool :=
  (truthWords.find? fun (word, _) => isSpelling word text).map (·.2)

/-- The sign in front of a number, and the rest. -/
def spanSign : List Char → Bool × List Char
  | '-' :: rest => (true, rest)
  | '+' :: rest => (false, rest)
  | rest => (false, rest)

/-- The digits of a numeral, in which underscores have no meaning. -/
def withoutUnderscores (cs : List Char) : List Char := cs.filter (· ≠ '_')

/-- Whether a text is not empty and holds only digits below a bound and underscores. -/
def areDigits (bound : Nat) (cs : List Char) : Bool :=
  !cs.isEmpty && cs.all fun c => c = '_' || (Text.hexValue? c).any (· < bound)

/-- A numeral in a base, which needs a digit. -/
def inBase (base : Nat) (cs : List Char) : Except NumeralFault Nat :=
  let ds := withoutUnderscores cs
  if ds.isEmpty then .error (.notANumeral base "") else .ok (Numeral.ofDigits base ds)

/-- The size of an integer: binary after `0b`, hexadecimal after `0x`, octal after another zero. -/
def magnitude? : List Char → Option (Except NumeralFault Nat)
  | ['0'] => some (.ok 0)
  | '0' :: 'b' :: ds => if areDigits 2 ds then some (inBase 2 ds) else none
  | '0' :: 'x' :: ds => if areDigits 16 ds then some (inBase 16 ds) else none
  | '0' :: ds => if areDigits 8 ds then some (inBase 8 ('0' :: ds)) else none
  | c :: ds =>
    if Text.isAsciiDigit c && (ds.isEmpty || areDigits 10 ds) then
      some (Numeral.decimal? (withoutUnderscores (c :: ds)))
    else none
  | [] => none

/-- The integer that a plain scalar spells. -/
def integer? (cs : List Char) : Option (Except NumeralFault Int) :=
  let (negative, ds) := spanSign cs
  (magnitude? ds).map fun m => m.map fun n => if negative then -(n : Int) else n

/-- The exponent at the end of a floating point number, which has a sign; nothing is no exponent. -/
def exponent? : List Char → Option Int
  | [] => some 0
  | e :: sign :: ds =>
    if (e = 'e' || e = 'E') && (sign = '+' || sign = '-') && !ds.isEmpty &&
        ds.all Text.isAsciiDigit then
      let n : Int := Numeral.ofDigits 10 ds
      some (if sign = '-' then -n else n)
    else none
  | _ => none

/-- The number with some digits before and after a point and an exponent. -/
def pointNumber (negative : Bool) (whole fraction : List Char) (e : Int) : Binary64 :=
  let fraction := withoutUnderscores fraction
  Binary64.ofDecimal negative (Numeral.ofDigits 10 (withoutUnderscores whole ++ fraction))
    (e - fraction.length)

/-- The floating point number that a plain scalar spells. A number without a digit before the point
has one after it and no sign. -/
def float? (cs : List Char) : Option Binary64 :=
  let (negative, ds) := spanSign cs
  let isPart (c : Char) : Bool := Text.isAsciiDigit c || c = '_'
  match ds with
  | '.' :: word =>
    let word := String.ofList word
    if isSpelling "inf" word then some (.infinite negative)
    else if cs.head? ≠ some '.' then none
    else if word = "nan" || word = "NaN" || word = "NAN" then some .nan
    else
      let fraction := word.toList.takeWhile isPart
      match fraction with
      | c :: _ =>
        if Text.isAsciiDigit c then
          (exponent? (word.toList.drop fraction.length)).map (pointNumber false [] fraction)
        else none
      | [] => none
  | c :: _ =>
    if Text.isAsciiDigit c then
      let whole := ds.takeWhile isPart
      match ds.drop whole.length with
      | '.' :: rest =>
        let fraction := rest.takeWhile isPart
        (exponent? (rest.drop fraction.length)).map (pointNumber negative whole fraction)
      | _ => none
    else none
  | [] => none

/-- The value of a plain scalar. -/
def plainValue (text : String) : Except NumeralFault Value :=
  if text = "" || text = "~" || isSpelling "null" text then .ok .null
  else
    match truth? text, integer? text.toList, float? text.toList with
    | some b, _, _ => .ok (.bool b)
    | none, some n, _ => n.map .int
    | none, none, some x => .ok (.float x)
    | none, none, none => .ok (.text text)

/-- What a part of a document yields, or a fault with its depth in the part. -/
abbrev Yield (α : Type) := Except (Nat × ReadFault) α

namespace Yield

variable {α β : Type}

/-- What two neighbours yield. Of two faults the less deep one counts, and of two at one depth the
first. -/
def both : Yield α → Yield β → Yield (α × β)
  | .ok a, .ok b => .ok (a, b)
  | .error e, .ok _ => .error e
  | .ok _, .error e => .error e
  | .error e, .error e' => if e'.1 < e.1 then .error e' else .error e

/-- What a part yields as part of a collection. -/
def inside (x : Yield α) : Yield α := x.mapError fun (depth, fault) => (depth + 1, fault)

end Yield

/-- The value of a scalar. -/
def scalarValue (plain : Bool) (text : String) : Except ReadFault Value :=
  if plain then (plainValue text).mapError .numeral else .ok (.text text)

mutual
/-- The value of a node. -/
def Node.value : Node → Yield Value
  | .scalar plain text => (scalarValue plain text).mapError (0, ·)
  | .sequence items => Yield.inside ((Node.values items).map Value.list)
  | .mapping entries => Yield.inside ((Node.valuesOfEntries entries).map Value.ofEntries)
/-- The values of some nodes. -/
def Node.values : List Node → Yield (List Value)
  | [] => .ok []
  | n :: ns => (Yield.both (Node.value n) (Node.values ns)).map fun (v, vs) => v :: vs
/-- The values of the keys and values of some entries. -/
def Node.valuesOfEntries : List (Node × Node) → Yield (List (Value × Value))
  | [] => .ok []
  | (.scalar plain text, v) :: rest =>
    let key : Yield Value := (scalarValue plain text).mapError (0, ·)
    (Yield.both (Yield.both key (Node.value v)) (Node.valuesOfEntries rest)).map
      fun (e, es) => e :: es
  | _ :: _ => .error (0, .malformed)
end

/-- The node of a text with at most one document. Tokens that spell out no tree count before a fault
that lies beyond them. -/
def Node.ofText (text : String) : Except ReadFault Node :=
  match Token.ofText text with
  | .ok tokens => (ofTokens tokens).mapError fun _ => .malformed
  | .error (tokens, fault) =>
    match ofTokens tokens with
    | .error (_ :: _) => .error .malformed
    | _ => .error fault

/-- Reads a text with at most one document. -/
def read? (text : String) : Except ReadFault Value := do
  (← Node.ofText text).value.mapError (·.2)

end ApiSurface.Yaml
