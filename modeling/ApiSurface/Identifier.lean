import ApiSurface.Api.TypeExpr
import ApiSurface.Fault
import ApiSurface.Text.Case
import ApiSurface.Text.Runs

/-!
# Identifiers

Every identifier of the generated code is made here from a name of the description: `translate` for
declarations, members and arguments, `valueName` for the literals of an enum.
-/

namespace ApiSurface.Identifier

/-- The reserved words of C#, which are identifiers only with `@` in front. -/
def reservedWords : List String :=
  ["abstract", "as", "base", "bool", "break", "byte", "case", "catch", "char", "checked", "class",
    "const", "continue", "decimal", "default", "delegate", "do", "double", "else", "enum", "event",
    "explicit", "extern", "false", "finally", "fixed", "float", "for", "foreach", "goto", "if",
    "implicit", "in", "int", "interface", "internal", "is", "lock", "long", "namespace", "new",
    "null", "object", "operator", "out", "override", "params", "private", "protected", "public",
    "readonly", "ref", "return", "sbyte", "sealed", "short", "sizeof", "stackalloc", "static",
    "string", "struct", "switch", "this", "throw", "true", "try", "typeof", "uint", "ulong",
    "unchecked", "unsafe", "ushort", "using", "virtual", "void", "volatile", "while"]

/-- Raises the first character of a name and keeps the rest as it is written. -/
def capitalize (name : String) : String := String.ofList (Text.capitalize name.toList)

/-- Puts `@` in front of a reserved word. -/
def escapeReserved (name : String) : String :=
  if reservedWords.contains name then "@" ++ name else name

/-- The identifier that a kind of declaration makes from a name, with the member's alias and flags
where they count. An argument keeps its name; an alias other than the name wins for all else. -/
def translate (kind name : String) (member : Option Member) : Except Cause String :=
  if name = "" then .error (.emptyName kind)
  else if kind = "argument" then .ok (escapeReserved name)
  else
    match member.bind (·.preferredName) with
    | some preferred => if preferred ≠ name then .ok preferred else .ok (assumed kind name member)
    | none => .ok (assumed kind name member)
where
  /-- The identifier without an alias. -/
  assumed (kind name : String) (member : Option Member) : String :=
    if kind = "interface" then "I" ++ capitalize name
    else if kind = "method" && member.any (·.isAsync) then capitalize name ++ "Async"
    else if kind = "event" then "On" ++ capitalize name
    else capitalize name

/-- The literals whose name is not made of their letters. -/
def specialValues : List (String × String) :=
  [("undefined", "Undefined"), ("null", "Undefined"), ("-Infinity", "NegativeInfinity"),
    ("-0", "NegativeZero")]

/-- Whether a character may stand in the name of an enum value. -/
def isWordChar (c : Char) : Bool := Text.isAsciiDigit c || Text.isAsciiLetter c

/-- The stretches of letters and digits of a literal, each capitalized, in one word. -/
def joinWords (literal : List Char) : List Char :=
  ((Text.runs isWordChar literal).map Text.capitalize).flatten

/-- The name of an enum value: the words of its literal, capitalized and joined, behind `Value` if
they start with a digit. -/
def valueName (literal : String) : Except Cause String :=
  match specialValues.lookup literal with
  | some name => .ok name
  | none =>
    match joinWords literal.toList with
    | [] => .error (.namelessLiteral literal)
    | c :: cs =>
      let word := String.ofList (c :: cs)
      .ok (if Text.isAsciiDigit c then "Value" ++ word else word)

end ApiSurface.Identifier
