import ApiSurface.Identifier
import ApiSurface.Registry.Plan
import ApiSurface.Settings

/-!
# Lowering types

`TypeExpr.lowered` is the C# type for a type expression at some place of an API. An object type
without a name and a union of literals have no counterpart of their own: the plan asks for a class
or an enum with a name made from the place, and refers to it.
-/

namespace ApiSurface

/-- Interface names of the declared classes, by the names the description gives them. Of two entries
for one class the first counts. -/
abbrev ClassNames := List (String × String)

/-- What lowering depends on beside the type and its place. -/
structure Vocabulary where
  classNames : ClassNames := []
  /-- Whether a union without an exact counterpart is a fault. -/
  strictUnions : Bool := false

namespace Lowering

/-- The C# types of the built-in types. -/
def primitiveTypes : List (String × String) :=
  [("boolean", "bool"), ("number", "int"), ("string", "string"), ("Buffer", "byte[]"),
    ("void", "void"), ("Serializable", "T"), ("Object", "object")]

/-- The types that need a mark to become nullable. -/
def isValueType (ref : String) : Bool := ref = "bool" || ref = "int"

/-- The type parameter of generic methods. -/
def genericPlaceholder : String := "T"

/-- The type that stands for a union without an exact counterpart. -/
def anyUnion : String := "Union"

/-- The predefined enum for a truth value that may be mixed. -/
def triState : String := "MixedState"

/-- Removes the quotes around a string literal; a text without them stays as it is. -/
def stripQuotes (text : String) : String :=
  let cs := text.toList
  match cs with
  | quote :: rest =>
    if (quote = '"' || quote = '\'') && rest.getLast? = some quote then
      String.ofList rest.dropLast
    else text
  | [] => text

/-- Whether a union is that of truth values and the literal `mixed`. -/
def isTriState : List TypeExpr → Bool
  | [.primitive "boolean", .literal text] => stripQuotes text = "mixed"
  | _ => false

/-- The literals of a union, without their quotes. -/
def literalValues (members : List TypeExpr) : List String :=
  members.filterMap fun
    | .literal text => some (stripQuotes text)
    | _ => none

/-- The name of the class for an object type at a member. -/
def resultTypeName (owner member : String) : String :=
  owner ++ Identifier.capitalize member ++ "Result"

/-- A reference to a nullable type. -/
def nullable (ref : String) : String := if isValueType ref then ref ++ "?" else ref

/-- A reference to an enum, which is named after the member, or after the owner where there is
none. -/
def enumRef (place : Place) (owner : String) (member : Option Member)
    (members : List TypeExpr) : Plan String := do
  let name ← Plan.lift place (Identifier.translate "enum" ((member.map (·.name)).getD owner) none)
  Plan.request place (.shape name (.enum (literalValues members)))
  return name

/-- A reference to a class with some properties, which is named after owner and member. -/
def objectRef (place : Place) (owner : String) (member : Option Member)
    (properties : List Member) : Plan String :=
  if properties.isEmpty then return "object"
  else
    match member with
    | none => Plan.blame place .namelessShape
    | some m => do
      let key := resultTypeName owner m.name
      Plan.request place (.shape key (.object properties))
      return key

/-- A reference to a union that does not start with null. -/
def unionRef (vocabulary : Vocabulary) (place : Place) (owner : String) (member : Option Member)
    (members : List TypeExpr) : Plan String :=
  if isTriState members then do
    Plan.request place (.predefined triState)
    return triState
  else if members.all (·.isLiteral) then enumRef place owner member members
  else if vocabulary.strictUnions then
    Plan.blame place (.inexactUnion (members.map (·.form)))
  else return anyUnion

/-- The reference to a type that occurs at a member of an owner, or at the owner itself. Faults are
found at the place. -/
def ref (vocabulary : Vocabulary) (place : Place) (owner : String) (member : Option Member) :
    TypeExpr → Plan String
  | .union (.primitive "null" :: rest) =>
    match rest with
    | [inner] => do return nullable (← ref vocabulary place owner member inner)
    | _ => Plan.blame place (.nullableArity (rest.length + 1))
  | .union members => unionRef vocabulary place owner member members
  | .array element =>
    match element.nonNull with
    | .array _ => Plan.blame place .nestedArray
    | _ => do return (← ref vocabulary place owner member element) ++ "[]"
  | .primitive name =>
    match primitiveTypes.lookup name with
    | some type => return type
    | none => Plan.blame place (.unknownPrimitive name)
  | .literal text => Plan.blame place (.looseLiteral text)
  | .shape properties => objectRef place owner member properties
  | .map key value => do
    let keyRef ← ref vocabulary place owner member key
    let valueRef ← ref vocabulary place owner member value
    return "IEnumerable<KeyValuePair<" ++ keyRef ++ ", " ++ valueRef ++ ">>"
  | .named name => return (vocabulary.classNames.lookup name).getD name
termination_by structural e => e

/-- The type of a member in a signature: an asynchronous one yields a task. -/
def wrapAsync (ref : String) (member : Member) : String :=
  if !member.isAsync then ref
  else if ref = "void" then "Task"
  else "Task<" ++ ref ++ ">"

end Lowering

/-- The C# type for a type expression at a member of an owner, or at the owner itself. -/
def TypeExpr.lowered (vocabulary : Vocabulary) (owner : String) (member : Option Member)
    (e : TypeExpr) : Plan String :=
  Lowering.ref vocabulary ⟨owner, (member.map (·.name)).getD "", none⟩ owner member e

end ApiSurface
