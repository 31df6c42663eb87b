import ApiSurface.Code.Synthesized
import ApiSurface.Registry.Action

/-!
# Rendering by actions

The same declarations, made by actions that register as they go and raise their faults without a
place. The place is filled in on the way out: by lowering, by the member or the property whose line
is made, and by the enum. What is wrong with the type of an argument has been located at the argument
by then; the method puts itself in that place, and the name of the argument in the message.
-/

namespace ApiSurface.Raising

open ApiSurface.Action (ofCause raise grant)

/-! ### Types -/

/-- A reference to an enum, which is named after the member, or after the owner where there is
none. -/
def enumRef (owner : String) (member : Option Member) (members : List TypeExpr) :
    Action String := do
  let name ← ofCause (Identifier.translate "enum" ((member.map (·.name)).getD owner) none)
  grant (.shape name (.enum (Lowering.literalValues members)))
  return name

/-- A reference to a class with some properties, which is named after owner and member. -/
def objectRef (owner : String) (member : Option Member) (properties : List Member) :
    Action String :=
  if properties.isEmpty then return "object"
  else
    match member with
    | none => raise .namelessShape
    | some m => do
      let key := Lowering.resultTypeName owner m.name
      grant (.shape key (.object properties))
      return key

/-- A reference to a union that does not start with null. -/
def unionRef (vocabulary : Vocabulary) (owner : String) (member : Option Member)
    (members : List TypeExpr) : Action String :=
  if Lowering.isTriState members then do
    grant (.predefined Lowering.triState)
    return Lowering.triState
  else if members.all (·.isLiteral) then enumRef owner member members
  else if vocabulary.strictUnions then raise (.inexactUnion (members.map (·.form)))
  else return Lowering.anyUnion

/-- The reference to a type that occurs at a member of an owner, or at the owner itself. -/
def ref (vocabulary : Vocabulary) (owner : String) (member : Option Member) :
    TypeExpr → Action String
  | .union (.primitive "null" :: rest) =>
    match rest with
    | [inner] => do return Lowering.nullable (← ref vocabulary owner member inner)
    | _ => raise (.nullableArity (rest.length + 1))
  | .union members => unionRef vocabulary owner member members
  | .array element =>
    match element.nonNull with
    | .array _ => raise .nestedArray
    | _ => do return (← ref vocabulary owner member element) ++ "[]"
  | .primitive name =>
    match Lowering.primitiveTypes.lookup name with
    | some type => return type
    | none => raise (.unknownPrimitive name)
  | .literal text => raise (.looseLiteral text)
  | .shape properties => objectRef owner member properties
  | .map key value => do
    let keyRef ← ref vocabulary owner member key
    let valueRef ← ref vocabulary owner member value
    return "IEnumerable<KeyValuePair<" ++ keyRef ++ ", " ++ valueRef ++ ">>"
  | .named name => return (vocabulary.classNames.lookup name).getD name
termination_by structural e => e

/-- The reference to a type, located at the member or the owner. -/
def lower (vocabulary : Vocabulary) (owner : String) (member : Option Member) (e : TypeExpr) :
    Action String :=
  (ref vocabulary owner member e).locate owner ((member.map (·.name)).getD "")

/-! ### Members -/

section Rendering

variable (cx : Context)

/-- The type of a member of an owner. -/
def typeOf (owner : String) (m : Member) : Action String :=
  lower cx.vocabulary owner (some m) m.type

/-- Declares one more argument behind those found so far. What is wrong with its type is reported
through the method. -/
def addArgument (owner method : String) (found : List Argument) (arg : Member) :
    Action (List Argument) := do
  let name ← ofCause (Identifier.translate "argument" arg.name none)
  if (found.map (·.name)).contains name then raise (.repeatedArgument name)
  else
    let type ← (typeOf cx owner arg).onFault (.inArgument owner method arg.name)
    return found ++ [⟨type, name⟩]

/-- The arguments of a method, in order. -/
def arguments (owner : String) (method : Member) : Action (List Argument) :=
  passOver (addArgument cx owner method.name) method.args []

/-- The line that declares a member of an owner. -/
def declaration (owner : String) (m : Member) : Action String :=
  if m.kind = "property" then do
    let type ← typeOf cx owner m
    let name ← ofCause (Identifier.translate "property" m.name (some m))
    return Context.propertyLine "" type name
  else if m.kind = "event" then do
    let type ← typeOf cx owner m
    let name ← ofCause (Identifier.translate "event" m.name (some m))
    return Context.eventLine type name
  else if m.kind = "method" then do
    let type ← typeOf cx owner m
    let name ← ofCause (Identifier.translate "method" m.name (some m))
    let arguments ← arguments cx owner m
    return Context.methodLine (Lowering.wrapAsync type m)
      (Context.methodName name type (!m.args.isEmpty)) arguments
  else raise (.unknownMemberKind m.kind)

/-- The lines of a member of an owner. Its declaration is located at the member, its comment is
not. -/
def memberLines (owner : String) (m : Member) : Action (List String) := do
  let line ← (declaration cx owner m).locate owner m.name
  let comment ← ofCause (cx.style.docLines m.doc)
  return comment ++ (if m.deprecated then ["[Obsolete]"] else []) ++ [line]

/-- The interface of a class. -/
def interface (c : ApiClass) : Action Declaration := do
  let name ← ofCause (Identifier.translate "interface" c.name none)
  let comment ← ofCause (cx.style.docLines c.doc)
  let members ← c.members.mapM (memberLines cx c.name)
  return ⟨name, .interfaceType,
    Declaration.braced cx.settings.indent (comment ++ ["public interface " ++ name])
      (Declaration.separated members)⟩

/-! ### Synthesized declarations -/

/-- The type and the name of a property of a synthesized class. -/
def propertyParts (key : String) (property : Member) : Action (String × String) := do
  let type ← typeOf cx key property
  let name ← ofCause (Identifier.translate "property" property.name (some property))
  return (type, name)

/-- The lines of a property of a synthesized class. -/
def resultProperty (key : String) (property : Member) : Action (List String) := do
  let (type, name) ← (propertyParts cx key property).locate key property.name
  let comment ← ofCause (cx.style.docLines property.doc)
  return comment ++ [Context.propertyLine "public " type name]

/-- A class with some properties. -/
def resultClass (key : String) (properties : List Member) : Action Declaration := do
  let blocks ← properties.mapM (resultProperty cx key)
  return ⟨key, .classType,
    Declaration.braced cx.settings.indent ["public class " ++ key]
      (Declaration.separated blocks)⟩

/-- The lines of some enum values, in front of which others have taken names for their literals. -/
def enumValuesFrom (key : String) :
    (taken : List (String × String)) → List String → Action (List (List String))
  | _, [] => return []
  | taken, literal :: literals => do
    let name ← (ofCause (Identifier.valueName literal)).locate key ""
    match taken.lookup name with
    | some first => throw (.report ⟨.repeatedValue first literal name, key, ""⟩)
    | none =>
      let later ← enumValuesFrom key ((name, literal) :: taken) literals
      return enumValueLines literal name :: later

/-- The declaration for an entry of the registry. -/
def synthesized (key : String) : Shape → Action Declaration
  | .object properties => resultClass cx key properties
  | .enum values => do
    let values ← enumValuesFrom key [] values
    return ⟨key, .enumType,
      Declaration.braced cx.settings.indent ["public enum " ++ key] (Declaration.separated values)⟩

end Rendering

end ApiSurface.Raising
