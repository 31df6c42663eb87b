import ApiSurface.Code.Member
import ApiSurface.Registry.Visit

/-!
# Synthesized declarations

The declarations for the entries of the registry: a class with a property for each property of an
object type, or an enum whose values carry the literals they stand for.
-/

namespace ApiSurface

/-- The lines of one enum value. -/
def enumValueLines (literal name : String) : List String :=
  ["[EnumMember(Value = \"" ++ Text.escapeLiteral literal ++ "\")]", name ++ ","]

/-- The lines of some enum values. Their names must differ from each other and from those taken,
which are listed with their literals. -/
def enumValuesFrom (key : String) :
    (taken : List (String × String)) → List String → Except Report (List (List String))
  | _, [] => .ok []
  | taken, literal :: literals =>
    match Identifier.valueName literal with
    | .error c => .error ⟨c, key, ""⟩
    | .ok name =>
      match taken.lookup name with
      | some first => .error ⟨.repeatedValue first literal name, key, ""⟩
      | none => do
        let later ← enumValuesFrom key ((name, literal) :: taken) literals
        return enumValueLines literal name :: later

/-- An enum with a value for each literal. -/
def enumDeclaration (indent key : String) (literals : List String) :
    Except Report Declaration := do
  let values ← enumValuesFrom key [] literals
  return ⟨key, .enumType,
    Declaration.braced indent ["public enum " ++ key] (Declaration.separated values)⟩

namespace Context

/-- The lines of a property of a synthesized class. -/
def resultProperty (cx : Context) (key : String) (property : Member) : Plan (List String) := do
  let type ← cx.typeOf key property
  let name ← Plan.lift ⟨key, property.name, none⟩
    (Identifier.translate "property" property.name (some property))
  let comment ← cx.docLines property.doc
  return comment ++ [propertyLine "public " type name]

/-- A class with some properties. -/
def resultClass (cx : Context) (key : String) (properties : List Member) : Plan Declaration := do
  let blocks ← Plan.forEach (cx.resultProperty key) properties
  return ⟨key, .classType,
    Declaration.braced cx.settings.indent ["public class " ++ key]
      (Declaration.separated blocks)⟩

/-- The declaration for an entry of the registry. -/
def synthesized (cx : Context) (key : String) : Shape → Plan Declaration
  | .object properties => cx.resultClass key properties
  | .enum values =>
    Plan.ofExcept ((enumDeclaration cx.settings.indent key values).mapError .report)

end Context

end ApiSurface
