import ApiSurface.Code.Synthesized
import ApiSurface.Protocol.Item

/-!
# Channels

An object of a protocol becomes a class, an interface a class whose name ends in `Channel`. An enum
in the type of a property is declared under the name of the property; equal enums share a
declaration.
-/

namespace ApiSurface.Protocol

/-- The C# types of the built-in types. -/
def builtinTypes : List (String × String) :=
  [("boolean", "bool"), ("string", "string"), ("number", "float"), ("binary", "byte[]")]

/-- The names of the objects of a protocol, which are types. -/
def objectNames (items : List Item) : List String :=
  (items.filter (·.kind = "object")).map (·.name)

/-- The C# type with a name: an object under its own name, or a built-in type. -/
def typeNamed? (objects : List String) (name : String) : Option String :=
  if objects.contains name then some name else builtinTypes.lookup name

/-- The types that need a mark to become nullable. -/
def isValueType (type : String) : Bool := type = "bool" || type = "float"

/-- The type for a name that may be marked as nullable, given with its last character first. -/
def markedType (objects : List String) (place : Place) (isNullable : Bool)
    (written name : List Char) : Plan String :=
  match typeNamed? objects (String.ofList name.reverse) with
  | none => Plan.blame place (.unknownChannelType (String.ofList written.reverse))
  | some type => return if isNullable && isValueType type then type ++ "?" else type

/-- The type that a text gives, read from its end: each `[]`, with or without a `?` after it, makes
an array, and a `?` behind the name itself makes the type nullable. -/
def textType (objects : List String) (place : Place) : List Char → Plan String
  | '?' :: ']' :: '[' :: rest => do return (← textType objects place rest) ++ "[]"
  | ']' :: '[' :: rest => do return (← textType objects place rest) ++ "[]"
  | '?' :: name => markedType objects place true ('?' :: name) name
  | name => markedType objects place false name name

/-- The literals of an enum: the items of a list, the characters of a text or the keys of a mapping,
without nulls. -/
def literalsOf : Option Value → Except Fault (List String)
  | none => .ok []
  | some v =>
    if !v.truthy then .ok []
    else
      let texts (vs : List Value) : Except Fault (List String) :=
        (vs.filter (· ≠ .null)).mapM Value.written
      match v with
      | .list items => texts items
      | .text s => .ok (s.toList.map String.singleton)
      | .map entries => texts (entries.map (·.1))
      | .int _ => .error (.notIterable "int")
      | .float _ => .error (.notIterable "float")
      | .bool _ => .error (.notIterable "bool")
      | .null => .ok []

/-- The name of the enum for a property. -/
def enumName (owner : String) : String := owner ++ "Enum"

/-- The type for an enum, which is declared under the name of its owner. -/
def enumType (place : Place) (owner kind : String) (fields : List (Value × Value)) :
    Plan String := do
  let literals ← Plan.ofExcept (literalsOf (Value.field? "literals" fields))
  Plan.request place (.shape (enumName owner) (.enum literals))
  return if kind.endsWith "?" then enumName owner ++ "?" else enumName owner

/-- The plan that stops at a value that is no type. -/
def unsupported (place : Place) (v : Value) : Plan String :=
  Plan.fail (.showing v (place.report (.unsupportedChannelType v)))

/-- What a mapping says it is; one that does not say it has the empty text. -/
def statedKind (fields : List (Value × Value)) : Except Fault String :=
  match Value.field? "type" fields with
  | none => .ok ""
  | some v => v.written

mutual
/-- The C# type for the type of a property. -/
def channelType (objects : List String) (place : Place) (owner : String) : Value → Plan String
  | .text s => textType objects place s.toList.reverse
  | .map fields => do
    let kind ← Plan.ofExcept (statedKind fields)
    if kind.startsWith "enum" then enumType place owner kind fields
    else if kind.startsWith "array" then
      return (← itemType objects place owner fields) ++ "[]"
    else unsupported place (.map fields)
  | v => unsupported place v
termination_by structural v => v
/-- The C# type for the items of an array; a missing one is the empty name. -/
def itemType (objects : List String) (place : Place) (owner : String) :
    List (Value × Value) → Plan String
  | [] => textType objects place []
  | (k, v) :: rest =>
    if k = .text "items" then channelType objects place owner v
    else itemType objects place owner rest
termination_by structural fields => fields
end

/-- The name of the class for an item, or of the property for a name. -/
def channelName (kind name : String) : String :=
  if name = "" then ""
  else if kind = "interface" then Identifier.capitalize name ++ "Channel"
  else Identifier.capitalize name

/-- The lines of a property of an item. -/
def propertyLines (objects : List String) (item : Item) (name : String) (value : Value) :
    Plan (List String) := do
  let property := channelName "property" name
  let type ← channelType objects ⟨item.name, name, none⟩ property value
  return ["[JsonProperty(\"" ++ name ++ "\")]", Context.propertyLine "public " type property]

/-- The class for an item. -/
def itemClass (indent : String) (objects : List String) (item : Item) : Plan Declaration := do
  let name := channelName item.kind item.name
  let blocks ← Plan.forEach (fun (p, v) => propertyLines objects item p v) item.properties
  return ⟨name, .classType,
    Declaration.braced indent ["// Generated from: " ++ item.name, "public partial class " ++ name]
      (Declaration.separated blocks)⟩

/-- The declarations for a protocol, by the folder they belong in. -/
structure Channels where
  models : List Declaration
  channels : List Declaration
  enums : List Declaration
deriving DecidableEq

/-- The folders in order, with their declarations. -/
def Channels.groups (c : Channels) : List (String × List Declaration) :=
  [("models", c.models), ("channels", c.channels), ("enums", c.enums)]

/-- All declarations in order. -/
def Channels.all (c : Channels) : List Declaration := c.models ++ c.channels ++ c.enums

/-- The declarations for the enums among some entries. -/
def enumDeclarations (indent : String) :
    List (String × Shape) → Except Report (List Declaration)
  | [] => .ok []
  | (key, .enum values) :: rest => do
    let d ← enumDeclaration indent key values
    return d :: (← enumDeclarations indent rest)
  | (_, .object _) :: rest => enumDeclarations indent rest

/-- Whether an item is rendered as a channel. -/
def Item.isChannel (item : Item) : Bool := item.kind = "interface"

/-- The declarations of some rendered items and of the enums registered for them. -/
def assemble (settings : Settings) (items : List Item) (rendered : List Declaration)
    (r : Registry) : Except Fault Channels :=
  match r.drain with
  | .error c => .error (.ofCause c)
  | .ok (entries, _) => do
    let enums ← (enumDeclarations settings.indent entries).mapError .report
    let pairs := items.zip rendered
    return {
      models := (pairs.filter (!·.1.isChannel)).map (·.2)
      channels := (pairs.filter (·.1.isChannel)).map (·.2)
      enums }

/-- Renders the items of a protocol, and then the enums in them. -/
def generateChannels (settings : Settings) (items : List Item) : Except Fault Channels :=
  let plan := Plan.forEach (itemClass settings.indent (objectNames items)) items
  let run := plan.run (.empty [])
  match run.outcome with
  | .error fault => .error fault
  | .ok rendered => assemble settings items rendered run.registry

end ApiSurface.Protocol
