import ApiSurface.Api.TypeExpr
import ApiSurface.Fault
import ApiSurface.Json.Reader
import ApiSurface.Text.Case
import ApiSurface.Yaml.ReadFault

/-!
# API descriptions

`classesOf` reads the classes that a document describes: a list of classes, or a mapping with one
under `classes`. A type is a name or a mapping. Faults are reported at the innermost member with a
name, and at its class. Where a text is expected, any value that can be written is taken as one. Of
several parts at fault the first that is read counts.
-/

namespace ApiSurface.Description

/-- What the entries of a mapping are. -/
abbrev Fields := List (Value × Value)

/-- The fault that a value is not what it should be, at a place not known yet. -/
def misfit (v : Value) (c : Cause) : Fault := .showing v ⟨c, "", ""⟩

/-- Whether a mapping has a field. -/
def has (fields : Fields) (name : String) : Bool := (Value.field? name fields).isSome

/-- The items of a field that holds a list; a missing or empty one has none. -/
def listField (name : String) (fields : Fields) : Except Fault (List Value) :=
  match Value.field? name fields with
  | none => .ok []
  | some .null => .ok []
  | some (.list items) => .ok items
  | some v => .error (misfit v (.notAList name v))

/-- The text of a field, with a default for a missing one. -/
def textField (name default : String) (fields : Fields) : Except Fault String :=
  match Value.field? name fields with
  | none => .ok default
  | some v => v.written

/-- Whether a field is there and counts as true. -/
def flagField (name : String) (fields : Fields) : Bool :=
  (Value.field? name fields).any Value.truthy

/-- One documentation node: a text, or a mapping with its parts. -/
def docNodeOf : Value → Except Fault DocNode
  | .text s => .ok { kind := "text", text := s }
  | .map fields => do
    let kind ← textField "type" "text" fields
    let text ← textField "text" "" fields
    let lines ← (← listField "lines" fields).mapM Value.written
    let listType ← textField "liType" "bullet" fields
    return { kind, text, lines, listType }
  | _ => .error (.ofCause .notADocNode)

/-- The documentation nodes of a list. -/
def docOf : Value → Except Fault (List DocNode)
  | .list nodes => nodes.mapM docNodeOf
  | _ => .error (.ofCause .notDocumentation)

/-- The type names that are built in although they start with a capital. -/
def builtinNames : List String := ["Buffer", "Serializable", "Object"]

/-- The type that a name on its own stands for: a literal if it starts with a quote, a built-in type
if it starts with a lowercase letter, else a class. -/
def typeNamed (name : String) : Except Fault TypeExpr :=
  match name.toList with
  | [] => .error (.ofCause .emptyTypeName)
  | c :: _ =>
    if c = '"' || c = '\'' then .ok (.literal name)
    else if builtinNames.contains name || Text.isLowercase c then .ok (.primitive name)
    else .ok (.named name)

/-- The alias that a value gives; null gives none. -/
def aliasOf : Option Value → Except Fault (Option String)
  | none => .ok none
  | some .null => .ok none
  | some v => v.written.map some

mutual
/-- The type that a value describes. Members in it belong to the owner. -/
def typeOf (owner : String) : Value → Except Fault TypeExpr
  | .text name => typeNamed name
  | .map fields =>
    if has fields "union" then do
      let members ← (← typesField owner "union" fields).mapM id
      if members.length < 2 then throw (.ofCause .shortUnion)
      return .union members
    else do
      let name ← textField "name" "" fields
      let templates ← typesField owner "templates" fields
      if name = "Array" then
        match templates with
        | [element] => return .array (← element)
        | _ => throw (.ofCause (.arrayArity templates.length))
      else if name = "Object" && has fields "properties" then
        return .shape (← membersField owner "properties" "property" fields)
      else
        match name, templates with
        | "Object", [key, value] => do
          let key ← key
          return .map key (← value)
        | _, _ => typeNamed name
  | v => .error (misfit v (.notAType v))
termination_by structural v => v
/-- The types that some values describe, each with its own outcome. -/
def typesOf (owner : String) : List Value → List (Except Fault TypeExpr)
  | [] => []
  | v :: vs => typeOf owner v :: typesOf owner vs
termination_by structural vs => vs
/-- The types that the items of a field describe. -/
def typesField (owner name : String) : Fields → Except Fault (List (Except Fault TypeExpr))
  | [] => .ok []
  | (k, v) :: rest =>
    if k = .text name then
      match v with
      | .null => .ok []
      | .list items => .ok (typesOf owner items)
      | v => .error (misfit v (.notAList name v))
    else typesField owner name rest
termination_by structural fields => fields
/-- The type of a member, which yields nothing if it names none. -/
def memberType (owner : String) : Fields → Except Fault TypeExpr
  | [] => typeNamed "void"
  | (k, v) :: rest => if k = .text "type" then typeOf owner v else memberType owner rest
termination_by structural fields => fields
/-- The member that a value describes. Arguments and properties have their kind from where they
stand, other members name it. -/
def memberOf (owner : String) (kind : Option String) : Value → Except Fault Member
  | .map fields =>
    match Value.field? "name" fields with
    | none => .error (.showing (.map fields) ⟨.memberWithoutName (.map fields), owner, ""⟩)
    | some nameValue => do
      let name ← nameValue.written
      let kind ← match kind with
        | some kind => pure kind
        | none => textField "kind" "property" fields
      let parts : Except Fault (TypeExpr × List Member × List DocNode) := do
        let type ← memberType owner fields
        let args ← membersField owner "args" "argument" fields
        let doc ← docOf (.list (← listField "spec" fields))
        return (type, args, doc)
      let (type, args, doc) ← parts.mapError (·.locate owner name)
      let preferredName ← aliasOf (Value.field? "alias" fields)
      return {
        kind, name, type, args, doc, preferredName
        isAsync := flagField "async" fields
        deprecated := flagField "deprecated" fields }
  | v => .error (.showing v ⟨.memberWithoutName v, owner, ""⟩)
termination_by structural v => v
/-- The members that some values describe. -/
def membersOf (owner : String) (kind : Option String) : List Value → Except Fault (List Member)
  | [] => .ok []
  | v :: vs => do
    let m ← memberOf owner kind v
    return m :: (← membersOf owner kind vs)
termination_by structural vs => vs
/-- The members of a kind that the items of a field describe. -/
def membersField (owner name kind : String) : Fields → Except Fault (List Member)
  | [] => .ok []
  | (k, v) :: rest =>
    if k = .text name then
      match v with
      | .null => .ok []
      | .list items => membersOf owner (some kind) items
      | v => .error (misfit v (.notAList name v))
    else membersField owner name kind rest
termination_by structural fields => fields
end

/-- The class that a value describes. -/
def classOf : Value → Except Fault ApiClass
  | .map fields =>
    match Value.field? "name" fields with
    | none => .error (misfit (.map fields) (.classWithoutName (.map fields)))
    | some nameValue => do
      let name ← nameValue.written
      let parts : Except Fault (List Member × List DocNode) := do
        let members ← membersOf name none (← listField "members" fields)
        let doc ← docOf (.list (← listField "spec" fields))
        return (members, doc)
      let (members, doc) ← parts.mapError (·.locate name "")
      return { name, members, doc }
  | v => .error (misfit v (.classWithoutName v))

/-- The classes that some values describe. Their names must differ from each other and from those
taken. -/
def classesFrom : (taken : List String) → List Value → Except Fault (List ApiClass)
  | _, [] => .ok []
  | taken, v :: vs => do
    let c ← classOf v
    if taken.contains c.name then throw (.report ⟨.classDeclaredTwice, c.name, ""⟩)
    return c :: (← classesFrom (c.name :: taken) vs)

/-- The list of classes in a document: the document itself, or what it has under `classes`. -/
def classList : Value → Value
  | .map fields => (Value.field? "classes" fields).getD (.list [])
  | v => v

/-- The classes that a document describes. -/
def classesOf (document : Value) : Except Fault (List ApiClass) :=
  match classList document with
  | .list entries => classesFrom [] entries
  | _ => .error (.ofCause .notAClassList)

/-- The document that a text holds. Only the largest codes of escapes are a fault of their own. -/
def documentOf (yaml : Yaml.Reader) (isYaml : Bool) (text : String) : Except Fault Value :=
  if isYaml then
    match yaml text with
    | .ok document => .ok document
    | .error (.code .beyondSignedWord) => .error (.code .beyondSignedWord)
    | .error _ => .error (.ofCause (.unparsable "API description" "YAML"))
  else
    match Json.read? text with
    | some document => .ok document
    | none => .error (.ofCause (.unparsable "API description" "JSON"))

/-- The classes that a text in JSON or YAML describes. -/
def read (yaml : Yaml.Reader) (isYaml : Bool) (text : String) : Except Fault (List ApiClass) := do
  classesOf (← documentOf yaml isYaml text)

end ApiSurface.Description
