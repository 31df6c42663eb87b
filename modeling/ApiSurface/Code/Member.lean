import ApiSurface.Code.Argument

/-!
# Members of an interface

Every member is one line of C#, below its comment. A method without arguments that yields something
is called `Get…`, unless its name starts with `Is`.
-/

namespace ApiSurface

namespace Context

/-- The name of a method in its declaration. -/
def methodName (name type : String) (hasArguments : Bool) : String :=
  let isGetter := !hasArguments && type ≠ "void" && !name.startsWith "Is"
  let called := if isGetter then "Get" ++ name else name
  if type = Lowering.genericPlaceholder then called ++ "<" ++ Lowering.genericPlaceholder ++ ">"
  else called

/-- The line that declares a property. -/
def propertyLine (access type name : String) : String :=
  access ++ type ++ " " ++ name ++ " \x7b get; set; \x7d"

/-- The line that declares an event. -/
def eventLine (type name : String) : String :=
  if type = "void" then "event EventHandler " ++ name ++ ";"
  else "event EventHandler<" ++ type ++ "> " ++ name ++ ";"

/-- The line that declares a method. -/
def methodLine (type name : String) (arguments : List Argument) : String :=
  type ++ " " ++ name ++ "(" ++
    ", ".intercalate (arguments.map fun a => a.type ++ " " ++ a.name) ++ ");"

/-- The line that declares a member of an owner. -/
def declaration (cx : Context) (owner : String) (m : Member) : Plan String :=
  let place : Place := ⟨owner, m.name, none⟩
  if m.kind = "property" then do
    let type ← cx.typeOf owner m
    let name ← Plan.lift place (Identifier.translate "property" m.name (some m))
    return propertyLine "" type name
  else if m.kind = "event" then do
    let type ← cx.typeOf owner m
    let name ← Plan.lift place (Identifier.translate "event" m.name (some m))
    return eventLine type name
  else if m.kind = "method" then do
    let type ← cx.typeOf owner m
    let name ← Plan.lift place (Identifier.translate "method" m.name (some m))
    let arguments ← cx.arguments place owner m
    return methodLine (Lowering.wrapAsync type m) (methodName name type (!m.args.isEmpty)) arguments
  else Plan.blame place (.unknownMemberKind m.kind)

/-- The lines of a member of an owner: its comment, a mark if it is deprecated, its declaration. -/
def memberLines (cx : Context) (owner : String) (m : Member) : Plan (List String) := do
  let line ← cx.declaration owner m
  let comment ← cx.docLines m.doc
  return comment ++ (if m.deprecated then ["[Obsolete]"] else []) ++ [line]

/-- The interface of a class. -/
def interface (cx : Context) (c : ApiClass) : Plan Declaration := do
  let name ← Plan.lift {} (Identifier.translate "interface" c.name none)
  let comment ← cx.docLines c.doc
  let members ← Plan.forEach (cx.memberLines c.name) c.members
  return ⟨name, .interfaceType,
    Declaration.braced cx.settings.indent (comment ++ ["public interface " ++ name])
      (Declaration.separated members)⟩

end Context

end ApiSurface
