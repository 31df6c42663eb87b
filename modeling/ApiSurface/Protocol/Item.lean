import ApiSurface.Fault
import ApiSurface.Yaml.ReadFault

/-!
# Protocol items

A protocol is a mapping from names to items. Only objects and interfaces are kept, each with its
properties in order.
-/

namespace ApiSurface.Protocol

/-- An item of a protocol. -/
structure Item where
  name : String
  kind : String
  properties : List (String × Value) := []
deriving DecidableEq

/-- The kind of an item that is kept. -/
def keptKind? (fields : List (Value × Value)) : Option String :=
  match Value.field? "type" fields with
  | some (.text kind) => if kind = "object" || kind = "interface" then some kind else none
  | _ => none

/-- The properties of an item; any value that counts as false stands for none. -/
def propertiesOf (key : Value) (fields : List (Value × Value)) :
    Except Fault (List (String × Value)) :=
  match Value.field? "properties" fields with
  | none => .ok []
  | some (.map entries) => entries.mapM fun (k, v) => do return (← k.written, v)
  | some v => do
    if v.truthy then throw (.report ⟨.notProperties, ← key.written, ""⟩) else return []

/-- The items of the entries of a protocol. -/
def itemsFrom : List (Value × Value) → Except Fault (List Item)
  | [] => .ok []
  | (key, .map fields) :: rest =>
    match keptKind? fields with
    | none => itemsFrom rest
    | some kind => do
      let properties ← propertiesOf key fields
      let name ← key.written
      return ⟨name, kind, properties⟩ :: (← itemsFrom rest)
  | (key, _) :: _ => do throw (.report ⟨.notAProtocolItem, ← key.written, ""⟩)

/-- The items of a document; an empty document has none. -/
def itemsOf : Value → Except Fault (List Item)
  | .null => .ok []
  | .map entries => itemsFrom entries
  | _ => .error (.ofCause .notAProtocol)

/-- The items of a text in YAML. A number that cannot be read is a fault of its own. -/
def read (yaml : Yaml.Reader) (text : String) : Except Fault (List Item) :=
  match yaml text with
  | .error .malformed => .error (.ofCause (.unparsable "protocol" "YAML"))
  | .error (.numeral fault) => .error (.numeral fault)
  | .error (.code fault) => .error (.code fault)
  | .ok document => itemsOf document

end ApiSurface.Protocol
