import ApiSurface.Api.TypeExpr
import ApiSurface.Fault

/-!
# The registry

Declarations that a run finds a need for, result classes and enums, are filed in a registry under
their names, in the order in which they are first registered. `Registry.drain` takes them out, once,
and closes the registry. A call that fails leaves the registry as it was: it returns none.
-/

namespace ApiSurface

/-- What a synthesized declaration is made from. -/
inductive Shape where
  /-- A class with the properties of an object type. -/
  | object (properties : List Member)
  /-- An enum with literals, without their quotes. -/
  | enum (values : List String)
deriving DecidableEq

/-- A shape in short, for messages. -/
def Shape.describe : Shape → String
  | .object properties => "\x7b" ++ ", ".intercalate (properties.map (·.name)) ++ "\x7d"
  | .enum values => "enum(" ++ ", ".intercalate values ++ ")"

/-- The declarations registered so far. -/
structure Registry where
  /-- Names with their shapes, in the order of registration. -/
  entries : List (String × Shape) := []
  /-- Enums that can be registered by name. -/
  predefined : List (String × List String) := []
  /-- Whether the registry has been drained. -/
  closed : Bool := false
deriving DecidableEq

namespace Registry

/-- An empty registry. Of two predefined enums with one name the later counts. -/
def empty (predefined : List (String × List String)) : Registry := ⟨[], predefined, false⟩

/-- The registered names. -/
def keys (r : Registry) : List String := r.entries.map (·.1)

/-- The shape registered under a name. -/
def get? (r : Registry) (key : String) : Option Shape := r.entries.lookup key

/-- Whether a name is registered. -/
def contains (r : Registry) (key : String) : Bool := (r.get? key).isSome

/-- The number of registered names. -/
def size (r : Registry) : Nat := r.entries.length

/-- The literals of a predefined enum. -/
def predefined? (r : Registry) (key : String) : Option (List String) :=
  r.predefined.reverse.lookup key

/-- Registers a shape under a name and says whether the name is new. A name that is taken can only
be registered again with the same shape. -/
def register (r : Registry) (key : String) (shape : Shape) : Except Cause (Bool × Registry) :=
  if r.closed then .error (.registerAfterDrain key)
  else
    match r.get? key with
    | none => .ok (true, { r with entries := r.entries ++ [(key, shape)] })
    | some present =>
      if present = shape then .ok (false, r)
      else .error (.nameTaken key present.describe shape.describe)

/-- Registers a predefined enum by its name. -/
def usePredefined (r : Registry) (key : String) : Except Fault (Bool × Registry) :=
  match r.predefined? key with
  | none => .error (.missingKey key)
  | some values => (r.register key (.enum values)).mapError .ofCause

/-- Takes out all entries and closes the registry. -/
def drain (r : Registry) : Except Cause (List (String × Shape) × Registry) :=
  if r.closed then .error .drainedTwice
  else .ok (r.entries, { r with entries := [], closed := true })

end Registry

end ApiSurface
