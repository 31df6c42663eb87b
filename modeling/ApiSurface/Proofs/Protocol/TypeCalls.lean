import ApiSurface.Proofs.Protocol.Unreported
import ApiSurface.Proofs.Registry.Atomic

/-!
# Calls for types, one after another

All types of a document are looked up on one registry, and a call that fails does not end the
others.  A call either goes through or changes nothing, and its text does not tell what was called
before.
-/

namespace ApiSurface.Protocol

section Types

variable {objects : List String} {place : Place} {owner : String}

/-! ### One request at most -/

end Types

/-! ### Runs of calls -/

/-- A call for the text of a type. -/
structure TypeCall where
  owner : String
  type : Value
  /-- Where a failure is reported. -/
  place : Place := {}

/-- What a call comes to, by itself. -/
def TypeCall.plan (items : List Item) (c : TypeCall) : Plan String :=
  channelType (objectNames items) c.place c.owner c.type

section Calls

variable {items : List Item} {calls : List TypeCall} {c : TypeCall} {text : String}

end Calls

end ApiSurface.Protocol
