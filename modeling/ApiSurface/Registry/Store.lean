import ApiSurface.Registry.Plan
import ApiSurface.Registry.Visit

/-!
# The registry in two structures

A store keeps the entries of a registry in a dictionary, and the order of their names in a list of its
own. An operation changes the store in place: it yields a result or a fault together with the store
that it leaves. Names are looked up in the dictionary alone; what is visited or drained is read off
the list, each name looked up in turn.
-/

namespace ApiSurface

/-- A dictionary with a value for a key, which keeps its place if it is there already. -/
def assign {α : Type} (key : String) (a : α) : List (String × α) → List (String × α)
  | [] => [(key, a)]
  | (k, b) :: rest => if k = key then (key, a) :: rest else (k, b) :: assign key a rest

/-- The declarations registered so far, in two structures. -/
structure Store where
  /-- The shapes of the names. -/
  entries : List (String × Shape) := []
  /-- The names in the order of registration. -/
  order : List String := []
  /-- The literals of the enums that can be registered by name. -/
  predefined : List (String × List String) := []
  /-- Whether the store has been drained. -/
  closed : Bool := false
deriving DecidableEq

namespace Store

/-- An empty store. Of two predefined enums with one name the later counts. -/
def empty (predefined : List (String × List String)) : Store :=
  { predefined := predefined.foldl (fun d p => assign p.1 p.2 d) [] }

/-- The shape registered under a name. -/
def get? (s : Store) (key : String) : Option Shape := s.entries.lookup key

/-- Whether a name is registered. -/
def contains (s : Store) (key : String) : Bool := (s.get? key).isSome

/-- The number of registered names. -/
def size (s : Store) : Nat := s.order.length

/-- Registers a shape under a name and says whether the name is new. -/
def register (s : Store) (key : String) (shape : Shape) : Except Fault Bool × Store :=
  if s.closed then (.error (.ofCause (.registerAfterDrain key)), s)
  else
    match s.get? key with
    | none =>
      let s := { s with entries := assign key shape s.entries }
      let s := { s with order := s.order ++ [key] }
      (.ok true, s)
    | some present =>
      if present = shape then (.ok false, s)
      else (.error (.ofCause (.nameTaken key present.describe shape.describe)), s)

/-- Registers a predefined enum by its name. -/
def usePredefined (s : Store) (key : String) : Except Fault Bool × Store :=
  match s.predefined.lookup key with
  | none => (.error (.missingKey key), s)
  | some values => s.register key (.enum values)

/-- A name of the list with its shape. -/
def entry (s : Store) (key : String) : Except Fault (String × Shape) :=
  match s.get? key with
  | none => .error (.missingKey key)
  | some shape => .ok (key, shape)

/-- Takes out all entries and closes the store. -/
def drain (s : Store) : Except Fault (List (String × Shape)) × Store :=
  if s.closed then (.error (.ofCause .drainedTwice), s)
  else
    match s.order.mapM s.entry with
    | .error fault => (.error fault, s)
    | .ok entries =>
      let s := { s with entries := [] }
      let s := { s with order := [] }
      (.ok entries, { s with closed := true })

/-- Grants what is asked for, and says whether it is new. -/
def grant (s : Store) : Demand → Except Fault Bool × Store
  | .shape key shape => s.register key shape
  | .predefined key => s.usePredefined key

/-- Grants demands in order, up to the first that is refused. -/
def grantAll (s : Store) : List Demand → Option Fault × Store
  | [] => (none, s)
  | d :: ds =>
    match s.grant d with
    | (.error fault, s) => (some fault, s)
    | (.ok _, s) => s.grantAll ds

/-- What came of an iteration: the entries visited, how it ended, and the store. -/
structure Iteration where
  visited : List (String × Shape)
  ending : Ending
  store : Store

/-- Visits at most `bound` names of the list from a position on, and makes the registrations for
each. The list may grow meanwhile. -/
def iterateFrom (body : String → Shape → List Demand) : (bound position : Nat) → Store → Iteration
  | bound, position, s =>
    match s.order[position]?, bound with
    | none, _ => ⟨[], .complete, s⟩
    | some _, 0 => ⟨[], .unfinished, s⟩
    | some key, bound + 1 =>
      match s.entry key with
      | .error fault => ⟨[], .failed fault, s⟩
      | .ok (key, shape) =>
        match s.grantAll (body key shape) with
        | (some fault, s) => ⟨[(key, shape)], .failed fault, s⟩
        | (none, s) =>
          let later := iterateFrom body bound (position + 1) s
          { later with visited := (key, shape) :: later.visited }

/-- An iteration over the names of the list, of which at most `bound` are visited. -/
def iterate (s : Store) (body : String → Shape → List Demand) (bound : Nat) : Iteration :=
  iterateFrom body bound 0 s

end Store

end ApiSurface
