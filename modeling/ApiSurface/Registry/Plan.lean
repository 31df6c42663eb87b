import ApiSurface.Registry.Basic

/-!
# Plans

Rendering never looks at what is registered, it only asks for registrations. So what renders a piece
of code is a `Plan`: the requests it makes, in order, and then a result or the fault at which it
stops. `Plan.run` files the requests and stops at the first that is refused.
-/

namespace ApiSurface

/-- A declaration that is asked for. -/
inductive Demand where
  | shape (key : String) (shape : Shape)
  /-- A predefined enum, by its name. -/
  | predefined (key : String)
deriving DecidableEq

/-- The name of the declaration that is asked for. -/
def Demand.key : Demand → String
  | .shape key _ => key
  | .predefined key => key

/-- A demand together with the place it comes from, where a refusal is reported. -/
structure Request where
  demand : Demand
  place : Place
deriving DecidableEq

/-- Requests in order, and what comes of it if all are granted. -/
structure Plan (α : Type) where
  requests : List Request
  outcome : Except Fault α

namespace Plan

variable {α β : Type}

/-- The plan without requests. -/
def ok (a : α) : Plan α := ⟨[], .ok a⟩

/-- The plan that stops at once. -/
def fail (f : Fault) : Plan α := ⟨[], .error f⟩

/-- The plan that stops at once for a cause at a place. -/
def blame (p : Place) (c : Cause) : Plan α := fail (p.blame c)

/-- A result without requests, or a cause found at a place. -/
def lift (p : Place) : Except Cause α → Plan α
  | .ok a => ok a
  | .error c => blame p c

/-- A result without requests, or a fault. -/
def ofExcept (x : Except Fault α) : Plan α := ⟨[], x⟩

/-- The plan of one request. -/
def request (p : Place) (d : Demand) : Plan Unit := ⟨[⟨d, p⟩], .ok ()⟩

/-- One plan after another. -/
def andThen (p : Plan α) (next : α → Plan β) : Plan β :=
  match p.outcome with
  | .ok a => ⟨p.requests ++ (next a).requests, (next a).outcome⟩
  | .error f => ⟨p.requests, .error f⟩

instance : Monad Plan where
  pure := ok
  bind := andThen

/-- One plan for each element, in order. -/
def forEach (f : α → Plan β) : List α → Plan (List β)
  | [] => ok []
  | a :: as => do
    let b ← f a
    let bs ← forEach f as
    return b :: bs

end Plan

namespace Registry

/-- Grants what is asked for, and says whether it is new. -/
def grant (r : Registry) : Demand → Except Fault (Bool × Registry)
  | .shape key shape => (r.register key shape).mapError .ofCause
  | .predefined key => r.usePredefined key

/-- A refusal, reported at the place of the request. -/
def refusal (p : Place) : Fault → Fault
  | .report report => p.blame report.cause
  | fault => fault

/-- What came of some requests: the names that were added, the first refusal, and the registry. -/
structure Filing where
  added : List String
  refused : Option Fault
  registry : Registry

/-- Files requests in order up to the first that is refused. -/
def file (r : Registry) : List Request → Filing
  | [] => ⟨[], none, r⟩
  | q :: qs =>
    match r.grant q.demand with
    | .error fault => ⟨[], some (refusal q.place fault), r⟩
    | .ok (isNew, r') =>
      let later := r'.file qs
      if isNew then { later with added := q.demand.key :: later.added } else later

end Registry

/-- What came of a plan: the names that were added, the result or the first fault, and the
registry. Registrations before a fault stay. -/
structure Plan.Run (α : Type) where
  added : List String
  outcome : Except Fault α
  registry : Registry

/-- Carries out a plan. -/
def Plan.run {α : Type} (p : Plan α) (r : Registry) : Plan.Run α :=
  let filing := r.file p.requests
  match filing.refused with
  | some fault => ⟨filing.added, .error fault, filing.registry⟩
  | none => ⟨filing.added, p.outcome, filing.registry⟩

end ApiSurface
