import ApiSurface.Registry.Plan

/-!
# Actions

An `Action` registers declarations as it goes, and what it has registered stays if it fails. A fault
is raised where it is found, and whoever calls may change it on its way out: fill in its place, as
far as that is not known yet, or put another in its stead.
-/

namespace ApiSurface

/-- A computation on a registry that comes to a result or raises a fault. -/
abbrev Action := ExceptT Fault (StateM Registry)

namespace Action

variable {α : Type}

/-- What comes of an action on a registry, and the registry that it leaves. -/
def on (x : Action α) (r : Registry) : Except Fault α × Registry := x.run.run r

/-- Raises a fault whose place is not known. -/
def raise (c : Cause) : Action α := throw (.ofCause c)

/-- A result, or a cause that is raised. -/
def ofCause : Except Cause α → Action α
  | .ok a => pure a
  | .error c => raise c

/-- Changes the faults of an action. -/
def onFault (x : Action α) (change : Fault → Fault) : Action α :=
  tryCatch x fun fault => throw (change fault)

/-- Fills in what the reports of an action do not know of their place. -/
def locate (x : Action α) (owner member : String) : Action α := x.onFault (.locate owner member)

/-- Registers what is asked for. -/
def grant (d : Demand) : Action Unit := do
  match (← get).grant d with
  | .error fault => throw fault
  | .ok (_, r) => set r

end Action

end ApiSurface
