import ApiSurface.Registry.Plan

/-!
# Visiting a growing registry

`Registry.visit` goes through the entries in order and carries out a plan for each, also for those
entries that the plans add on the way. The number of entries to visit is bounded by an argument; a
visit that would need more ends as `unfinished`.
-/

namespace ApiSurface

/-- How a visit ended. -/
inductive Ending where
  /-- Every entry was visited. -/
  | complete
  /-- The plan of the last visited entry failed. -/
  | failed (fault : Fault)
  /-- The bound was reached. -/
  | unfinished
deriving DecidableEq

/-- What came of a visit: the entries visited, the results for those whose plan succeeded, how it
ended, and the registry. -/
structure Visit (α : Type) where
  visited : List (String × Shape)
  results : List α
  ending : Ending
  registry : Registry

/-- The results of a complete visit, or the fault that ended it. -/
def Visit.outcome {α : Type} (v : Visit α) : Except Fault (List α) :=
  match v.ending with
  | .failed fault => .error fault
  | _ => .ok v.results

namespace Registry

variable {α : Type}

/-- Visits at most `bound` entries from a position on. -/
def visitFrom (body : String → Shape → Plan α) : (bound position : Nat) → Registry → Visit α
  | bound, position, r =>
    match r.entries[position]?, bound with
    | none, _ => ⟨[], [], .complete, r⟩
    | some _, 0 => ⟨[], [], .unfinished, r⟩
    | some (key, shape), bound + 1 =>
      let run := (body key shape).run r
      match run.outcome with
      | .error fault => ⟨[(key, shape)], [], .failed fault, run.registry⟩
      | .ok a =>
        let later := visitFrom body bound (position + 1) run.registry
        { later with visited := (key, shape) :: later.visited, results := a :: later.results }

/-- Visits at most `bound` entries, from the first on. -/
def visit (body : String → Shape → Plan α) (bound : Nat) (r : Registry) : Visit α :=
  visitFrom body bound 0 r

end Registry

end ApiSurface
