import ApiSurface.Proofs.Registry.Extension

/-!
# Plans that ask at most once

A plan that makes one request at most, and none if it fails on its own, either goes through or changes
nothing: after the request nothing is left that could fail.
-/

namespace ApiSurface

namespace Registry

theorem length_added_le (r : Registry) (qs : List Request) : (r.file qs).added.length ≤ qs.length := by
  induction qs generalizing r with
  | nil => exact Nat.le_refl 0
  | cons q qs ih =>
    unfold file
    cases r.grant q.demand with
    | error fault => exact Nat.zero_le _
    | ok granted =>
      obtain ⟨isNew, r'⟩ := granted
      cases isNew with
      | false => exact Nat.le_succ_of_le (ih r')
      | true => exact Nat.succ_le_succ (ih r')

end Registry

namespace Plan

variable {α β : Type}

/-- The plan makes one request at most, and none if it fails on its own. -/
structure Atomic (p : Plan α) : Prop where
  single : p.requests.length ≤ 1
  idle : ∀ fault, p.outcome = .error fault → p.requests = []

namespace Atomic

theorem map {p : Plan α} (hp : p.Atomic) (f : α → β) : (p >>= fun a => pure (f a)).Atomic := by
  rw [bind_pure_eq]
  refine ⟨hp.single, fun fault h => ?_⟩
  cases houtcome : p.outcome with
  | error fault' => exact hp.idle fault' houtcome
  | ok a =>
    rw [houtcome] at h
    cases h

variable {p : Plan α} {r : Registry}

/-- **A run** adds one entry at most, under a new name. -/
theorem run_extends (hp : p.Atomic) (r : Registry) :
    ∃ es, (p.run r).registry = r.push es ∧ es.length ≤ 1 ∧ ∀ e ∈ es, r.get? e.1 = none := by
  obtain ⟨es, hreg, hadded, -, hfresh⟩ := p.run_extends r
  refine ⟨es, hreg, ?_, hfresh⟩
  have hlength := r.length_added_le p.requests
  rw [← run_added, hadded, List.length_map] at hlength
  exact Nat.le_trans hlength hp.single

end Atomic

end Plan

end ApiSurface
