import ApiSurface.Proofs.Registry.Filing
import ApiSurface.Registry.Visit

/-!
# Plans that are cut short

A rule that only rejects makes a plan stop where it would have gone on, and changes nothing before.
`p.CutShort Stop q`: the plan `p` is the plan `q`, or it makes some of the first requests of `q` and
then stops at a fault of the kind `Stop`.
-/

namespace ApiSurface

variable {Stop : Fault → Prop} {α β : Type}

namespace Plan

/-- The plan is another one, or it stops earlier, at a fault of some kind. -/
inductive CutShort (Stop : Fault → Prop) (p q : Plan α) : Prop
  | same (h : p = q)
  | stopped {fault : Fault} (hrequests : p.requests <+: q.requests)
    (houtcome : p.outcome = .error fault) (hstop : Stop fault)

namespace CutShort

theorem refl (p : Plan α) : p.CutShort Stop p := .same rfl

/-- One plan after another: the first may stop early, or else the second. -/
theorem bind {p q : Plan α} {f g : α → Plan β} (h : p.CutShort Stop q)
    (hfg : ∀ a, (f a).CutShort Stop (g a)) : (p >>= f).CutShort Stop (q >>= g) := by
  cases h with
  | same h =>
    subst h
    cases hout : p.outcome with
    | error fault => exact .same (by rw [bind_of_error hout, bind_of_error hout])
    | ok a =>
      rw [bind_of_ok hout, bind_of_ok hout]
      cases hfg a with
      | same hsame => exact .same (by rw [hsame])
      | stopped hrequests houtcome hstop =>
        exact .stopped ((List.prefix_append_right_inj _).mpr hrequests) houtcome hstop
  | stopped hrequests houtcome hstop =>
    -- what `q` goes on to do only adds to its requests
    have hlater : q.requests <+: (q >>= g).requests := by
      cases hout : q.outcome with
      | error fault =>
        refine ⟨[], ?_⟩
        rw [List.append_nil, bind_of_error hout]
      | ok a =>
        rw [bind_of_ok hout]
        exact List.prefix_append _ _
    rw [bind_of_error houtcome]
    exact .stopped (hrequests.trans hlater) rfl hstop

theorem forEach {f g : α → Plan β} (hfg : ∀ a, (f a).CutShort Stop (g a)) (as : List α) :
    (forEach f as).CutShort Stop (forEach g as) := by
  induction as with
  | nil => exact refl _
  | cons a as ih => exact bind (hfg a) fun b => bind ih fun bs => refl _

/-- **Carried out on a registry**, a plan that is cut short comes to the same, or to a fault of the
kind. -/
theorem run {p q : Plan α} (h : p.CutShort Stop q) (r : Registry) :
    p.run r = q.run r ∨ ∃ fault, (p.run r).outcome = .error fault ∧ Stop fault := by
  cases h with
  | same h => exact .inl (h ▸ rfl)
  | @stopped fault hrequests houtcome hstop =>
    obtain ⟨later, hlater⟩ := hrequests
    cases hrefused : (r.file p.requests).refused with
    | some refusal =>
      have hfile : r.file q.requests = r.file p.requests := by
        rw [← hlater, Registry.file_append, hrefused]
        simp only
        rw [← hrefused]
      exact .inl (by simp [Plan.run, hfile, hrefused])
    | none => exact .inr ⟨fault, by simp [Plan.run, hrefused, houtcome], hstop⟩

end CutShort

end Plan

namespace Registry

theorem singleton_prefix_visited {body : String → Shape → Plan α} {bound i : Nat} {r : Registry}
    {e : String × Shape} (he : r.entries[i]? = some e) :
    [e] <+: (visitFrom body (bound + 1) i r).visited := by
  obtain ⟨key, shape⟩ := e
  unfold visitFrom
  rw [he]
  simp only
  cases ((body key shape).run r).outcome with
  | error fault => exact List.prefix_refl _
  | ok a => exact ⟨_, rfl⟩

/-- **A visit with plans that are cut short** is the same visit, or it ends at a fault of the kind
after some of the same entries. -/
theorem visitFrom_cutShort {body body' : String → Shape → Plan α}
    (h : ∀ key shape, (body key shape).CutShort Stop (body' key shape)) (bound i : Nat)
    (r : Registry) :
    visitFrom body bound i r = visitFrom body' bound i r ∨
      ∃ fault, (visitFrom body bound i r).ending = .failed fault ∧ Stop fault ∧
        (visitFrom body bound i r).visited <+: (visitFrom body' bound i r).visited := by
  induction bound generalizing i r with
  | zero =>
    unfold visitFrom
    cases r.entries[i]? <;> exact .inl rfl
  | succ bound ih =>
    cases he : r.entries[i]? with
    | none =>
      unfold visitFrom
      exact .inl (by rw [he])
    | some e =>
      have hfirst : [e] <+: (visitFrom body' (bound + 1) i r).visited :=
        singleton_prefix_visited he
      obtain ⟨key, shape⟩ := e
      unfold visitFrom at hfirst ⊢
      simp only [he] at hfirst ⊢
      rcases (h key shape).run r with hsame | ⟨fault, hout, hstop⟩
      · rw [hsame]
        cases ((body' key shape).run r).outcome with
        | error fault => exact .inl rfl
        | ok a =>
          simp only
          rcases ih (i + 1) ((body' key shape).run r).registry with
            hsame | ⟨fault, hend, hstop, hvisited⟩
          · exact .inl (by rw [hsame])
          · exact .inr ⟨fault, hend, hstop, List.cons_prefix_cons.mpr ⟨rfl, hvisited⟩⟩
      · rw [hout]
        exact .inr ⟨fault, rfl, hstop, hfirst⟩

end Registry

end ApiSurface
