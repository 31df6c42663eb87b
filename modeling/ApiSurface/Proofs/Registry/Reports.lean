import ApiSurface.Proofs.Registry.Grants

/-!
# What plans report

A plan that is carried out can end with a fault of its own, or with the refusal of one of its
requests.  `p.Ends A F`: the requests have the property `A`, and the fault has the property `F`.
`p.Reports P`: whichever way it ends, a report has the property `P`.
-/

namespace ApiSurface

namespace Registry

/-- **A refusal**, on any registry, is reported at the place of one of the requests, unless that asks
for a predefined enum that does not exist. -/
theorem refused_cases {r : Registry} {qs : List Request} {fault : Fault}
    (h : (r.file qs).refused = some fault) :
    ∃ q ∈ qs, (∃ c, fault = q.place.blame c) ∨
      ∃ key, q.demand = .predefined key ∧ r.predefined? key = none ∧ fault = .missingKey key := by
  obtain ⟨made, q, unmade, fault', rfl, hgrants, hfault, rfl⟩ := exists_refused_of_file h
  refine ⟨q, by simp, ?_⟩
  rcases grant_error_cases hfault with ⟨c, rfl⟩ | ⟨key, hd, hunknown, rfl⟩
  · exact .inl ⟨c, rfl⟩
  · unfold predefined? at hunknown
    rw [hgrants.predefined_eq] at hunknown
    exact .inr ⟨key, hd, hunknown, rfl⟩

theorem place_of_refused {r : Registry} {qs : List Request} {report : Report}
    (h : (r.file qs).refused = some (.report report)) :
    ∃ q ∈ qs, ∃ c, report = q.place.report c := by
  obtain ⟨q, hq, ⟨c, hblame⟩ | ⟨key, -, -, hunknown⟩⟩ := refused_cases h
  · exact ⟨q, hq, c, Fault.report.inj hblame⟩
  · cases hunknown

end Registry

namespace Plan

variable {α β : Type} {P : Report → Prop}

/-- Every request of a plan has one property, and the fault at which it stops, if it does, another. -/
structure Ends (A : Request → Prop) (F : Fault → Prop) (p : Plan α) : Prop where
  asks : ∀ q ∈ p.requests, A q
  failed : ∀ fault, p.outcome = .error fault → F fault

namespace Ends

variable {A : Request → Prop} {F : Fault → Prop}

theorem pure (a : α) : (Pure.pure a : Plan α).Ends A F :=
  ⟨fun _ hq => absurd hq List.not_mem_nil, fun _ h => by cases h⟩

theorem ofExcept {x : Except Fault α} (h : ∀ fault, x = .error fault → F fault) :
    (Plan.ofExcept x).Ends A F :=
  ⟨fun _ hq => absurd hq List.not_mem_nil, h⟩

theorem fail {fault : Fault} (h : F fault) : (Plan.fail fault : Plan α).Ends A F :=
  ofExcept fun _ h' => Except.error.inj h' ▸ h

theorem blame {place : Place} {c : Cause} (h : F (place.blame c)) :
    (Plan.blame place c : Plan α).Ends A F :=
  fail h

theorem lift {place : Place} {x : Except Cause α} (h : ∀ c, x = .error c → F (place.blame c)) :
    (Plan.lift place x).Ends A F := by
  cases x with
  | ok a => exact pure a
  | error c => exact blame (h c rfl)

theorem request {place : Place} {d : Demand} (h : A ⟨d, place⟩) :
    (Plan.request place d).Ends A F := by
  refine ⟨fun q hq => ?_, fun _ h' => by cases h'⟩
  obtain rfl := List.mem_singleton.mp hq
  exact h

theorem bind {p : Plan α} {f : α → Plan β} (hp : p.Ends A F) (hf : ∀ a, (f a).Ends A F) :
    (p >>= f).Ends A F := by
  cases h : p.outcome with
  | error fault =>
    rw [bind_of_error h]
    refine ⟨hp.asks, fun fault' h' => hp.failed fault' ?_⟩
    obtain rfl := Except.error.inj h'
    exact h
  | ok a =>
    rw [bind_of_ok h]
    refine ⟨fun q hq => ?_, (hf a).failed⟩
    exact (List.mem_append.mp hq).elim (hp.asks q) ((hf a).asks q)

theorem forEach {f : α → Plan β} {as : List α} (h : ∀ a ∈ as, (f a).Ends A F) :
    (Plan.forEach f as).Ends A F := by
  induction as with
  | nil => exact pure []
  | cons a as ih =>
    refine (h a List.mem_cons_self).bind fun b => ?_
    exact (ih fun a' ha' => h a' (List.mem_cons_of_mem _ ha')).bind fun bs => pure _

end Ends

/-- Every report of a plan has a property: its own, and those of requests that are refused. -/
structure Reports (P : Report → Prop) (p : Plan α) : Prop where
  refused : ∀ q ∈ p.requests, ∀ c, P (q.place.report c)
  failed : ∀ report, p.outcome = .error (.report report) → P report

namespace Reports

/-- What is asked for at places, and ends in faults, for which every report has the property. -/
theorem of_ends {A : Request → Prop} {F : Fault → Prop} {p : Plan α} (hp : p.Ends A F)
    (hA : ∀ q, A q → ∀ c, P (q.place.report c)) (hF : ∀ report, F (.report report) → P report) :
    p.Reports P :=
  ⟨fun q hq => hA q (hp.asks q hq), fun report h => hF report (hp.failed _ h)⟩

/-- **What comes of a plan**, on any registry, has the property if it is a report. -/
theorem of_run {p : Plan α} (hp : p.Reports P) {r : Registry} {report : Report}
    (h : (p.run r).outcome = .error (.report report)) : P report := by
  cases hrefused : (r.file p.requests).refused with
  | none =>
    simp only [run, hrefused] at h
    exact hp.failed report h
  | some fault =>
    simp only [run, hrefused] at h
    obtain rfl : fault = .report report := Except.error.inj h
    obtain ⟨q, hq, c, rfl⟩ := Registry.place_of_refused hrefused
    exact hp.refused q hq c

end Reports

/-- **Where one plan for each element fails**, the plan of some element fails on the registry that
the plans of the elements before it have left. -/
theorem run_forEach_error {f : α → Plan β} {as : List α} {r : Registry} {fault : Fault}
    (h : ((forEach f as).run r).outcome = .error fault) :
    ∃ before a after bs, as = before ++ a :: after ∧
      ((forEach f before).run r).outcome = .ok bs ∧
      ((f a).run ((forEach f before).run r).registry).outcome = .error fault := by
  induction as generalizing r with
  | nil => cases h
  | cons a as ih =>
    rw [forEach_cons, run_bind] at h
    cases hfirst : ((f a).run r).outcome with
    | error fault' =>
      rw [hfirst] at h
      obtain rfl : fault' = fault := Except.error.inj h
      exact ⟨[], a, as, [], rfl, rfl, hfirst⟩
    | ok b =>
      simp only [hfirst] at h
      rw [run_bind] at h
      cases hlater : ((forEach f as).run ((f a).run r).registry).outcome with
      | ok bs =>
        simp only [hlater] at h
        cases h
      | error fault' =>
        simp only [hlater] at h
        obtain rfl : fault' = fault := Except.error.inj h
        obtain ⟨before, a', after, bs, rfl, hbefore, hfail⟩ := ih hlater
        have hreg : ((forEach f (a :: before)).run r).registry =
            ((forEach f before).run ((f a).run r).registry).registry := by
          rw [forEach_cons, run_bind, hfirst]
          simp only
          rw [run_bind, hbefore]
          rfl
        refine ⟨a :: before, a', after, b :: bs, rfl, ?_, hreg ▸ hfail⟩
        rw [forEach_cons, run_bind, hfirst]
        simp only
        rw [run_bind, hbefore]
        rfl

theorem run_bind_pure_error_iff {p : Plan α} {g : α → β} {r : Registry} {fault : Fault} :
    ((p >>= fun a => Pure.pure (g a)).run r).outcome = .error fault ↔
      (p.run r).outcome = .error fault := by
  rw [run_bind_pure]
  cases (p.run r).outcome <;> simp [Except.map]

/-- **One plan for each element fails** if and only if the plan of some element fails on the registry
that the plans of the elements before it have left, and those succeed. -/
theorem run_forEach_error_iff {f : α → Plan β} {as : List α} {r : Registry} {fault : Fault} :
    ((forEach f as).run r).outcome = .error fault ↔
      ∃ before a after bs, as = before ++ a :: after ∧
        ((forEach f before).run r).outcome = .ok bs ∧
        ((f a).run ((forEach f before).run r).registry).outcome = .error fault := by
  refine ⟨run_forEach_error, ?_⟩
  rintro ⟨before, a, after, bs, rfl, hbefore, hfail⟩
  induction before generalizing r bs with
  | nil =>
    have hfirst : ((f a).run r).outcome = .error fault := hfail
    rw [List.nil_append, forEach_cons, run_bind, hfirst]
  | cons a' before ih =>
    rw [forEach_cons, run_bind] at hbefore hfail
    rw [List.cons_append, forEach_cons, run_bind]
    cases hfirst : ((f a').run r).outcome with
    | error fault' =>
      rw [hfirst] at hbefore
      cases hbefore
    | ok b =>
      simp only [hfirst, run_bind] at hbefore hfail ⊢
      cases hlater : ((forEach f before).run ((f a').run r).registry).outcome with
      | error fault' =>
        simp only [hlater] at hbefore
        cases hbefore
      | ok bs' =>
        simp only [hlater] at hfail
        rw [ih _ hlater hfail]

end Plan

end ApiSurface
