import ApiSurface.Proofs.Registry.Extension
import ApiSurface.Proofs.Registry.Reports

/-!
# How plans fail

On a registry that takes registrations and knows every predefined enum that is asked for, a plan
fails in two ways: one of its requests finds its name taken, or it ends with a fault of its own.
`p.FailsIn predefined F`: the plan asks for nothing unknown, and whichever way it fails, the fault has
the property `F`.
-/

namespace ApiSurface

/-- The fault is a report of one of some categories. -/
def Fault.ReportsOf (categories : List Category) (fault : Fault) : Prop :=
  ∃ report, fault = .report report ∧ report.cause.category ∈ categories

theorem Fault.ReportsOf.mono {categories categories' : List Category} {fault : Fault}
    (h : fault.ReportsOf categories) (hsub : categories ⊆ categories') :
    fault.ReportsOf categories' := by
  obtain ⟨report, rfl, hcategory⟩ := h
  exact ⟨report, rfl, hsub hcategory⟩

theorem Place.category_report (place : Place) (c : Cause) :
    (place.report c).cause.category = c.category := by
  obtain ⟨owner, member, argument⟩ := place
  cases argument <;> rfl

theorem Place.reportsOf_blame {place : Place} {c : Cause} {categories : List Category}
    (h : c.category ∈ categories) : (place.blame c).ReportsOf categories :=
  ⟨place.report c, rfl, place.category_report c ▸ h⟩

theorem Registry.closed_file (r : Registry) (qs : List Request) :
    (r.file qs).registry.closed = r.closed := by
  obtain ⟨es, hreg, -⟩ := r.file_extends qs
  rw [hreg, push_closed]

/-- **A refusal** on a registry that is open, and knows what is asked for, is that of a name that is
taken. -/
theorem Registry.refused_eq {r : Registry} (hopen : r.closed = false) {qs : List Request}
    (hknown : ∀ q ∈ qs, (q.demand.pair? r.predefined).isSome = true) {fault : Fault}
    (h : (r.file qs).refused = some fault) :
    ∃ q ∈ qs, ∃ key present added, fault = q.place.blame (.nameTaken key present added) := by
  obtain ⟨made, q, unmade, fault', rfl, hgrants, hfault, rfl⟩ := exists_refused_of_file h
  have hq : q ∈ made ++ q :: unmade := by simp
  obtain ⟨e, he⟩ := Option.isSome_iff_exists.mp (hknown q hq)
  rw [← hgrants.predefined_eq] at he
  rw [grant_of_open (hgrants.closed_eq.trans hopen) he] at hfault
  split at hfault
  · cases hfault
  split at hfault
  · cases hfault
  · obtain rfl := Except.error.inj hfault
    exact ⟨q, hq, _, _, _, rfl⟩

namespace Plan

variable {α : Type} {predefined : List (String × List String)} {F : Fault → Prop}

/-- The request is for something known, and the fault has the property if its name is taken. -/
def Known (predefined : List (String × List String)) (F : Fault → Prop) (q : Request) : Prop :=
  (q.demand.pair? predefined).isSome = true ∧
    ∀ key present added, F (q.place.blame (.nameTaken key present added))

/-- The plan asks for nothing unknown, and every fault of it has a property: its own, and those of
requests whose name is taken. -/
abbrev FailsIn (predefined : List (String × List String)) (F : Fault → Prop) (p : Plan α) : Prop :=
  p.Ends (Known predefined F) F

theorem FailsIn.mono {p : Plan α} {G : Fault → Prop} (hp : p.FailsIn predefined F)
    (h : ∀ fault, F fault → G fault) : p.FailsIn predefined G :=
  ⟨fun q hq => (hp.asks q hq).imp_right fun hF key present added => h _ (hF key present added),
    fun fault hfault => h _ (hp.failed fault hfault)⟩

/-- **What comes of a plan**, on a registry that takes registrations, has the property if it is a
fault. -/
theorem FailsIn.of_run {p : Plan α} (hp : p.FailsIn predefined F) {r : Registry}
    (hopen : r.closed = false) (hr : r.predefined = predefined) {fault : Fault}
    (h : (p.run r).outcome = .error fault) : F fault := by
  cases hrefused : (r.file p.requests).refused with
  | none =>
    simp only [run, hrefused] at h
    exact hp.failed fault h
  | some fault' =>
    simp only [run, hrefused] at h
    obtain rfl : fault' = fault := Except.error.inj h
    subst hr
    obtain ⟨q, hq, key, present, added, rfl⟩ :=
      Registry.refused_eq hopen (fun q hq => (hp.asks q hq).1) hrefused
    exact (hp.asks q hq).2 key present added

theorem run_closed (p : Plan α) (r : Registry) : (p.run r).registry.closed = r.closed := by
  rw [run_registry, Registry.closed_file]

theorem run_predefined (p : Plan α) (r : Registry) :
    (p.run r).registry.predefined = r.predefined := by
  rw [run_registry, Registry.predefined_file]

end Plan

end ApiSurface
