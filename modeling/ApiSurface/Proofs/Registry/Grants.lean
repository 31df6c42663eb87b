import ApiSurface.Proofs.Registry.Filing

/-!
# Requests up to the first that is refused

Filing a list of requests grants them one after the other, up to the first that is refused.  What comes of
the list is so what comes of single demands.
-/

namespace ApiSurface

namespace Registry

/-- **Registrations that are all accepted**, with the registry before and after them. -/
inductive Grants : Registry → List Demand → Registry → Prop
  | nil {r : Registry} : Grants r [] r
  | cons {r r' r'' : Registry} {d : Demand} {ds : List Demand} {isNew : Bool}
    (h : r.grant d = .ok (isNew, r')) (hrest : Grants r' ds r'') : Grants r (d :: ds) r''

variable {r r' r'' : Registry} {d : Demand} {ds ds' : List Demand}

namespace Grants

theorem append (h : r.Grants ds r') (h' : r'.Grants ds' r'') : r.Grants (ds ++ ds') r'' := by
  induction h with
  | nil => exact h'
  | cons hgrant _ ih => exact .cons hgrant (ih h')

theorem exists_push (h : r.Grants ds r') : ∃ es, r' = r.push es := by
  induction h with
  | nil => exact ⟨[], by simp⟩
  | cons hgrant _ ih =>
    obtain ⟨es, rfl⟩ := ih
    obtain ⟨e, -, ⟨-, -, rfl⟩ | ⟨-, -, rfl⟩⟩ := (grant_ok_iff (isOpen_of_grant hgrant)).mp hgrant
    · exact ⟨e :: es, by simp⟩
    · exact ⟨es, rfl⟩

theorem predefined_eq (h : r.Grants ds r') : r'.predefined = r.predefined := by
  obtain ⟨es, rfl⟩ := h.exists_push
  rw [push_predefined]

theorem closed_eq (h : r.Grants ds r') : r'.closed = r.closed := by
  obtain ⟨es, rfl⟩ := h.exists_push
  rw [push_closed]

end Grants

/-! ### Requests one after the other -/

theorem file_cons_of_grant {q : Request} {isNew : Bool} (h : r.grant q.demand = .ok (isNew, r'))
    (qs : List Request) : (r.file (q :: qs)).registry = (r'.file qs).registry ∧
      (r.file (q :: qs)).refused = (r'.file qs).refused := by
  cases isNew <;> simp [file, h]

/-- **Requests that are not refused** are all granted. -/
theorem grants_of_file {qs : List Request} (h : (r.file qs).refused = none) :
    r.Grants (qs.map (·.demand)) (r.file qs).registry := by
  induction qs generalizing r with
  | nil => exact .nil
  | cons q qs ih =>
    cases hg : r.grant q.demand with
    | error fault => simp [file, hg] at h
    | ok granted =>
      obtain ⟨isNew, r'⟩ := granted
      obtain ⟨hregistry, hrefused⟩ := file_cons_of_grant hg qs
      rw [hregistry]
      exact .cons hg (ih (hrefused ▸ h))

/-- **Requests of which one is refused**: those before it are granted, and it changes nothing. -/
theorem exists_refused_of_file {qs : List Request} {fault : Fault}
    (h : (r.file qs).refused = some fault) : ∃ made q unmade fault', qs = made ++ q :: unmade ∧
      r.Grants (made.map (·.demand)) (r.file qs).registry ∧
      (r.file qs).registry.grant q.demand = .error fault' ∧ fault = refusal q.place fault' := by
  induction qs generalizing r with
  | nil => cases h
  | cons q qs ih =>
    cases hg : r.grant q.demand with
    | error fault' =>
      have hfile : r.file (q :: qs) = ⟨[], some (refusal q.place fault'), r⟩ := by simp [file, hg]
      rw [hfile] at h ⊢
      exact ⟨[], q, qs, fault', rfl, .nil, hg, (Option.some.inj h).symm⟩
    | ok granted =>
      obtain ⟨isNew, r'⟩ := granted
      obtain ⟨hregistry, hrefused⟩ := file_cons_of_grant hg qs
      obtain ⟨made, q', unmade, fault', rfl, hgrants, hfault', hfault⟩ := ih (hrefused ▸ h)
      rw [hregistry]
      exact ⟨q :: made, q', unmade, fault', rfl, .cons hg hgrants, hfault', hfault⟩

/-! ### Refusals -/

/-- **A demand that is refused** meets a registration that fails, or it names a predefined enum that does
not exist. -/
theorem grant_error_cases {fault : Fault} (h : r.grant d = .error fault) :
    (∃ c, fault = .ofCause c) ∨
      ∃ key, d = .predefined key ∧ r.predefined? key = none ∧ fault = .missingKey key := by
  cases hd : d.pair? r.predefined with
  | none =>
    obtain rfl := Except.error.inj ((grant_of_unknown hd).symm.trans h)
    cases d with
    | shape key shape => cases hd
    | predefined key => exact .inr ⟨key, rfl, Option.map_eq_none_iff.mp hd, rfl⟩
  | some e =>
    rw [grant_eq_register hd] at h
    cases hregister : r.register e.1 e.2 with
    | ok granted =>
      rw [hregister] at h
      cases h
    | error c =>
      rw [hregister] at h
      exact .inl ⟨c, (Except.error.inj h).symm⟩

/-- Requests without a place are refused with the fault that the registry gives. -/
theorem refusal_of_grant {fault : Fault} (h : r.grant d = .error fault) :
    refusal {} fault = fault := by
  rcases grant_error_cases h with ⟨c, rfl⟩ | ⟨key, -, -, rfl⟩
  · rfl
  · rfl

end Registry

end ApiSurface
