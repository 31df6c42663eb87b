import ApiSurface.Api.Weight
import ApiSurface.Proofs.Registry.Filing
import ApiSurface.Registry.Visit

/-!
# The walk over a growing registry

`Walk body i r v` is the loop without a bound: from position `i` of the registry `r` on, it carries
out the plan of each entry, also of those added on the way, and ends as `v`.  A derivation of it is
finite, so it says that the loop ends.

The loop does end if every plan asks for less than the weight of its entry: the entry at the position
leaves, what its plan adds weighs less, so the weight of what is left falls in every step.
-/

namespace ApiSurface

/-- The weight of some entries together. -/
def entriesWeight (es : List (String × Shape)) : Nat := es.foldr (fun e n => e.2.weight + n) 0

@[simp] theorem entriesWeight_nil : entriesWeight [] = 0 := rfl

@[simp] theorem entriesWeight_cons (e : String × Shape) (es : List (String × Shape)) :
    entriesWeight (e :: es) = e.2.weight + entriesWeight es := rfl

@[simp] theorem entriesWeight_append (es es' : List (String × Shape)) :
    entriesWeight (es ++ es') = entriesWeight es + entriesWeight es' := by
  induction es with
  | nil => rw [List.nil_append, entriesWeight_nil, Nat.zero_add]
  | cons e es ih => rw [List.cons_append, entriesWeight_cons, entriesWeight_cons, ih, Nat.add_assoc]

theorem entriesWeight_le_of_sublist {es es' : List (String × Shape)} (h : es.Sublist es') :
    entriesWeight es ≤ entriesWeight es' := by
  induction h with
  | slnil => exact Nat.le_refl _
  | cons e _ ih => exact Nat.le_trans ih (Nat.le_add_left _ _)
  | cons_cons e _ ih => exact Nat.add_le_add_left ih _

/-- The weight of the entries that some demands stand for. -/
def demandsWeight (predefined : List (String × List String)) (ds : List Demand) : Nat :=
  entriesWeight (ds.filterMap (·.pair? predefined))

@[simp] theorem demandsWeight_nil (predefined : List (String × List String)) :
    demandsWeight predefined [] = 0 := rfl

@[simp] theorem demandsWeight_append (predefined : List (String × List String))
    (ds ds' : List Demand) :
    demandsWeight predefined (ds ++ ds') =
      demandsWeight predefined ds + demandsWeight predefined ds' := by
  simp [demandsWeight, List.filterMap_append]

theorem demandsWeight_singleton (predefined : List (String × List String)) (d : Demand) :
    demandsWeight predefined [d] = entriesWeight (d.pair? predefined).toList := by
  unfold demandsWeight
  cases h : d.pair? predefined <;> simp [h]

theorem entriesWeight_requested (predefined : List (String × List String)) (qs : List Request) :
    entriesWeight (requested predefined qs) = demandsWeight predefined (qs.map (·.demand)) := by
  unfold requested demandsWeight
  rw [List.filterMap_map]
  rfl

theorem Shape.one_le_weight (s : Shape) : 1 ≤ s.weight := by
  cases s with
  | object properties => exact Nat.le_add_left 1 _
  | enum values => exact Nat.le_refl 1

namespace Registry

theorem weight_eq_entriesWeight (r : Registry) : r.weight = entriesWeight r.entries := rfl

variable {α : Type} {body : String → Shape → Plan α}

/-- The loop over the entries from a position on, which has no bound. -/
inductive Walk (body : String → Shape → Plan α) : Nat → Registry → Visit α → Prop
  /-- No entry is left. -/
  | done {i : Nat} {r : Registry} (hnone : r.entries[i]? = none) :
    Walk body i r ⟨[], [], .complete, r⟩
  /-- The plan of the entry fails. -/
  | stop {i : Nat} {r : Registry} {e : String × Shape} {fault : Fault}
    (hget : r.entries[i]? = some e) (hrun : ((body e.1 e.2).run r).outcome = .error fault) :
    Walk body i r ⟨[e], [], .failed fault, ((body e.1 e.2).run r).registry⟩
  /-- The plan of the entry succeeds, and the loop goes on. -/
  | step {i : Nat} {r : Registry} {e : String × Shape} {a : α} {later : Visit α}
    (hget : r.entries[i]? = some e) (hrun : ((body e.1 e.2).run r).outcome = .ok a)
    (hlater : Walk body (i + 1) ((body e.1 e.2).run r).registry later) :
    Walk body i r { later with visited := e :: later.visited, results := a :: later.results }

theorem Walk.unique {i : Nat} {r : Registry} {v v' : Visit α} (h : Walk body i r v)
    (h' : Walk body i r v') : v = v' := by
  induction h generalizing v' with
  | done hnone =>
    cases h' with
    | done => rfl
    | stop hget => rw [hnone] at hget; cases hget
    | step hget => rw [hnone] at hget; cases hget
  | stop hget hrun =>
    cases h' with
    | done hnone => rw [hget] at hnone; cases hnone
    | stop hget' hrun' =>
      obtain rfl := Option.some.inj (hget.symm.trans hget')
      rw [hrun] at hrun'
      cases hrun'
      rfl
    | step hget' hrun' =>
      obtain rfl := Option.some.inj (hget.symm.trans hget')
      rw [hrun] at hrun'
      cases hrun'
  | step hget hrun _ ih =>
    cases h' with
    | done hnone => rw [hget] at hnone; cases hnone
    | stop hget' hrun' =>
      obtain rfl := Option.some.inj (hget.symm.trans hget')
      rw [hrun] at hrun'
      cases hrun'
    | step hget' hrun' hlater' =>
      obtain rfl := Option.some.inj (hget.symm.trans hget')
      rw [hrun] at hrun'
      cases hrun'
      rw [ih hlater']

theorem Walk.ending_ne_unfinished {i : Nat} {r : Registry} {v : Visit α} (h : Walk body i r v) :
    v.ending ≠ .unfinished := by
  induction h with
  | done => simp
  | stop => simp
  | step _ _ _ ih => exact ih

/-! ### The bounded visit -/

theorem walk_visitFrom {bound i : Nat} {r : Registry}
    (h : (visitFrom body bound i r).ending ≠ .unfinished) :
    Walk body i r (visitFrom body bound i r) := by
  induction bound generalizing i r with
  | zero =>
    unfold visitFrom at h ⊢
    cases hget : r.entries[i]? with
    | none => exact .done hget
    | some e => simp [hget] at h
  | succ bound ih =>
    unfold visitFrom at h ⊢
    cases hget : r.entries[i]? with
    | none => exact .done hget
    | some e =>
      simp only [hget] at h ⊢
      cases hrun : ((body e.1 e.2).run r).outcome with
      | error fault => exact .stop hget hrun
      | ok a =>
        simp only [hrun] at h
        exact .step hget hrun (ih h)

theorem visitFrom_visited_length_le (bound i : Nat) (r : Registry) :
    (visitFrom body bound i r).visited.length ≤ bound := by
  induction bound generalizing i r with
  | zero =>
    unfold visitFrom
    cases r.entries[i]? <;> simp
  | succ bound ih =>
    unfold visitFrom
    cases r.entries[i]? with
    | none => simp
    | some e =>
      simp only
      cases ((body e.1 e.2).run r).outcome with
      | error fault => simp
      | ok a => simpa using ih (i + 1) _

/-- Every plan that succeeds asks for less than the weight of its entry. -/
def Thrifty (predefined : List (String × List String)) (body : String → Shape → Plan α) : Prop :=
  ∀ key shape qs a, (body key shape).Yields qs a →
    entriesWeight (requested predefined qs) + 1 ≤ shape.weight

/-- **The walk ends.**  The weight of the entries that are left bounds the steps to come. -/
theorem visitFrom_ending_ne_unfinished {bound i : Nat} {r : Registry} (hs : r.Sound)
    (hbody : Thrifty r.predefined body) (hb : entriesWeight (r.entries.drop i) ≤ bound) :
    (visitFrom body bound i r).ending ≠ .unfinished := by
  induction bound generalizing i r with
  | zero =>
    unfold visitFrom
    cases hget : r.entries[i]? with
    | none => simp
    | some e =>
      obtain ⟨hi, rfl⟩ := List.getElem?_eq_some_iff.mp hget
      rw [List.drop_eq_getElem_cons hi, entriesWeight_cons] at hb
      have hpos := Shape.one_le_weight r.entries[i].2
      omega
  | succ bound ih =>
    unfold visitFrom
    cases hget : r.entries[i]? with
    | none => simp
    | some e =>
      simp only
      cases hrun : ((body e.1 e.2).run r).outcome with
      | error fault => simp
      | ok a =>
        simp only
        obtain ⟨href, hout⟩ := Plan.run_ok_iff.mp hrun
        obtain ⟨es, hsub, hreg, -, hs', -⟩ := file_ok hs href
        have hthrift := hbody e.1 e.2 _ a ⟨rfl, hout⟩
        have hes := entriesWeight_le_of_sublist hsub
        obtain ⟨hi, rfl⟩ := List.getElem?_eq_some_iff.mp hget
        rw [List.drop_eq_getElem_cons hi, entriesWeight_cons] at hb
        have hle : i + 1 ≤ r.entries.length := hi
        rw [Plan.run_registry, hreg]
        refine ih hs' hbody ?_
        rw [push_entries, List.drop_append_of_le_length hle, entriesWeight_append]
        omega

/-! ### Complete walks -/

/-- **A complete walk** only appends entries, visits all entries from its position on, those it
appends included, and finds every request of their plans among the entries. -/
theorem Walk.complete {i : Nat} {r : Registry} {v : Visit α} (h : Walk body i r v) (hs : r.Sound)
    (hc : v.ending = .complete) :
    ∃ es, v.registry = r.push es ∧ (r.push es).Sound ∧ v.visited = (r.push es).entries.drop i ∧
      List.Forall₂ (fun e a => ∃ qs, (body e.1 e.2).Yields qs a ∧
        Covers r.predefined (r.push es).table qs) v.visited v.results := by
  induction h with
  | done hnone =>
    refine ⟨[], by simp, by simpa using hs, ?_, .nil⟩
    rw [push_nil, List.drop_of_length_le (List.getElem?_eq_none_iff.mp hnone)]
  | stop => simp at hc
  | @step i r e a later hget hrun hlater ih =>
    obtain ⟨href, hout⟩ := Plan.run_ok_iff.mp hrun
    obtain ⟨es, -, hreg, -, hs', hall⟩ := file_ok hs href
    rw [Plan.run_registry, hreg] at ih
    obtain ⟨es', hreg', hs'', hvis, hres⟩ := ih hs' hc
    rw [push_push] at hreg' hs'' hvis hres
    obtain ⟨hi, rfl⟩ := List.getElem?_eq_some_iff.mp hget
    have hi' : i < (r.push (es ++ es')).entries.length := by
      rw [push_entries, List.length_append]
      omega
    refine ⟨es ++ es', hreg', hs'', ?_, .cons ⟨_, ⟨rfl, hout⟩, ?_⟩ hres⟩
    · rw [List.drop_eq_getElem_cons hi', ← hvis]
      simp [List.getElem_append_left hi]
    · rw [← push_push]
      exact hall.mono (table_subset_push _ _)

theorem Walk.drain_eq {i : Nat} {r : Registry} {v : Visit α} (h : Walk body i r v) (hs : r.Sound)
    (hc : v.ending = .complete) : v.registry.drain =
      .ok (v.registry.entries, { v.registry with entries := [], closed := true }) := by
  obtain ⟨es, hreg, hs', -, -⟩ := h.complete hs hc
  unfold drain
  rw [if_neg (by rw [hreg, hs'.isOpen]; simp)]

/-- **A walk whose plans succeed and stay in a consistent table** is complete and stays in it. -/
theorem Walk.completes {i : Nat} {r : Registry} {v : Visit α} (h : Walk body i r v) (hs : r.Sound)
    {S : Set (String × Shape)} (hS : Consistent S) (hr : r.table ⊆ S)
    (hbody : ∀ e ∈ S, ∃ qs a, (body e.1 e.2).Yields qs a ∧ Covers r.predefined S qs) :
    v.ending = .complete ∧ v.registry.table ⊆ S := by
  induction h with
  | done => exact ⟨rfl, hr⟩
  | @stop i r e fault hget hrun =>
    obtain ⟨qs, a, ⟨rfl, hout⟩, hqs⟩ := hbody e (hr (List.mem_of_getElem? hget))
    have hok := Plan.run_ok_iff.mpr ⟨file_granted hs hS hr hqs, hout⟩
    rw [hrun] at hok
    cases hok
  | @step i r e a later hget hrun hlater ih =>
    obtain ⟨href, hout⟩ := Plan.run_ok_iff.mp hrun
    obtain ⟨es, hsub, hreg, -, hs', -⟩ := file_ok hs href
    obtain ⟨qs, a', ⟨rfl, -⟩, hqs⟩ := hbody e (hr (List.mem_of_getElem? hget))
    rw [Plan.run_registry, hreg] at ih
    refine ih hs' ?_ hbody
    intro x hx
    rcases List.mem_append.mp hx with hx | hx
    · exact hr hx
    · exact hqs.mem (hsub.subset hx)

end Registry

end ApiSurface
