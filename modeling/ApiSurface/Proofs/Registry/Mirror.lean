import ApiSurface.Proofs.Fallible
import ApiSurface.Proofs.Registry.Extension
import ApiSurface.Registry.Store
import Mathlib.Data.List.Nodup

/-!
# The two structures of a store stay in step

A store mirrors a registry if its list has the names of the registry in their order, and its dictionary
has their shapes.  Each operation preserves this, so the names of the list are those of the dictionary
after any run, and looking them up never fails.
-/

namespace ApiSurface

/-! ### Dictionaries -/

theorem lookup_assign {α : Type} (key : String) (a : α) (d : List (String × α)) (k : String) :
    (assign key a d).lookup k = if k = key then some a else d.lookup k := by
  induction d with
  | nil => exact lookup_singleton (key, a) k
  | cons p d ih =>
    obtain ⟨name, b⟩ := p
    rw [assign]
    by_cases hname : name = key
    · subst hname
      by_cases hk : k = name
      · simp [hk]
      · have hb : (k == name) = false := by simpa using hk
        rw [if_pos rfl, List.lookup_cons, hb, if_neg hk, List.lookup_cons, hb]
    · rw [if_neg hname, List.lookup_cons, ih, List.lookup_cons]
      by_cases hk : k = name
      · simp [hk, hname]
      · have hb : (k == name) = false := by simpa using hk
        rw [hb]

theorem lookup_foldl_assign {α : Type} (ps d : List (String × α)) (k : String) :
    (ps.foldl (fun d p => assign p.1 p.2 d) d).lookup k =
      (ps.reverse.lookup k).or (d.lookup k) := by
  induction ps generalizing d with
  | nil => rfl
  | cons p ps ih =>
    rw [List.foldl_cons, ih, lookup_assign, List.reverse_cons, List.lookup_append, lookup_singleton,
      Option.or_assoc]
    by_cases hk : k = p.1 <;> simp [hk]

namespace Store

/-- A store has the names of a registry in their order, and their shapes. -/
structure Mirrors (s : Store) (r : Registry) : Prop where
  order : s.order = r.keys
  nodup : r.keys.Nodup
  get : ∀ key, s.get? key = r.get? key
  predefined : ∀ key, s.predefined.lookup key = r.predefined? key
  closed : s.closed = r.closed

/-- An operation on a store does what the operation on the registry does; one that fails leaves the
store as it is. -/
def Follows {α : Type} (s : Store) (x : Except Fault α × Store) :
    Except Fault (α × Registry) → Prop
  | .ok (a, r) => x.1 = .ok a ∧ x.2.Mirrors r
  | .error fault => x = (.error fault, s)

variable {s : Store} {r : Registry}

theorem mirrors_empty (predefined : List (String × List String)) :
    (empty predefined).Mirrors (.empty predefined) :=
  ⟨rfl, List.nodup_nil, fun _ => rfl, fun key => (lookup_foldl_assign predefined [] key).trans
    (Option.or_none), rfl⟩

/-- **In step**: the names of the list are those of the dictionary. -/
theorem Mirrors.mem_order_iff (h : s.Mirrors r) {key : String} :
    key ∈ s.order ↔ s.contains key = true := by
  rw [h.order, contains, h.get, ← not_iff_not, Bool.not_eq_true, Option.isSome_eq_false_iff,
    Option.isNone_iff_eq_none]
  exact Registry.get?_eq_none_iff.symm

theorem Mirrors.size_eq (h : s.Mirrors r) : s.size = r.size := by
  rw [size, h.order, Registry.keys, List.length_map, Registry.size]

/-- No name of the list is missing in the dictionary. -/
theorem Mirrors.entry_eq (h : s.Mirrors r) {e : String × Shape} (he : e ∈ r.entries) :
    s.entry e.1 = .ok e := by
  have hget : r.get? e.1 = some e.2 := (lookup_eq_some_iff_mem h.nodup).mpr he
  unfold entry
  rw [h.get, hget]

/-! ### Operations -/

theorem Mirrors.register (h : s.Mirrors r) (key : String) (shape : Shape) :
    s.Follows (s.register key shape) ((r.register key shape).mapError .ofCause) := by
  unfold Store.register Registry.register
  rw [h.closed, h.get]
  by_cases hclosed : r.closed = true
  · simp only [hclosed, if_true]
    rfl
  · simp only [hclosed]
    cases hget : r.get? key with
    | none =>
      have hkeys := Registry.push_keys r [(key, shape)]
      have hnew : key ∉ r.keys := Registry.get?_eq_none_iff.mp hget
      refine ⟨rfl, ?_, ?_, fun k => ?_, h.predefined, rfl⟩
      · exact (congrArg (· ++ [key]) h.order).trans hkeys.symm
      · exact hkeys ▸ h.nodup.append (List.nodup_singleton key) (List.disjoint_singleton.mpr hnew)
      · -- the name is new, so it is found at the end
        have hold := Registry.get?_push r [(key, shape)] k
        rw [lookup_singleton] at hold
        refine (lookup_assign key shape s.entries k).trans (Eq.trans ?_ hold.symm)
        by_cases hk : k = key
        · rw [hk, if_pos rfl, if_pos rfl, hget, Option.none_or]
        · rw [if_neg hk, if_neg hk, Option.or_none]
          exact h.get k
    | some present =>
      by_cases hsame : present = shape
      · simp only [hsame, if_true]
        exact ⟨rfl, h⟩
      · simp only [hsame, if_false]
        rfl

theorem Mirrors.grant (h : s.Mirrors r) (d : Demand) : s.Follows (s.grant d) (r.grant d) := by
  cases d with
  | shape key shape => exact h.register key shape
  | predefined key =>
    show s.Follows (s.usePredefined key) (r.usePredefined key)
    unfold usePredefined Registry.usePredefined
    rw [h.predefined]
    cases r.predefined? key with
    | none => rfl
    | some values => exact h.register key (.enum values)

/-- **Draining** finds every name of the list in the dictionary. -/
theorem Mirrors.drain (h : s.Mirrors r) :
    s.Follows s.drain (r.drain.mapError .ofCause) := by
  unfold Store.drain Registry.drain
  rw [h.closed]
  by_cases hclosed : r.closed = true
  · simp only [hclosed, if_true]
    rfl
  · have hentries : s.order.mapM s.entry = .ok r.entries := by
      rw [h.order, Registry.keys]
      exact mapM_map_eq_ok fun e he => h.entry_eq he
    simp only [hclosed, hentries]
    exact ⟨rfl, rfl, List.nodup_nil, fun _ => rfl, h.predefined, rfl⟩

theorem Mirrors.grantAll (h : s.Mirrors r) (ds : List Demand) :
    (s.grantAll ds).1 = (r.file (ds.map (⟨·, {}⟩))).refused ∧
      (s.grantAll ds).2.Mirrors (r.file (ds.map (⟨·, {}⟩))).registry := by
  induction ds generalizing s r with
  | nil => exact ⟨rfl, h⟩
  | cons d ds ih =>
    have hfollows := h.grant d
    rw [Store.grantAll, List.map_cons]
    cases hg : r.grant d with
    | error fault =>
      rw [hg] at hfollows
      have hstep : s.grant d = (.error fault, s) := hfollows
      simp only [hstep, Registry.file, hg, Registry.refusal_of_grant hg]
      exact ⟨trivial, h⟩
    | ok granted =>
      obtain ⟨isNew, r'⟩ := granted
      rw [hg] at hfollows
      obtain ⟨hresult, hmirrors⟩ := hfollows
      rcases hstep : s.grant d with ⟨result, s'⟩
      rw [hstep] at hresult hmirrors
      obtain rfl : result = .ok isNew := hresult
      obtain ⟨hregistry, hrefused⟩ := Registry.file_cons_of_grant (q := ⟨d, {}⟩) hg (ds.map (⟨·, {}⟩))
      rw [hregistry, hrefused]
      exact ih hmirrors

end Store

end ApiSurface
