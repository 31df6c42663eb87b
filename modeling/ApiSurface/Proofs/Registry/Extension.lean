import ApiSurface.Proofs.Registry.Grants
import Mathlib.Data.List.Induction

/-!
# Filing extends a registry

Whatever the state of a registry, and whether or not all requests are granted, filing appends entries
under new names and changes nothing else.
-/

namespace ApiSurface

namespace Registry

@[simp] theorem push_keys (r : Registry) (es : List (String × Shape)) :
    (r.push es).keys = r.keys ++ es.map (·.1) :=
  List.map_append

theorem get?_push (r : Registry) (es : List (String × Shape)) (key : String) :
    (r.push es).get? key = (r.get? key).or (es.lookup key) :=
  List.lookup_append

theorem get?_push_of_some {r : Registry} {key : String} {shape : Shape}
    (h : r.get? key = some shape) (es : List (String × Shape)) :
    (r.push es).get? key = some shape := by
  rw [get?_push, h, Option.some_or]

theorem get?_push_new {r : Registry} {e : String × Shape} (h : r.get? e.1 = none) :
    (r.push [e]).get? e.1 = some e.2 := by
  rw [get?_push, h, Option.none_or, lookup_singleton, if_pos rfl]

/-! ### Entries are only appended -/

/-- **Filing** appends entries under new names, each once, also up to a refusal. -/
theorem file_extends (r : Registry) (qs : List Request) :
    ∃ es, (r.file qs).registry = r.push es ∧ (r.file qs).added = es.map (·.1) ∧
      (es.map (·.1)).Nodup ∧ ∀ e ∈ es, r.get? e.1 = none := by
  induction qs generalizing r with
  | nil => exact ⟨[], by simp [file], rfl, List.nodup_nil, by simp⟩
  | cons q qs ih =>
    cases hg : r.grant q.demand with
    | error fault => exact ⟨[], by simp [file, hg], by simp [file, hg], List.nodup_nil, by simp⟩
    | ok granted =>
      obtain ⟨isNew, r'⟩ := granted
      obtain ⟨e, he, hcase⟩ := (grant_ok_iff (isOpen_of_grant hg)).mp hg
      rcases hcase with ⟨rfl, hnew, rfl⟩ | ⟨rfl, hold, rfl⟩
      · -- the entry is appended, so the entries to come have other names
        obtain ⟨es, hreg, hadd, hnd, hfresh⟩ := ih (r.push [e])
        have hother : ∀ x ∈ es, x.1 ≠ e.1 := by
          intro x hx heq
          have hnone := hfresh x hx
          rw [heq, get?_push_new hnew] at hnone
          cases hnone
        refine ⟨e :: es, by simp [file, hg, hreg], ?_, ?_, ?_⟩
        · simp [file, hg, hadd, Demand.pair?_key he]
        · rw [List.map_cons, List.nodup_cons]
          refine ⟨fun hmem => ?_, hnd⟩
          obtain ⟨x, hx, heq⟩ := List.mem_map.mp hmem
          exact hother x hx heq
        · intro x hx
          rcases List.mem_cons.mp hx with rfl | hx
          · exact hnew
          · have hnone := hfresh x hx
            rw [get?_push, Option.or_eq_none_iff] at hnone
            exact hnone.1
      · -- the entry is present already
        obtain ⟨es, hreg, hadd, hnd, hfresh⟩ := ih r'
        exact ⟨es, by simp [file, hg, hreg], by simp [file, hg, hadd], hnd, hfresh⟩

/-- **A name that is registered** keeps its shape. -/
theorem get?_of_file {r : Registry} {key : String} {shape : Shape} (h : r.get? key = some shape)
    (qs : List Request) : (r.file qs).registry.get? key = some shape := by
  obtain ⟨es, hreg, -⟩ := r.file_extends qs
  rw [hreg]
  exact get?_push_of_some h es

theorem predefined_file (r : Registry) (qs : List Request) :
    (r.file qs).registry.predefined = r.predefined := by
  obtain ⟨es, hreg, -⟩ := r.file_extends qs
  rw [hreg, push_predefined]

/-! ### The order of the names -/

/-- Dropping repetitions keeps an element at the end only if it did not occur before. -/
theorem eraseDups_concat (l : List String) (a : String) :
    (l ++ [a]).eraseDups = if a ∈ l then l.eraseDups else l.eraseDups ++ [a] := by
  rw [List.eraseDups_append, List.cons_removeAll]
  by_cases h : a ∈ l
  · simp [h]
  · simp [h, List.eraseDups_cons]

theorem nodup_eraseDups (l : List String) : l.eraseDups.Nodup := by
  induction l using List.reverseRecOn with
  | nil => exact List.nodup_nil
  | append_singleton l a ih =>
    rw [eraseDups_concat]
    by_cases h : a ∈ l
    · rwa [if_pos h]
    · rw [if_neg h, List.nodup_append]
      refine ⟨ih, by simp, fun x hx y hy => ?_⟩
      rintro rfl
      rw [List.mem_singleton] at hy
      exact h (List.mem_eraseDups.mp (hy ▸ hx))

/-- A demand that is granted puts its name at the end, unless it stands there already. -/
theorem keys_grant {r r' : Registry} {d : Demand} {isNew : Bool} {names : List String}
    (hnames : r.keys = names.eraseDups) (h : r.grant d = .ok (isNew, r')) :
    r'.keys = (names ++ [d.key]).eraseDups := by
  have hmem : d.key ∈ names ↔ d.key ∈ r.keys := by rw [hnames, List.mem_eraseDups]
  obtain ⟨e, he, hcase⟩ := (grant_ok_iff (isOpen_of_grant h)).mp h
  have hkey := Demand.pair?_key he
  rw [eraseDups_concat]
  rcases hcase with ⟨-, hnew, rfl⟩ | ⟨-, hold, rfl⟩
  · have hno : d.key ∉ r.keys := hkey ▸ get?_eq_none_iff.mp hnew
    rw [if_neg (mt hmem.mp hno), push_keys, hnames, List.map_singleton, hkey]
  · have hyes : d.key ∈ r'.keys := by
      by_contra hno
      rw [← hkey] at hno
      rw [get?_eq_none_iff.mpr hno] at hold
      cases hold
    rw [if_pos (hmem.mpr hyes), hnames]

/-- **Demands that are all granted** leave the names in the order in which they were first made. -/
theorem Grants.keys_eq {r r' : Registry} {ds : List Demand} {names : List String}
    (hnames : r.keys = names.eraseDups) (h : r.Grants ds r') :
    r'.keys = (names ++ ds.map (·.key)).eraseDups := by
  induction h generalizing names with
  | nil => simpa using hnames
  | @cons r r' r'' d ds isNew hgrant hrest ih =>
    have hlater := ih (keys_grant hnames hgrant)
    rwa [List.append_assoc, List.singleton_append] at hlater

theorem keys_file {r : Registry} {names : List String} (hnames : r.keys = names.eraseDups)
    {qs : List Request} (hok : (r.file qs).refused = none) :
    (r.file qs).registry.keys = (names ++ qs.map (·.demand.key)).eraseDups := by
  have hkeys := (grants_of_file hok).keys_eq hnames
  rwa [List.map_map] at hkeys

/-! ### What was granted is granted again -/

/-- The entry that a demand stands for is present. -/
def Holds (r : Registry) (d : Demand) : Prop :=
  ∃ e, d.pair? r.predefined = some e ∧ r.get? e.1 = some e.2

theorem holds_of_grant {r r' : Registry} {d : Demand} {isNew : Bool}
    (h : r.grant d = .ok (isNew, r')) : r'.Holds d ∧ r'.closed = false := by
  have hopen := isOpen_of_grant h
  obtain ⟨e, he, ⟨rfl, hnew, rfl⟩ | ⟨rfl, hold, rfl⟩⟩ := (grant_ok_iff hopen).mp h
  · exact ⟨⟨e, he, get?_push_new hnew⟩, hopen⟩
  · exact ⟨⟨e, he, hold⟩, hopen⟩

theorem Holds.grant_eq {r : Registry} {d : Demand} (h : r.Holds d) (hopen : r.closed = false) :
    r.grant d = .ok (false, r) := by
  obtain ⟨e, he, hget⟩ := h
  exact (grant_ok_iff hopen).mpr ⟨e, he, .inr ⟨rfl, hget, rfl⟩⟩

theorem file_eq_of_holds {r : Registry} {qs : List Request}
    (h : ∀ q ∈ qs, r.Holds q.demand ∧ r.closed = false) : r.file qs = ⟨[], none, r⟩ := by
  induction qs with
  | nil => rfl
  | cons q qs ih =>
    obtain ⟨hq, hopen⟩ := h q List.mem_cons_self
    have hrest := ih fun q hq => h q (List.mem_cons_of_mem _ hq)
    simp only [file, hq.grant_eq hopen, hrest, Bool.false_eq_true, if_false]

/-- **What was granted remains.** -/
theorem Grants.holds {r r' : Registry} {ds : List Demand} (h : r.Grants ds r') :
    ∀ d ∈ ds, r'.Holds d ∧ r'.closed = false := by
  induction h with
  | nil => simp
  | @cons r r' r'' d ds isNew hgrant hrest ih =>
    obtain ⟨es, rfl⟩ := hrest.exists_push
    obtain ⟨⟨e, he, hget⟩, hopen⟩ := holds_of_grant hgrant
    rintro d' (_ | ⟨_, hd'⟩)
    · exact ⟨⟨e, he, get?_push_of_some hget es⟩, hopen⟩
    · exact ih d' hd'

theorem holds_of_file {r : Registry} {qs : List Request} (hok : (r.file qs).refused = none) :
    ∀ q ∈ qs, (r.file qs).registry.Holds q.demand ∧ (r.file qs).registry.closed = false :=
  fun _ hq => (grants_of_file hok).holds _ (List.mem_map_of_mem hq)

/-- **Requests that were all granted** are granted again without a change. -/
theorem file_again {r : Registry} {qs : List Request} (hok : (r.file qs).refused = none) :
    (r.file qs).registry.file qs = ⟨[], none, (r.file qs).registry⟩ :=
  file_eq_of_holds (holds_of_file hok)

end Registry

/-! ### Carrying out plans -/

namespace Plan

variable {α : Type}

@[simp] theorem run_added (p : Plan α) (r : Registry) :
    (p.run r).added = (r.file p.requests).added := by
  unfold run
  cases h : (r.file p.requests).refused <;> simp [h]

/-- **A plan** appends entries under new names, each once, whatever comes of it. -/
theorem run_extends (p : Plan α) (r : Registry) :
    ∃ es, (p.run r).registry = r.push es ∧ (p.run r).added = es.map (·.1) ∧
      (es.map (·.1)).Nodup ∧ ∀ e ∈ es, r.get? e.1 = none := by
  rw [run_registry, run_added]
  exact r.file_extends p.requests

/-- **A plan that succeeded** succeeds again with the same result and adds nothing. -/
theorem run_again {p : Plan α} {r : Registry} {a : α} (h : (p.run r).outcome = .ok a) :
    p.run (p.run r).registry = ⟨[], .ok a, (p.run r).registry⟩ := by
  obtain ⟨hgranted, hout⟩ := run_ok_iff.mp h
  rw [run_registry]
  unfold run
  rw [Registry.file_again hgranted]
  simp [hout]

end Plan

end ApiSurface
