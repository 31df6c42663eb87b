import ApiSurface.Proofs.Lookup
import ApiSurface.Proofs.Registry.Yields

/-!
# What filing requests does to a registry

A request stands for one entry (`Demand.pair?`), and filing a list of requests appends entries.  A
table of entries `Covers` some requests if it holds what they stand for.
-/

namespace ApiSurface

/-- The entry that a demand stands for; none if it names a predefined enum that does not exist. -/
def Demand.pair? (predefined : List (String × List String)) : Demand → Option (String × Shape)
  | .shape key what => some (key, what)
  | .predefined key => (predefined.reverse.lookup key).map fun values => (key, .enum values)

/-- The entries that some requests stand for, in order. -/
def requested (predefined : List (String × List String)) (qs : List Request) :
    List (String × Shape) :=
  qs.filterMap fun q => q.demand.pair? predefined

/-- Every request stands for an entry of a table. -/
def Covers (predefined : List (String × List String)) (S : Set (String × Shape))
    (qs : List Request) : Prop :=
  ∀ q ∈ qs, ∃ e ∈ S, q.demand.pair? predefined = some e

/-- Each name has one shape. -/
def Consistent (S : Set (String × Shape)) : Prop :=
  ∀ key shape shape', (key, shape) ∈ S → (key, shape') ∈ S → shape = shape'

@[simp] theorem requested_nil (predefined : List (String × List String)) :
    requested predefined [] = [] := rfl

@[simp] theorem requested_append (predefined : List (String × List String))
    (qs qs' : List Request) :
    requested predefined (qs ++ qs') = requested predefined qs ++ requested predefined qs' :=
  List.filterMap_append

theorem mem_requested {predefined : List (String × List String)} {qs : List Request}
    {e : String × Shape} :
    e ∈ requested predefined qs ↔ ∃ q ∈ qs, q.demand.pair? predefined = some e :=
  List.mem_filterMap

/-- What is asked for is in a table that covers the requests. -/
theorem Covers.mem {predefined : List (String × List String)} {S : Set (String × Shape)}
    {qs : List Request} (h : Covers predefined S qs) {e : String × Shape}
    (he : e ∈ requested predefined qs) : e ∈ S := by
  obtain ⟨q, hq, hpair⟩ := mem_requested.mp he
  obtain ⟨x, hx, hpair'⟩ := h q hq
  obtain rfl := Option.some.inj (hpair.symm.trans hpair')
  exact hx

theorem Covers.exists_pair {predefined : List (String × List String)} {S : Set (String × Shape)}
    {qs : List Request} (h : Covers predefined S qs) {d : Demand} (hd : d ∈ qs.map (·.demand)) :
    ∃ e ∈ S, d.pair? predefined = some e := by
  obtain ⟨q, hq, rfl⟩ := List.mem_map.mp hd
  exact h q hq

theorem Covers.mono {predefined : List (String × List String)} {S T : Set (String × Shape)}
    {qs : List Request} (h : Covers predefined S qs) (hST : S ⊆ T) : Covers predefined T qs := by
  intro q hq
  obtain ⟨e, he, hpair⟩ := h q hq
  exact ⟨e, hST he, hpair⟩

theorem Demand.pair?_key {predefined : List (String × List String)} {d : Demand}
    {e : String × Shape} (h : d.pair? predefined = some e) : e.1 = d.key := by
  cases d with
  | shape key shape =>
    cases h
    rfl
  | predefined key =>
    obtain ⟨values, -, rfl⟩ := Option.map_eq_some_iff.mp h
    rfl

namespace Registry

/-- The entries of a registry as a set. -/
def table (r : Registry) : Set (String × Shape) := {e | e ∈ r.entries}

@[simp] theorem mem_table {r : Registry} {e : String × Shape} : e ∈ r.table ↔ e ∈ r.entries :=
  Iff.rfl

/-- A registry with more entries. -/
def push (r : Registry) (es : List (String × Shape)) : Registry :=
  { r with entries := r.entries ++ es }

@[simp] theorem push_entries (r : Registry) (es : List (String × Shape)) :
    (r.push es).entries = r.entries ++ es := rfl

@[simp] theorem push_predefined (r : Registry) (es : List (String × Shape)) :
    (r.push es).predefined = r.predefined := rfl

@[simp] theorem push_closed (r : Registry) (es : List (String × Shape)) :
    (r.push es).closed = r.closed := rfl

@[simp] theorem push_nil (r : Registry) : r.push [] = r := by
  simp [push]

@[simp] theorem push_push (r : Registry) (es es' : List (String × Shape)) :
    (r.push es).push es' = r.push (es ++ es') := by
  simp [push]

theorem table_subset_push (r : Registry) (es : List (String × Shape)) :
    r.table ⊆ (r.push es).table :=
  fun _ he => List.mem_append_left _ he

/-- A registry that takes registrations and holds each name once. -/
structure Sound (r : Registry) : Prop where
  isOpen : r.closed = false
  nodup : (r.entries.map (·.1)).Nodup

theorem sound_empty (predefined : List (String × List String)) : (empty predefined).Sound :=
  ⟨rfl, List.nodup_nil⟩

theorem Sound.get?_iff {r : Registry} (hs : r.Sound) {key : String} {shape : Shape} :
    r.get? key = some shape ↔ (key, shape) ∈ r.entries :=
  lookup_eq_some_iff_mem hs.nodup

theorem Sound.consistent {r : Registry} (hs : r.Sound) : Consistent r.table := by
  intro key shape shape' h h'
  have hget := hs.get?_iff.mpr h
  have hget' := hs.get?_iff.mpr h'
  exact Option.some.inj (hget.symm.trans hget')

theorem get?_eq_none_iff {r : Registry} {key : String} :
    r.get? key = none ↔ key ∉ r.entries.map (·.1) :=
  lookup_eq_none_iff_not_mem

theorem Sound.push_one {r : Registry} (hs : r.Sound) {e : String × Shape}
    (hnew : r.get? e.1 = none) : (r.push [e]).Sound := by
  refine ⟨hs.isOpen, ?_⟩
  rw [push_entries, List.map_append, List.nodup_append]
  refine ⟨hs.nodup, by simp, ?_⟩
  rintro a ha b hb rfl
  obtain rfl : a = e.1 := by simpa using hb
  exact get?_eq_none_iff.mp hnew ha

theorem grant_of_unknown {r : Registry} {d : Demand} (h : d.pair? r.predefined = none) :
    r.grant d = .error (.missingKey d.key) := by
  cases d with
  | shape key shape => cases h
  | predefined key =>
    have hlook : r.predefined.reverse.lookup key = none := Option.map_eq_none_iff.mp h
    show r.usePredefined key = _
    unfold usePredefined predefined?
    rw [hlook]
    rfl

/-- Any other demand is one for the entry that it stands for. -/
theorem grant_eq_register {r : Registry} {d : Demand} {e : String × Shape}
    (h : d.pair? r.predefined = some e) : r.grant d = (r.register e.1 e.2).mapError .ofCause := by
  cases d with
  | shape key shape =>
    cases h
    rfl
  | predefined key =>
    obtain ⟨values, hlook, rfl⟩ := Option.map_eq_some_iff.mp h
    show r.usePredefined key = _
    unfold usePredefined predefined?
    rw [hlook]

theorem grant_of_closed {r : Registry} (hclosed : r.closed = true) {d : Demand}
    {e : String × Shape} (h : d.pair? r.predefined = some e) :
    r.grant d = .error (.ofCause (.registerAfterDrain e.1)) := by
  rw [grant_eq_register h]
  unfold register
  rw [if_pos hclosed]
  rfl

/-- **What comes of a demand** that stands for an entry: a new name is entered, a name with this
shape is left as it is, and a name with another shape is refused. -/
theorem grant_of_open {r : Registry} (hopen : r.closed = false) {d : Demand} {e : String × Shape}
    (h : d.pair? r.predefined = some e) : r.grant d = match r.get? e.1 with
      | none => .ok (true, r.push [e])
      | some present =>
        if present = e.2 then .ok (false, r)
        else .error (.ofCause (.nameTaken e.1 present.describe e.2.describe)) := by
  rw [grant_eq_register h]
  unfold register
  rw [if_neg (by simp [hopen])]
  cases r.get? e.1 with
  | none => rfl
  | some present =>
    simp only
    split
    · rfl
    · rfl

theorem isOpen_of_grant {r r' : Registry} {d : Demand} {isNew : Bool}
    (h : r.grant d = .ok (isNew, r')) : r.closed = false := by
  by_contra hclosed
  have hclosed : r.closed = true := by simpa using hclosed
  cases hd : d.pair? r.predefined with
  | none => rw [grant_of_unknown hd] at h; cases h
  | some e => rw [grant_of_closed hclosed hd] at h; cases h

/-- **Granting.** The name is new and its entry is appended, or it has the same shape already. -/
theorem grant_ok_iff {r r' : Registry} (hopen : r.closed = false) {d : Demand} {isNew : Bool} :
    r.grant d = .ok (isNew, r') ↔ ∃ e, d.pair? r.predefined = some e ∧
      ((isNew = true ∧ r.get? e.1 = none ∧ r' = r.push [e]) ∨
        (isNew = false ∧ r.get? e.1 = some e.2 ∧ r' = r)) := by
  cases hd : d.pair? r.predefined with
  | none => simp [grant_of_unknown hd]
  | some e =>
    rw [grant_of_open hopen hd]
    cases hget : r.get? e.1 with
    | none => simp [hget, eq_comm]
    | some present =>
      by_cases hsame : present = e.2
      · simp [hsame, hget, eq_comm]
      · simp [hsame, hget]

/-! ### Filing -/

/-- Filing one list after another goes on where the first ends, unless that was refused. -/
theorem file_append (r : Registry) (qs qs' : List Request) :
    r.file (qs ++ qs') = match (r.file qs).refused with
      | some fault => ⟨(r.file qs).added, some fault, (r.file qs).registry⟩
      | none =>
        let later := (r.file qs).registry.file qs'
        { later with added := (r.file qs).added ++ later.added } := by
  induction qs generalizing r with
  | nil => rfl
  | cons q qs ih =>
    simp only [List.cons_append, file]
    cases hg : r.grant q.demand with
    | error fault => rfl
    | ok granted =>
      obtain ⟨isNew, r'⟩ := granted
      simp only [ih r']
      cases isNew <;> cases href : (r'.file qs).refused <;> simp [href]

/-- **Requests that are all granted** append some of the entries they stand for, each once, and all
entries they stand for are present afterwards. -/
theorem file_ok {r : Registry} (hs : r.Sound) {qs : List Request}
    (hok : (r.file qs).refused = none) :
    ∃ es, es.Sublist (requested r.predefined qs) ∧ (r.file qs).registry = r.push es ∧
      (r.file qs).added = es.map (·.1) ∧ (r.push es).Sound ∧
      Covers r.predefined (r.push es).table qs := by
  induction qs generalizing r with
  | nil => exact ⟨[], List.nil_sublist _, by simp [file], rfl, by simpa using hs, by simp [Covers]⟩
  | cons q qs ih =>
    simp only [file] at hok ⊢
    cases hg : r.grant q.demand with
    | error fault => simp [hg] at hok
    | ok granted =>
      obtain ⟨isNew, r'⟩ := granted
      obtain ⟨e, he, hcase⟩ := (grant_ok_iff hs.isOpen).mp hg
      have hreq : requested r.predefined (q :: qs) = e :: requested r.predefined qs := by
        simp [requested, he]
      rcases hcase with ⟨rfl, hnew, rfl⟩ | ⟨rfl, hold, rfl⟩
      · -- the entry is appended
        simp only [hg, if_true] at hok ⊢
        obtain ⟨es, hsub, hreg, hadd, hs', hall⟩ := ih (hs.push_one hnew) hok
        rw [push_predefined] at hsub hall
        refine ⟨e :: es, hreq ▸ hsub.cons_cons e, by simp [hreg], ?_, by simpa using hs', ?_⟩
        · rw [List.map_cons, ← hadd, Demand.pair?_key he]
        · rintro q' hq'
          rcases List.mem_cons.mp hq' with rfl | hq'
          · exact ⟨e, by simp, he⟩
          · simpa using hall q' hq'
      · -- the entry is present already
        simp only [hg, Bool.false_eq_true, if_false] at hok ⊢
        obtain ⟨es, hsub, hreg, hadd, hs', hall⟩ := ih hs hok
        refine ⟨es, hreq ▸ hsub.cons e, hreg, hadd, hs', ?_⟩
        rintro q' hq'
        rcases List.mem_cons.mp hq' with rfl | hq'
        · exact ⟨e, List.mem_append_left _ (hs.get?_iff.mp hold), he⟩
        · exact hall q' hq'

/-- **Requests with entries in a consistent table** that covers the registry are all granted. -/
theorem file_granted {r : Registry} (hs : r.Sound) {S : Set (String × Shape)} (hS : Consistent S)
    (hr : r.table ⊆ S) {qs : List Request} (hqs : Covers r.predefined S qs) :
    (r.file qs).refused = none := by
  induction qs generalizing r with
  | nil => rfl
  | cons q qs ih =>
    obtain ⟨e, heS, he⟩ := hqs q (by simp)
    have hrest : Covers r.predefined S qs := fun q hq => hqs q (List.mem_cons_of_mem _ hq)
    cases hget : r.get? e.1 with
    | none =>
      have hg := (grant_ok_iff hs.isOpen).mpr ⟨e, he, .inl ⟨rfl, hget, rfl⟩⟩
      simp only [file, hg, if_true]
      refine ih (hs.push_one hget) ?_ hrest
      intro x hx
      rcases List.mem_append.mp hx with hx | hx
      · exact hr hx
      · obtain rfl : x = e := by simpa using hx
        exact heS
    | some shape =>
      have hsame : shape = e.2 := hS e.1 shape e.2 (hr (hs.get?_iff.mp hget)) heS
      have hg := (grant_ok_iff hs.isOpen).mpr ⟨e, he, .inr ⟨rfl, hsame ▸ hget, rfl⟩⟩
      simp only [file, hg, Bool.false_eq_true, if_false]
      exact ih hs hr hrest

end Registry

/-! ### Carrying out plans -/

namespace Plan

variable {α β : Type}

@[simp] theorem run_registry (p : Plan α) (r : Registry) :
    (p.run r).registry = (r.file p.requests).registry := by
  unfold run
  cases h : (r.file p.requests).refused <;> simp [h]

theorem run_of_requests {p : Plan α} {r : Registry} (h : p.requests = []) :
    p.run r = ⟨[], p.outcome, r⟩ := by
  unfold run
  rw [h]
  rfl

/-- A plan succeeds on a registry if its requests are granted and it comes to a result. -/
theorem run_ok_iff {p : Plan α} {r : Registry} {a : α} :
    (p.run r).outcome = .ok a ↔ (r.file p.requests).refused = none ∧ p.outcome = .ok a := by
  unfold run
  cases h : (r.file p.requests).refused <;> simp [h]

/-- A plan after another is carried out on the registry that the first leaves. -/
theorem run_bind (p : Plan α) (f : α → Plan β) (r : Registry) :
    (p >>= f).run r = match (p.run r).outcome with
      | .error fault => ⟨(p.run r).added, .error fault, (p.run r).registry⟩
      | .ok a =>
        let later := (f a).run (p.run r).registry
        { later with added := (p.run r).added ++ later.added } := by
  cases hout : p.outcome with
  | error fault =>
    rw [bind_of_error hout]
    simp only [run, hout]
    cases href : (r.file p.requests).refused <;> simp
  | ok a =>
    rw [bind_of_ok hout]
    simp only [run, hout, Registry.file_append]
    cases href : (r.file p.requests).refused with
    | some fault => rfl
    | none =>
      simp only
      cases ((r.file p.requests).registry.file (f a).requests).refused <;> rfl

theorem run_bind_pure (p : Plan α) (f : α → β) (r : Registry) :
    (p >>= fun a => pure (f a)).run r =
      ⟨(p.run r).added, (p.run r).outcome.map f, (p.run r).registry⟩ := by
  rw [bind_pure_eq]
  cases hrefused : (r.file p.requests).refused with
  | none => simp only [run, hrefused]
  | some fault =>
    simp only [run, hrefused]
    rfl

end Plan

end ApiSurface
