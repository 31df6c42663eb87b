import ApiSurface.Proofs.Registry.Replies
import ApiSurface.Proofs.Registry.Walk
import Mathlib.Data.List.Nodup
import Mathlib.Data.List.Perm.Subperm

/-!
# Iterating over a registry that grows

Whoever iterates over a registry may register more for each entry that is visited.  The entries added
meanwhile are visited as well, so an iteration that goes through has seen what is there in the end.
-/

namespace ApiSurface

/-- The call that makes a demand. -/
def Demand.call : Demand → Call
  | .shape key what => .register key what
  | .predefined key => .usePredefined key

namespace Registry

/-- What is carried out for an entry that is visited: some registrations, in order, and nothing
else. -/
def registering (body : String → Shape → List Demand) (key : String) (shape : Shape) : Plan Unit :=
  ⟨(body key shape).map (⟨·, {}⟩), .ok ()⟩

/-- An iteration over the entries, of which at most `bound` are visited. -/
def iterate (r : Registry) (body : String → Shape → List Demand) (bound : Nat) : Visit Unit :=
  r.visit (registering body) bound

/-- The registrations for some entries, in order. -/
def madeFor (body : String → Shape → List Demand) (es : List (String × Shape)) : List Demand :=
  es.flatMap fun e => body e.1 e.2

/-- Registrations from a table: for each entry those that its name triggers. -/
def triggered (table : List (String × String × Shape)) (key : String) (_ : Shape) : List Demand :=
  (table.filter (·.1 = key)).map fun t => .shape t.2.1 t.2.2

/-- **An iteration without an error**: it has seen exactly what the registry holds at the end. -/
structure SeesAll (body : String → Shape → List Demand) (r : Registry) (v : Visit Unit) : Prop where
  visited : v.visited = v.registry.entries
  /-- Each name is visited once. -/
  nodup : (v.visited.map (·.1)).Nodup
  /-- Each name is visited with the shape that it is registered with. -/
  get : ∀ e ∈ v.visited, v.registry.get? e.1 = some e.2
  /-- All registrations for the entries visited were accepted, and there were no others. -/
  granted : r.Grants (madeFor body v.visited) v.registry

/-- **An iteration that a refusal ends**, at a registration for the last entry that it visits. -/
inductive StopsAt (body : String → Shape → List Demand) (r : Registry) (v : Visit Unit)
    (fault : Fault) : Prop
  | intro {before : List (String × Shape)} {e : String × Shape} {made unmade : List Demand}
    {d : Demand} (hvisited : v.visited = before ++ [e]) (hbody : body e.1 e.2 = made ++ d :: unmade)
    (hgranted : r.Grants (madeFor body before ++ made) v.registry)
    (hremain : ∀ d' ∈ madeFor body before ++ made, v.registry.Holds d')
    (hrefused : v.registry.grant d = .error fault)

variable {r r' : Registry} {d : Demand}

/-- The registry after some calls is the one that the same registrations lead to. -/
theorem Grants.after_eq {ds : List Demand} (h : r.Grants ds r') : r.after (ds.map Demand.call) = r' := by
  induction h with
  | nil => rfl
  | @cons r r' r'' d ds isNew hgrant _ ih =>
    have hcall : (r.respond d.call).2 = r' := by
      have haccept : (r.accept d).2 = r' := by rw [accept, hgrant]
      cases d <;> exact haccept
    show ((r.respond d.call).2).after (ds.map Demand.call) = r''
    rw [hcall, ih]

/-! ### The loop -/

section Loop

variable {α : Type} {plans : String → Shape → Plan α} {i : Nat} {v : Visit α}

theorem drop_push_of_getElem? {e : String × Shape} (h : r.entries[i]? = some e)
    (es : List (String × Shape)) :
    (r.push es).entries.drop i = e :: (r.push es).entries.drop (i + 1) := by
  have hget : (r.push es).entries[i]? = some e := by
    obtain ⟨hi, -⟩ := List.getElem?_eq_some_iff.mp h
    rw [push_entries, List.getElem?_append_left hi, h]
  obtain ⟨hi, rfl⟩ := List.getElem?_eq_some_iff.mp hget
  exact List.drop_eq_getElem_cons hi

/-- **The loop visits entries in their order**, those included that it adds, and if it is complete it
visits all of them. -/
theorem Walk.visited_prefix (h : Walk plans i r v) : (∃ es, v.registry = r.push es) ∧
    v.visited <+: v.registry.entries.drop i ∧
    (v.ending = .complete → v.visited = v.registry.entries.drop i) := by
  induction h with
  | done hnone =>
    have hend := List.drop_of_length_le (List.getElem?_eq_none_iff.mp hnone)
    exact ⟨⟨[], by simp⟩, List.nil_prefix, fun _ => hend.symm⟩
  | @stop i r e fault hget hrun =>
    obtain ⟨es, hpush, -⟩ := (plans e.1 e.2).run_extends r
    refine ⟨⟨es, hpush⟩, ?_, nofun⟩
    rw [hpush, drop_push_of_getElem? hget]
    exact List.cons_prefix_cons.mpr ⟨rfl, List.nil_prefix⟩
  | @step i r e a later hget hrun hlater ih =>
    obtain ⟨es, hpush, -⟩ := (plans e.1 e.2).run_extends r
    obtain ⟨⟨es', hpush'⟩, hstart, hall⟩ := ih
    rw [hpush, push_push] at hpush'
    have hdrop : later.registry.entries.drop i = e :: later.registry.entries.drop (i + 1) := by
      rw [hpush', drop_push_of_getElem? hget]
    refine ⟨⟨_, hpush'⟩, ?_, fun hend => ?_⟩
    · rw [hdrop]
      exact List.cons_prefix_cons.mpr ⟨rfl, hstart⟩
    · rw [hdrop, ← hall hend]

end Loop

section Registering

variable {body : String → Shape → List Demand} {i : Nat} {v : Visit Unit}

theorem madeFor_cons (e : String × Shape) (es : List (String × Shape)) :
    madeFor body (e :: es) = body e.1 e.2 ++ madeFor body es :=
  List.flatMap_cons

variable (body) in
theorem demands_registering (key : String) (shape : Shape) :
    (registering body key shape).requests.map (·.demand) = body key shape := by
  simp [registering, Function.comp_def]

/-- **A complete loop**: all registrations were accepted. -/
theorem Walk.grants_of_complete (h : Walk (registering body) i r v) (hend : v.ending = .complete) :
    r.Grants (madeFor body v.visited) v.registry := by
  induction h with
  | done => exact .nil
  | stop => cases hend
  | @step i r e a later hget hrun hlater ih =>
    have hfirst := grants_of_file (Plan.run_ok_iff.mp hrun).1
    rw [demands_registering, ← Plan.run_registry] at hfirst
    exact hfirst.append (ih hend)

/-- **A loop that fails**: the registrations before the one that is refused were accepted. -/
theorem Walk.stopsAt_of_failed {fault : Fault} (h : Walk (registering body) i r v)
    (hend : v.ending = .failed fault) : StopsAt body r v fault := by
  induction h with
  | done => cases hend
  | @stop i r e fault' hget hrun =>
    obtain rfl := Ending.failed.inj hend
    have hrefused : (r.file (registering body e.1 e.2).requests).refused = some fault' := by
      cases hfile : (r.file (registering body e.1 e.2).requests).refused with
      | none =>
        rw [Plan.run_ok_iff.mpr ⟨hfile, rfl⟩] at hrun
        cases hrun
      | some fault =>
        simp only [Plan.run, hfile] at hrun
        rw [Except.error.inj hrun]
    obtain ⟨made, q, unmade, fault, hsplit, hgrants, hfault, rfl⟩ := exists_refused_of_file hrefused
    have hplace : q.place = {} := by
      have hq : q ∈ (registering body e.1 e.2).requests := by simp [hsplit]
      obtain ⟨d, -, rfl⟩ := List.mem_map.mp hq
      rfl
    have hbody : body e.1 e.2 = made.map (·.demand) ++ q.demand :: unmade.map (·.demand) := by
      rw [← demands_registering body, hsplit, List.map_append, List.map_cons]
    rw [hplace, refusal_of_grant hfault, Plan.run_registry]
    have hmade : r.Grants (madeFor body [] ++ made.map (·.demand))
        (r.file (registering body e.1 e.2).requests).registry := hgrants
    exact .intro (List.nil_append [e]).symm hbody hmade (fun d hd => (hmade.holds d hd).1) hfault
  | @step i r e a later hget hrun hlater ih =>
    obtain ⟨hvisited, hbody, hgrants, -, hfault⟩ := ih hend
    have hfirst := grants_of_file (Plan.run_ok_iff.mp hrun).1
    rw [demands_registering, ← Plan.run_registry] at hfirst
    have hgrants := hfirst.append hgrants
    rw [← List.append_assoc, ← madeFor_cons] at hgrants
    exact .intro (by rw [hvisited]; rfl) hbody hgrants (fun d hd => (hgrants.holds d hd).1) hfault

end Registering

/-! ### The number of steps -/

/-- The names of the entries are some of those given, each once. -/
structure KeysIn (names : List String) (r : Registry) : Prop where
  nodup : r.keys.Nodup
  subset : r.keys ⊆ names

namespace KeysIn

variable {names : List String}

theorem size_le (h : r.KeysIn names) : r.size ≤ names.length := by
  have hle := (List.subperm_of_subset h.nodup h.subset).length_le
  rwa [keys, List.length_map] at hle

theorem grant {isNew : Bool} (h : r.KeysIn names) (hg : r.grant d = .ok (isNew, r'))
    (hd : d.key ∈ names) : r'.KeysIn names := by
  obtain ⟨e, he, ⟨-, hnew, rfl⟩ | ⟨-, -, rfl⟩⟩ := (grant_ok_iff (isOpen_of_grant hg)).mp hg
  · refine ⟨?_, ?_⟩
    · rw [push_keys, List.map_singleton]
      exact h.nodup.append (List.nodup_singleton e.1)
        (List.disjoint_singleton.mpr (get?_eq_none_iff.mp hnew))
    · rw [push_keys, List.map_singleton, Demand.pair?_key he]
      exact List.append_subset.mpr ⟨h.subset, by simpa using hd⟩
  · exact h

theorem file {qs : List Request} (h : r.KeysIn names) (hqs : ∀ q ∈ qs, q.demand.key ∈ names) :
    (r.file qs).registry.KeysIn names := by
  induction qs generalizing r with
  | nil => exact h
  | cons q qs ih =>
    obtain ⟨hq, hqs⟩ := List.forall_mem_cons.mp hqs
    cases hg : r.grant q.demand with
    | error fault => simpa [Registry.file, hg] using h
    | ok granted =>
      obtain ⟨isNew, r'⟩ := granted
      rw [(file_cons_of_grant hg qs).1]
      exact ih (h.grant hg hq) hqs

/-- **The loop** adds no other names than those that its plans ask for. -/
theorem visitFrom {α : Type} {plans : String → Shape → Plan α} (h : r.KeysIn names)
    (hplans : ∀ key shape, ∀ q ∈ (plans key shape).requests, q.demand.key ∈ names) (bound i : Nat) :
    (visitFrom plans bound i r).registry.KeysIn names := by
  induction bound generalizing i r with
  | zero =>
    unfold Registry.visitFrom
    cases r.entries[i]? <;> exact h
  | succ bound ih =>
    unfold Registry.visitFrom
    cases r.entries[i]? with
    | none => exact h
    | some e =>
      have hrun : ((plans e.1 e.2).run r).registry.KeysIn names := by
        rw [Plan.run_registry]
        exact h.file (hplans e.1 e.2)
      simp only
      cases ((plans e.1 e.2).run r).outcome with
      | error fault => exact hrun
      | ok a => exact ih hrun (i + 1)

end KeysIn

/-- A visit that is cut off has visited as many entries as it may, and there are more. -/
theorem size_of_unfinished {α : Type} {plans : String → Shape → Plan α} {bound i : Nat}
    (h : (visitFrom plans bound i r).ending = .unfinished) :
    i + bound < (visitFrom plans bound i r).registry.size := by
  induction bound generalizing i r with
  | zero =>
    unfold visitFrom at h ⊢
    cases hget : r.entries[i]? with
    | none => simp [hget] at h
    | some e => exact (List.getElem?_eq_some_iff.mp hget).1
  | succ bound ih =>
    unfold visitFrom at h ⊢
    cases hget : r.entries[i]? with
    | none => simp [hget] at h
    | some e =>
      simp only [hget] at h ⊢
      cases hrun : ((plans e.1 e.2).run r).outcome with
      | error fault => simp [hrun] at h
      | ok a =>
        simp only [hrun] at h ⊢
        have hlater := ih h
        omega

/-- **Registrations from a table** come to an end: each step visits another name, and there are no more
than the names of the registry and those of the table. -/
theorem walk_iterate_triggered (hnd : r.keys.Nodup) (table : List (String × String × Shape))
    {bound : Nat} (hbound : r.size + table.length ≤ bound) :
    Walk (registering (triggered table)) 0 r (r.iterate (triggered table) bound) := by
  apply walk_visitFrom
  intro hunfinished
  have hkeys : r.KeysIn (r.keys ++ table.map (·.2.1)) := ⟨hnd, List.subset_append_left _ _⟩
  have hplans : ∀ key shape, ∀ q ∈ (registering (triggered table) key shape).requests,
      q.demand.key ∈ r.keys ++ table.map (·.2.1) := by
    intro key shape q hq
    obtain ⟨d, hd, rfl⟩ := List.mem_map.mp hq
    obtain ⟨t, ht, rfl⟩ := List.mem_map.mp hd
    exact List.mem_append_right _ (List.mem_map_of_mem (List.mem_of_mem_filter ht))
  have hsize := (hkeys.visitFrom hplans bound 0).size_le
  have hcut := size_of_unfinished hunfinished
  have hnames : (r.keys ++ table.map (·.2.1)).length = r.size + table.length := by
    simp [keys, size]
  omega

/-! ### The loop over the names of a store -/

/-- **The loop over the names**, each looked up in turn, visits the entries of the registry that the store
mirrors, and ends alike. -/
theorem mirrors_iterateFrom {s : Store} (body : String → Shape → List Demand) (h : s.Mirrors r)
    (bound i : Nat) :
    let x := Store.iterateFrom body bound i s
    let v := visitFrom (registering body) bound i r
    x.visited = v.visited ∧ x.ending = v.ending ∧ x.store.Mirrors v.registry := by
  have hat : s.order[i]? = r.entries[i]?.map (·.1) := by rw [h.order, keys, List.getElem?_map]
  induction bound generalizing i r s with
  | zero =>
    unfold Store.iterateFrom visitFrom
    rw [hat]
    cases r.entries[i]? <;> exact ⟨rfl, rfl, h⟩
  | succ bound ih =>
    unfold Store.iterateFrom visitFrom
    rw [hat]
    cases hget : r.entries[i]? with
    | none => exact ⟨rfl, rfl, h⟩
    | some e =>
      obtain ⟨hrefused, hmirrors⟩ := h.grantAll (body e.1 e.2)
      have hentry := h.entry_eq (List.mem_of_getElem? hget)
      simp only [Option.map_some, hentry]
      rcases hgrant : s.grantAll (body e.1 e.2) with ⟨refused, s'⟩
      rw [hgrant] at hrefused hmirrors
      -- the plan for the entry makes its registrations and nothing else
      simp only [registering, Plan.run, ← hrefused]
      cases refused with
      | some fault => exact ⟨rfl, rfl, hmirrors⟩
      | none =>
        obtain ⟨hvisited, hending, hstore⟩ := ih hmirrors (i + 1)
          (by rw [hmirrors.order, keys, List.getElem?_map])
        exact ⟨congrArg (e :: ·) hvisited, hending, hstore⟩

/-! ### After runs of calls -/

theorem after_append (r : Registry) (calls calls' : List Call) :
    r.after (calls ++ calls') = (r.after calls).after calls' :=
  List.foldl_append

theorem nodup_keys_after (predefined : List (String × List String)) (calls : List Call) :
    ((empty predefined).after calls).keys.Nodup := by
  by_cases hdrain : .drain ∈ calls
  · rw [((tracks_empty predefined).spent_after hdrain).keys_eq]
    exact List.nodup_nil
  · rw [((tracks_empty predefined).after hdrain).keys]
    exact nodup_eraseDups _

/-- **Iterations over a registry** that any calls lead to, with a body that makes some registrations for
each entry.

* If no registration is refused, the entries visited are those of the registry at the end, in their
  order, each name once and with its shape.
* If one is refused, the entries visited are the first ones of the registry, and the registrations before
  it remain.
* If the registrations come from a table, the loop ends; the bound is not reached if it is as large as the
  registry and the table together.
* A store to which the same calls are made is iterated over with the same entries and the same end, and
  its two structures are in step again. -/
theorem iterate_after (predefined : List (String × List String)) (calls : List Call)
    (body : String → Shape → List Demand) (bound : Nat) :
    let r := (empty predefined).after calls
    let v := r.iterate body bound
    let x := ((Store.empty predefined).after calls).iterate body bound
    (v.ending = .complete → SeesAll body r v) ∧
    (∀ fault, v.ending = .failed fault → v.visited <+: v.registry.entries ∧ StopsAt body r v fault ∧
      r.entries <+: v.registry.entries) ∧
    (∀ table, r.size + table.length ≤ bound →
      Walk (registering (triggered table)) 0 r (r.iterate (triggered table) bound)) ∧
    x.visited = v.visited ∧ x.ending = v.ending ∧ x.store.StandsFor v.registry := by
  intro r v x
  have hwalk : v.ending ≠ .unfinished → Walk (registering body) 0 r v := walk_visitFrom
  have hmirrors := ((Store.mirrors_empty predefined).after calls).1
  obtain ⟨hvisited, hending, hstore⟩ := mirrors_iterateFrom body hmirrors bound 0
  refine ⟨fun hend => ?_, fun fault hend => ?_, fun table => ?_, hvisited, hending,
    hstore.standsFor⟩
  · have hloop := hwalk (by rw [hend]; nofun)
    have hgranted := hloop.grants_of_complete hend
    have hvisited : v.visited = v.registry.entries := hloop.visited_prefix.2.2 hend
    have hnd : v.registry.keys.Nodup := by
      rw [← hgranted.after_eq, ← after_append]
      exact nodup_keys_after predefined _
    refine ⟨hvisited, hvisited ▸ hnd, fun e he => ?_, hgranted⟩
    exact (lookup_eq_some_iff_mem hnd).mpr (hvisited ▸ he)
  · have hloop := hwalk (by rw [hend]; nofun)
    obtain ⟨⟨es, hpush⟩, hstart, -⟩ := hloop.visited_prefix
    exact ⟨hstart, hloop.stopsAt_of_failed hend, hpush ▸ List.prefix_append _ _⟩
  · exact walk_iterate_triggered (nodup_keys_after predefined calls) table

/-- A corner for the side, and the side once more for the corner. -/
def cornerTable (side : List String) : List (String × String × Shape) :=
  [("Side", "Corner", .enum ["top"]), ("Corner", "Side", .enum side)]

theorem iterate_after_cornerTable :
    let r := (empty []).after [.register "Side" (.enum ["left"])]
    let v := r.iterate (triggered (cornerTable ["left"])) 3
    let v' := r.iterate (triggered (cornerTable ["right"])) 3
    SeesAll (triggered (cornerTable ["left"])) r v ∧ v.visited.map (·.1) = ["Side", "Corner"] ∧
      Walk (registering (triggered (cornerTable ["left"]))) 0 r v ∧
      StopsAt (triggered (cornerTable ["right"])) r v'
        (.ofCause (.nameTaken "Side" "enum(left)" "enum(right)")) ∧ v'.registry.size = 2 := by
  intro r v v'
  have hagrees := iterate_after [] [.register "Side" (.enum ["left"])]
    (triggered (cornerTable ["left"])) 3
  have hclashes := iterate_after [] [.register "Side" (.enum ["left"])]
    (triggered (cornerTable ["right"])) 3
  refine ⟨hagrees.1 (by decide +kernel), by decide +kernel, hagrees.2.2.1 _ (by decide +kernel), ?_,
    by decide +kernel⟩
  exact (hclashes.2.1 _ (by decide +kernel)).2.1

end Registry

end ApiSurface
