import ApiSurface.Proofs.Registry.Extension

/-!
# Runs of calls on a registry

A registry is called from outside any number of times, in any order, and each call has a reply.  What
it replies is told by the registrations that it accepted so far, and by whether it was drained.
-/

namespace ApiSurface

/-- A call on a registry. -/
inductive Call where
  | register (key : String) (shape : Shape)
  | usePredefined (key : String)
  | get (key : String)
  | contains (key : String)
  | size
  | drain
deriving DecidableEq

/-- The reply to a call. -/
inductive Reply where
  /-- A registration is accepted, of a name that is new or not. -/
  | accepted (isNew : Bool)
  | found (shape : Option Shape)
  | contained (answer : Bool)
  | counted (n : Nat)
  | drained (entries : List (String × Shape))
  /-- The call fails. -/
  | refused (fault : Fault)
deriving DecidableEq

/-- The demand that a call makes, if it is a registration. -/
def Call.demand? : Call → Option Demand
  | .register key shape => some (.shape key shape)
  | .usePredefined key => some (.predefined key)
  | _ => none

namespace Registry

/-- The reply to a registration, and the registry after it. -/
def accept (r : Registry) (d : Demand) : Reply × Registry :=
  match r.grant d with
  | .ok (isNew, r') => (.accepted isNew, r')
  | .error fault => (.refused fault, r)

/-- The reply to a call, and the registry after it. -/
def respond (r : Registry) : Call → Reply × Registry
  | .register key shape => r.accept (.shape key shape)
  | .usePredefined key => r.accept (.predefined key)
  | .get key => (.found (r.get? key), r)
  | .contains key => (.contained (r.contains key), r)
  | .size => (.counted r.size, r)
  | .drain =>
    match r.drain with
    | .ok (entries, r') => (.drained entries, r')
    | .error c => (.refused (.ofCause c), r)

/-- The registry after some calls. -/
def after (r : Registry) (calls : List Call) : Registry :=
  calls.foldl (fun r c => (r.respond c).2) r

/-- Some calls with the replies to them. -/
def transcript (r : Registry) : List Call → List (Call × Reply)
  | [] => []
  | c :: calls => (c, (r.respond c).1) :: (r.respond c).2.transcript calls

end Registry

/-- The entries of the registrations that were accepted, in order. -/
def acceptedEntries (predefined : List (String × List String)) (replies : List (Call × Reply)) :
    List (String × Shape) :=
  replies.filterMap fun
    | (c, .accepted _) => c.demand?.bind (·.pair? predefined)
    | _ => none

/-- The reply to a registration after some that were accepted. -/
def acceptance (accepted : List (String × Shape)) (key : String) (shape : Shape) : Reply :=
  match accepted.lookup key with
  | none => .accepted true
  | some first =>
    if first = shape then .accepted false
    else .refused (.ofCause (.nameTaken key first.describe shape.describe))

/-- What an open registry holds and replies after some accepted registrations. -/
structure OpenReplies (predefined : List (String × List String)) (accepted : List (String × Shape))
    (r : Registry) : Prop where
  /-- The names stand in the order in which they were first registered. -/
  keys : r.keys = (accepted.map (·.1)).eraseDups
  /-- A name has the shape of its first registration. -/
  get : ∀ key, (r.respond (.get key)).1 = .found (accepted.lookup key)
  contains : ∀ key, (r.respond (.contains key)).1 = .contained (key ∈ accepted.map (·.1))
  size : (r.respond .size).1 = .counted (accepted.map (·.1)).eraseDups.length
  register : ∀ key shape, (r.respond (.register key shape)).1 = acceptance accepted key shape
  /-- A predefined enum is registered with its literals; another name is not found. -/
  usePredefined : ∀ key, (r.respond (.usePredefined key)).1 =
    match predefined.reverse.lookup key with
    | none => .refused (.missingKey key)
    | some values => acceptance accepted key (.enum values)
  /-- Draining gives every name with its shape, in order, and leaves an empty, closed registry. -/
  drain : ∃ es, r.respond .drain = (.drained es, ⟨[], predefined, true⟩) ∧
    es.map (·.1) = (accepted.map (·.1)).eraseDups ∧ ∀ e ∈ es, accepted.lookup e.1 = some e.2

/-- What a drained registry holds and replies. -/
structure DrainedReplies (predefined : List (String × List String)) (r : Registry) : Prop where
  keys : r.keys = []
  get : ∀ key, (r.respond (.get key)).1 = .found none
  contains : ∀ key, (r.respond (.contains key)).1 = .contained false
  size : (r.respond .size).1 = .counted 0
  register : ∀ key shape, (r.respond (.register key shape)).1 =
    .refused (.ofCause (.registerAfterDrain key))
  usePredefined : ∀ key, (r.respond (.usePredefined key)).1 =
    match predefined.reverse.lookup key with
    | none => .refused (.missingKey key)
    | some _ => .refused (.ofCause (.registerAfterDrain key))
  drain : (r.respond .drain).1 = .refused (.ofCause .drainedTwice)

namespace Registry

/-- An open registry whose names and shapes are those of some registrations, the first of each name. -/
structure Tracks (predefined : List (String × List String)) (accepted : List (String × Shape))
    (r : Registry) : Prop where
  isOpen : r.closed = false
  predefined : r.predefined = predefined
  keys : r.keys = (accepted.map (·.1)).eraseDups
  get : ∀ key, r.get? key = accepted.lookup key

/-- A registry that was drained. -/
structure Spent (predefined : List (String × List String)) (r : Registry) : Prop where
  isClosed : r.closed = true
  predefined : r.predefined = predefined
  isEmpty : r.entries = []

variable {predefined : List (String × List String)} {accepted : List (String × Shape)}
  {r : Registry}

theorem tracks_empty (predefined : List (String × List String)) :
    Tracks predefined [] (empty predefined) :=
  ⟨rfl, rfl, rfl, fun _ => rfl⟩

/-! ### One call -/

theorem respond_of_refused {c : Call} {fault : Fault} (h : (r.respond c).1 = .refused fault) :
    (r.respond c).2 = r := by
  have haccept : ∀ d, (r.accept d).1 = .refused fault → (r.accept d).2 = r := by
    intro d hd
    unfold accept at hd ⊢
    cases hg : r.grant d with
    | error _ => rfl
    | ok granted => simp [hg] at hd
  cases c with
  | register key shape => exact haccept _ h
  | usePredefined key => exact haccept _ h
  | get key => rfl
  | contains key => rfl
  | size => rfl
  | drain =>
    unfold respond at h ⊢
    cases hd : r.drain with
    | error _ => rfl
    | ok drained => simp [hd] at h

/-- The reply to a registration is told by the registrations accepted before. -/
theorem Tracks.reply_accept (h : r.Tracks predefined accepted) {d : Demand} {e : String × Shape}
    (he : d.pair? predefined = some e) : (r.accept d).1 = acceptance accepted e.1 e.2 := by
  unfold accept acceptance
  rw [grant_of_open h.isOpen (h.predefined ▸ he), h.get]
  cases accepted.lookup e.1 with
  | none => rfl
  | some first =>
    by_cases hsame : first = e.2
    · simp [hsame]
    · simp [hsame]

theorem Tracks.accept (h : r.Tracks predefined accepted) {c : Call} {d : Demand}
    (hc : c.demand? = some d) : (r.accept d).2.Tracks predefined
      (accepted ++ acceptedEntries predefined [(c, (r.accept d).1)]) := by
  unfold Registry.accept
  cases hg : r.grant d with
  | error fault => simpa [acceptedEntries] using h
  | ok granted =>
    obtain ⟨isNew, r'⟩ := granted
    obtain ⟨e, he, hcase⟩ := (grant_ok_iff h.isOpen).mp hg
    rw [h.predefined] at he
    have hentries : acceptedEntries predefined [(c, .accepted isNew)] = [e] := by
      simp [acceptedEntries, hc, he]
    have hkeys := keys_grant h.keys hg
    rw [← Demand.pair?_key he] at hkeys
    simp only [hentries]
    rcases hcase with ⟨-, hnew, rfl⟩ | ⟨-, hold, rfl⟩
    · refine ⟨h.isOpen, h.predefined, by simpa using hkeys, fun key => ?_⟩
      rw [get?_push, h.get, List.lookup_append]
    · refine ⟨h.isOpen, h.predefined, by simpa using hkeys, fun key => ?_⟩
      -- the repeated registration stands behind the first one of its name
      rw [List.lookup_append, ← h.get]
      by_cases hkey : key = e.1
      · rw [hkey, hold, Option.some_or]
      · rw [lookup_singleton, if_neg hkey, Option.or_none]

/-- **One call** that does not drain the registry keeps track of what was accepted. -/
theorem Tracks.respond (h : r.Tracks predefined accepted) {c : Call} (hc : c ≠ .drain) :
    (r.respond c).2.Tracks predefined
      (accepted ++ acceptedEntries predefined [(c, (r.respond c).1)]) := by
  cases c with
  | register key shape => exact h.accept rfl
  | usePredefined key => exact h.accept rfl
  | get key => simpa [Registry.respond, acceptedEntries] using h
  | contains key => simpa [Registry.respond, acceptedEntries] using h
  | size => simpa [Registry.respond, acceptedEntries] using h
  | drain => exact absurd rfl hc

theorem Tracks.respond_drain (h : r.Tracks predefined accepted) :
    r.respond .drain = (.drained r.entries, ⟨[], predefined, true⟩) := by
  unfold Registry.respond Registry.drain
  rw [if_neg (by simp [h.isOpen]), h.predefined]

/-- **One call** on a drained registry leaves it as it is. -/
theorem Spent.respond (h : r.Spent predefined) (c : Call) : (r.respond c).2 = r := by
  have haccept : ∀ d, (r.accept d).2 = r := by
    intro d
    unfold Registry.accept
    cases hg : r.grant d with
    | error fault => rfl
    | ok granted => exact absurd (isOpen_of_grant hg) (by simp [h.isClosed])
  cases c with
  | register key shape => exact haccept _
  | usePredefined key => exact haccept _
  | get key => rfl
  | contains key => rfl
  | size => rfl
  | drain =>
    unfold Registry.respond Registry.drain
    rw [if_pos h.isClosed]

/-! ### Runs -/

theorem acceptedEntries_cons (p : Call × Reply) (replies : List (Call × Reply)) :
    acceptedEntries predefined (p :: replies) =
      acceptedEntries predefined [p] ++ acceptedEntries predefined replies :=
  List.filterMap_append (l := [p])

/-- **A run without a drain** keeps track of what was accepted. -/
theorem Tracks.after (h : r.Tracks predefined accepted) {calls : List Call}
    (hno : .drain ∉ calls) : (r.after calls).Tracks predefined
      (accepted ++ acceptedEntries predefined (r.transcript calls)) := by
  induction calls generalizing r accepted with
  | nil => simpa [Registry.after, transcript, acceptedEntries] using h
  | cons c calls ih =>
    rw [List.mem_cons, not_or] at hno
    have hlater := ih (h.respond (Ne.symm hno.1)) hno.2
    rw [List.append_assoc, ← acceptedEntries_cons] at hlater
    exact hlater

theorem Spent.after (h : r.Spent predefined) (calls : List Call) : r.after calls = r := by
  induction calls with
  | nil => rfl
  | cons c calls ih =>
    show ((r.respond c).2).after calls = r
    rw [h.respond c, ih]

/-- **A run with a drain** leaves a drained registry. -/
theorem Tracks.spent_after (h : r.Tracks predefined accepted) {calls : List Call}
    (hdrain : .drain ∈ calls) : (r.after calls).Spent predefined := by
  induction calls generalizing r accepted with
  | nil => cases hdrain
  | cons c calls ih =>
    show ((r.respond c).2.after calls).Spent predefined
    by_cases hc : c = .drain
    · have hspent : ((r.respond c).2).Spent predefined := by
        rw [hc, h.respond_drain]
        exact ⟨rfl, rfl, rfl⟩
      rwa [hspent.after]
    · refine ih (h.respond hc) ?_
      rcases List.mem_cons.mp hdrain with rfl | hdrain
      · exact absurd rfl hc
      · exact hdrain

/-! ### What is seen from outside -/

theorem contains_eq (r : Registry) (key : String) : r.contains key = decide (key ∈ r.keys) := by
  unfold Registry.contains
  cases hget : r.get? key with
  | none =>
    have hno : key ∉ r.keys := get?_eq_none_iff.mp hget
    simp [hno]
  | some shape =>
    have hyes : key ∈ r.keys := by
      by_contra hno
      rw [get?_eq_none_iff.mpr hno] at hget
      cases hget
    simp [hyes]

theorem pair?_predefined {key : String} {values : List String}
    (hv : predefined.reverse.lookup key = some values) :
    (Demand.predefined key).pair? predefined = some (key, .enum values) :=
  Option.map_eq_some_iff.mpr ⟨values, hv, rfl⟩

/-- A demand for another one is refused, whatever the state of the registry. -/
theorem accept_unknown (hp : r.predefined = predefined) {key : String}
    (hv : predefined.reverse.lookup key = none) :
    (r.accept (.predefined key)).1 = .refused (.missingKey key) := by
  have hunknown : (Demand.predefined key).pair? r.predefined = none := by
    rw [hp]
    exact Option.map_eq_none_iff.mpr hv
  unfold Registry.accept
  rw [grant_of_unknown hunknown]
  rfl

/-- **An open registry** replies as the registrations tell that it accepted. -/
theorem Tracks.replies (h : r.Tracks predefined accepted) : OpenReplies predefined accepted r where
  keys := h.keys
  get key := congrArg Reply.found (h.get key)
  contains key := by
    show Reply.contained (r.contains key) = _
    rw [contains_eq, h.keys]
    simp
  size := by
    show Reply.counted r.entries.length = _
    rw [← h.keys, Registry.keys, List.length_map]
  register key shape := h.reply_accept (d := .shape key shape) rfl
  usePredefined key := by
    show (r.accept (.predefined key)).1 = _
    cases hv : predefined.reverse.lookup key with
    | none => exact accept_unknown h.predefined hv
    | some values => exact h.reply_accept (pair?_predefined hv)
  drain := by
    refine ⟨r.entries, h.respond_drain, h.keys, fun e he => ?_⟩
    have hnd : r.keys.Nodup := h.keys ▸ nodup_eraseDups _
    rw [← h.get]
    exact (lookup_eq_some_iff_mem hnd).mpr he

theorem Spent.keys_eq (h : r.Spent predefined) : r.keys = [] := by
  rw [Registry.keys, h.isEmpty, List.map_nil]

/-- **A drained registry** replies that it is empty and closed. -/
theorem Spent.replies (h : r.Spent predefined) : DrainedReplies predefined r where
  keys := h.keys_eq
  get key := by
    show Reply.found (r.entries.lookup key) = _
    rw [h.isEmpty, List.lookup_nil]
  contains key := by
    show Reply.contained (r.contains key) = _
    rw [contains_eq, h.keys_eq]
    simp
  size := by
    show Reply.counted r.entries.length = _
    rw [h.isEmpty, List.length_nil]
  register key shape := by
    show (r.accept (.shape key shape)).1 = _
    unfold Registry.accept
    rw [grant_of_closed h.isClosed (e := (key, shape)) rfl]
  usePredefined key := by
    show (r.accept (.predefined key)).1 = _
    cases hv : predefined.reverse.lookup key with
    | none => exact accept_unknown h.predefined hv
    | some values =>
      unfold Registry.accept
      rw [grant_of_closed h.isClosed (h.predefined.symm ▸ pair?_predefined hv)]
  drain := by
    unfold Registry.respond Registry.drain
    rw [if_pos h.isClosed]

end Registry

end ApiSurface
