import ApiSurface.Proofs.Registry.Calls
import ApiSurface.Proofs.Registry.Mirror

/-!
# Replies after runs of calls

A store and a registry to which the same calls are made reply alike all along, so what a registry
replies after a run is also what the two structures of a store yield.
-/

namespace ApiSurface

namespace Store

/-- The reply to a registration, and the store after it. -/
def accept : Except Fault Bool × Store → Reply × Store
  | (.ok isNew, s) => (.accepted isNew, s)
  | (.error fault, s) => (.refused fault, s)

/-- The reply to a call, and the store after it. -/
def respond (s : Store) : Call → Reply × Store
  | .register key shape => accept (s.register key shape)
  | .usePredefined key => accept (s.usePredefined key)
  | .get key => (.found (s.get? key), s)
  | .contains key => (.contained (s.contains key), s)
  | .size => (.counted s.size, s)
  | .drain =>
    match s.drain with
    | (.ok entries, s) => (.drained entries, s)
    | (.error fault, s) => (.refused fault, s)

/-- The store after some calls. -/
def after (s : Store) (calls : List Call) : Store :=
  calls.foldl (fun s c => (s.respond c).2) s

/-- Some calls with the replies to them. -/
def transcript (s : Store) : List Call → List (Call × Reply)
  | [] => []
  | c :: calls => (c, (s.respond c).1) :: (s.respond c).2.transcript calls

/-- A store and a registry cannot be told apart: their next replies are the same, and the two structures
of the store are in step. A call that fails leaves the store as it is. -/
structure StandsFor (s : Store) (r : Registry) : Prop where
  mirrors : s.Mirrors r
  inStep : ∀ key, key ∈ s.order ↔ s.contains key = true
  reply : ∀ c, (s.respond c).1 = (r.respond c).1
  kept : ∀ c fault, (s.respond c).1 = .refused fault → (s.respond c).2 = s

variable {s : Store} {r : Registry}

/-- A registration is replied to alike, and one that fails leaves the store as it is. -/
theorem Mirrors.accept (h : s.Mirrors r) (d : Demand) :
    (Store.accept (s.grant d)).1 = (r.accept d).1 ∧
      (Store.accept (s.grant d)).2.Mirrors (r.accept d).2 ∧
      ∀ fault, (Store.accept (s.grant d)).1 = .refused fault → (Store.accept (s.grant d)).2 = s := by
  have hfollows := h.grant d
  unfold Registry.accept
  cases hg : r.grant d with
  | error fault =>
    rw [hg] at hfollows
    rw [show s.grant d = (.error fault, s) from hfollows]
    exact ⟨rfl, h, fun _ _ => rfl⟩
  | ok granted =>
    rw [hg] at hfollows
    obtain ⟨hresult, hmirrors⟩ := hfollows
    rcases hstep : s.grant d with ⟨result, s'⟩
    rw [hstep] at hresult hmirrors
    obtain rfl : result = .ok granted.1 := hresult
    exact ⟨rfl, hmirrors, nofun⟩

/-- **One call** has the same reply from a store and from the registry that it mirrors. -/
theorem Mirrors.respond (h : s.Mirrors r) (c : Call) :
    (s.respond c).1 = (r.respond c).1 ∧ (s.respond c).2.Mirrors (r.respond c).2 ∧
      ∀ fault, (s.respond c).1 = .refused fault → (s.respond c).2 = s := by
  cases c with
  | register key shape => exact h.accept (.shape key shape)
  | usePredefined key => exact h.accept (.predefined key)
  | get key => exact ⟨congrArg Reply.found (h.get key), h, nofun⟩
  | contains key =>
    have hcontains : s.contains key = r.contains key := congrArg Option.isSome (h.get key)
    exact ⟨congrArg Reply.contained hcontains, h, nofun⟩
  | size => exact ⟨congrArg Reply.counted h.size_eq, h, nofun⟩
  | drain =>
    have hfollows := h.drain
    unfold Store.respond Registry.respond
    cases hd : r.drain with
    | error c =>
      rw [hd] at hfollows
      rw [show s.drain = (.error (.ofCause c), s) from hfollows]
      exact ⟨rfl, h, fun _ _ => rfl⟩
    | ok drained =>
      rw [hd] at hfollows
      obtain ⟨hresult, hmirrors⟩ := hfollows
      rcases hstep : s.drain with ⟨result, s'⟩
      rw [hstep] at hresult hmirrors
      obtain rfl : result = .ok drained.1 := hresult
      exact ⟨rfl, hmirrors, nofun⟩

/-- **A run of calls** has the same replies from a store and from the registry that it mirrors. -/
theorem Mirrors.after (h : s.Mirrors r) (calls : List Call) :
    (s.after calls).Mirrors (r.after calls) ∧ s.transcript calls = r.transcript calls := by
  induction calls generalizing s r with
  | nil => exact ⟨h, rfl⟩
  | cons c calls ih =>
    obtain ⟨hreply, hnext, -⟩ := h.respond c
    obtain ⟨hafter, htranscript⟩ := ih hnext
    refine ⟨hafter, ?_⟩
    rw [transcript, Registry.transcript, hreply, htranscript]

theorem Mirrors.standsFor (h : s.Mirrors r) : s.StandsFor r where
  mirrors := h
  inStep _ := h.mem_order_iff
  reply c := (h.respond c).1
  kept c := (h.respond c).2.2

end Store

namespace Registry

/-- **Replies after a run.**  After any calls on a fresh registry, a call that fails changes nothing.
Without a drain among the calls, the registry holds the registrations that were accepted, the first
of each name, and replies accordingly; after a drain it is empty and takes nothing.  A store to which
the same calls are made has replied alike, and goes on to do so: its two structures are in step. -/
theorem respond_after (predefined : List (String × List String)) (calls : List Call) :
    (∀ c fault, (((empty predefined).after calls).respond c).1 = .refused fault →
      (((empty predefined).after calls).respond c).2 = (empty predefined).after calls) ∧
    (.drain ∉ calls → OpenReplies predefined
      (acceptedEntries predefined ((empty predefined).transcript calls))
      ((empty predefined).after calls)) ∧
    (.drain ∈ calls → DrainedReplies predefined ((empty predefined).after calls)) ∧
    (Store.empty predefined).transcript calls = (empty predefined).transcript calls ∧
    ((Store.empty predefined).after calls).StandsFor ((empty predefined).after calls) := by
  have hstart := tracks_empty predefined
  obtain ⟨hmirrors, htranscript⟩ := (Store.mirrors_empty predefined).after calls
  refine ⟨fun c fault => respond_of_refused, fun hno => ?_, fun hdrain => ?_, htranscript,
    hmirrors.standsFor⟩
  · have htracks := hstart.after hno
    rw [List.nil_append] at htracks
    exact htracks.replies
  · exact (hstart.spent_after hdrain).replies

/-- Two names, one of them registered again with its shape and then with another. -/
def sideCalls : List Call :=
  [.register "Side" (.enum ["left"]), .usePredefined "MixedState",
    .register "Side" (.enum ["left"]), .register "Side" (.enum ["right"])]

theorem respond_after_sideCalls :
    (empty [("MixedState", ["on"])]).transcript sideCalls = sideCalls.zip
      [.accepted true, .accepted true, .accepted false,
        .refused (.ofCause (.nameTaken "Side" "enum(left)" "enum(right)"))] ∧
    ((empty [("MixedState", ["on"])]).after sideCalls).keys = ["Side", "MixedState"] ∧
    (((empty [("MixedState", ["on"])]).after (sideCalls ++ [.drain])).respond
      (.usePredefined "MixedState")).1 = .refused (.ofCause (.registerAfterDrain "MixedState")) := by
  have hopen := (respond_after [("MixedState", ["on"])] sideCalls).2.1 (by decide)
  have hdrained := (respond_after [("MixedState", ["on"])] (sideCalls ++ [.drain])).2.2.1 (by decide)
  refine ⟨by decide +kernel, ?_, ?_⟩
  · rw [hopen.keys]
    decide +kernel
  · rw [hdrained.usePredefined]
    rfl

end Registry

end ApiSurface
