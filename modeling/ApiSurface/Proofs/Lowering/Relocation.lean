import ApiSurface.Proofs.Code.Faults
import ApiSurface.Proofs.Lowering.Effect
import ApiSurface.Proofs.Lowering.Reference

/-!
# Lowering for another place

The place that lowering is given is where faults are found, and nothing else depends on it.
-/

namespace ApiSurface

open Lowering

/-! ### Plans that report elsewhere -/

/-- A fault that has been found at a place is the same fault at another. -/
theorem Registry.refusal_refusal (place : Place) {place' : Place} (h : place'.argument = none)
    (fault : Fault) : refusal place (refusal place' fault) = refusal place fault := by
  cases fault with
  | report report =>
    have hreport : place'.report report.cause = ⟨report.cause, place'.owner, place'.member⟩ := by
      unfold Place.report
      rw [h]
    show place.blame (place'.report report.cause).cause = place.blame report.cause
    rw [hreport]
  | _ => rfl

namespace Plan

variable {α β : Type} {place place' : Place}

/-- A plan with all that it reports at another place. -/
def reportedAt (place : Place) (p : Plan α) : Plan α :=
  ⟨p.requests.map fun q => { q with place }, p.outcome.mapError (Registry.refusal place)⟩

@[simp] theorem reportedAt_pure (a : α) : (pure a : Plan α).reportedAt place = pure a := rfl

@[simp] theorem reportedAt_request (d : Demand) :
    (request place' d).reportedAt place = request place d := rfl

theorem reportedAt_blame (h : place'.argument = none) (c : Cause) :
    (blame place' c : Plan α).reportedAt place = blame place c := by
  have hsame := Registry.refusal_refusal place h (.ofCause c)
  show (⟨[], .error (Registry.refusal place (place'.blame c))⟩ : Plan α) = _
  rw [show place'.blame c = Registry.refusal place' (.ofCause c) from rfl, hsame]
  rfl

theorem reportedAt_lift (h : place'.argument = none) (x : Except Cause α) :
    (lift place' x).reportedAt place = lift place x := by
  cases x with
  | ok a => rfl
  | error c => exact reportedAt_blame h c

@[simp] theorem reportedAt_bind (p : Plan α) (f : α → Plan β) :
    (p >>= f).reportedAt place = p.reportedAt place >>= fun a => (f a).reportedAt place := by
  cases h : p.outcome with
  | error fault =>
    have hmoved : (p.reportedAt place).outcome = .error (Registry.refusal place fault) := by
      simp [reportedAt, h, Except.mapError]
    rw [bind_of_error h, bind_of_error hmoved]
    rfl
  | ok a =>
    have hmoved : (p.reportedAt place).outcome = .ok a := by
      simp [reportedAt, h, Except.mapError]
    rw [bind_of_ok h, bind_of_ok hmoved]
    simp [reportedAt]

theorem file_reportedAt {qs : List Request} (h : ∀ q ∈ qs, q.place.argument = none)
    (r : Registry) : r.file (qs.map fun q => { q with place }) =
      ⟨(r.file qs).added, (r.file qs).refused.map (Registry.refusal place),
        (r.file qs).registry⟩ := by
  induction qs generalizing r with
  | nil => rfl
  | cons q qs ih =>
    rw [List.map_cons, Registry.file, Registry.file]
    cases r.grant q.demand with
    | error fault =>
      have hsame := Registry.refusal_refusal place (h q List.mem_cons_self) fault
      simp only [Option.map_some, hsame]
    | ok granted =>
      obtain ⟨isNew, r'⟩ := granted
      simp only [ih (fun q' hq' => h q' (List.mem_cons_of_mem _ hq')) r']
      cases isNew <;> rfl

/-- **A plan that reports elsewhere** does the same to every registry. -/
theorem run_reportedAt {p : Plan α} (h : ∀ q ∈ p.requests, q.place.argument = none)
    (r : Registry) : (p.reportedAt place).run r =
      ⟨(p.run r).added, (p.run r).outcome.mapError (Registry.refusal place),
        (p.run r).registry⟩ := by
  have hfile : r.file (p.reportedAt place).requests = _ := file_reportedAt h r
  cases hrefused : (r.file p.requests).refused with
  | none =>
    simp only [run, hfile, hrefused, Option.map_none]
    rfl
  | some fault =>
    simp only [run, hfile, hrefused, Option.map_some]
    rfl

end Plan

/-! ### Lowering -/

section Relocation

variable (v : Vocabulary) {place place' : Place} (owner : String) (member : Option Member)

theorem enumRef_reportedAt (h : place'.argument = none) (members : List TypeExpr) :
    (enumRef place' owner member members).reportedAt place =
      enumRef place owner member members := by
  unfold enumRef
  simp only [Plan.reportedAt_bind, Plan.reportedAt_lift h, Plan.reportedAt_request,
    Plan.reportedAt_pure]

theorem unionRef_reportedAt (h : place'.argument = none) (members : List TypeExpr) :
    (unionRef v place' owner member members).reportedAt place =
      unionRef v place owner member members := by
  unfold unionRef
  split_ifs
  · rfl
  · exact enumRef_reportedAt owner member h members
  · exact Plan.reportedAt_blame h _
  · rfl

theorem objectRef_reportedAt (h : place'.argument = none) (properties : List Member) :
    (objectRef place' owner member properties).reportedAt place =
      objectRef place owner member properties := by
  unfold objectRef
  split_ifs
  · rfl
  · cases member with
    | none => exact Plan.reportedAt_blame h _
    | some m => rfl

/-- **Lowering for another place** is the same plan, reported there. -/
theorem ref_reportedAt (h : place'.argument = none) (e : TypeExpr) :
    (ref v place' owner member e).reportedAt place = ref v place owner member e := by
  induction e using Lowering.ref.induct with
  | case1 inner ih =>
    rw [ref, ref, Plan.reportedAt_bind, ih]
    rfl
  | case2 rest hrest =>
    rw [ref, ref]
    · exact Plan.reportedAt_blame h _
    · exact hrest
    · exact hrest
  | case3 members hnull =>
    rw [ref, ref]
    · exact unionRef_reportedAt v owner member h members
    · exact hnull
    · exact hnull
  | case4 element inner hnested =>
    rw [ref, ref, hnested]
    exact Plan.reportedAt_blame h _
  | case5 element hone ih =>
    rw [ref_array_of_ne v place' owner member hone, ref_array_of_ne v place owner member hone,
      Plan.reportedAt_bind, ih]
    rfl
  | case6 name type hlook =>
    rw [ref, ref, hlook]
    rfl
  | case7 name hlook =>
    rw [ref, ref, hlook]
    exact Plan.reportedAt_blame h _
  | case8 text =>
    rw [ref, ref]
    exact Plan.reportedAt_blame h _
  | case9 properties =>
    rw [ref, ref]
    exact objectRef_reportedAt owner member h properties
  | case10 key value ihk ihv =>
    rw [ref, ref]
    simp only [Plan.reportedAt_bind, Plan.reportedAt_pure, ihk, ihv]
  | case11 name =>
    rw [ref, ref]
    rfl

/-- **Lowering at any place** does to every registry what lowering at the member does, and fails with
the same fault, reported at the place. -/
theorem run_ref (place : Place) (e : TypeExpr) (r : Registry) :
    (ref v place owner member e).run r =
      ⟨(e.lowering v owner member r).added,
        (e.lowering v owner member r).outcome.mapError (Registry.refusal place),
        (e.lowering v owner member r).registry⟩ := by
  let home : Place := ⟨owner, (member.map (·.name)).getD "", none⟩
  have hallows : Allows (fun q : Request => q.place = home) (fun _ => True) home :=
    ⟨fun _ _ => trivial, fun _ _ => rfl, rfl⟩
  have hplaces : ∀ q ∈ (e.lowered v owner member).requests, q.place.argument = none := by
    intro q hq
    rw [(ends_ref hallows v owner member e).asks q hq]
  have hmoved : (e.lowered v owner member).reportedAt place = ref v place owner member e :=
    ref_reportedAt v owner member rfl e
  rw [← hmoved]
  exact Plan.run_reportedAt hplaces r

end Relocation

end ApiSurface
