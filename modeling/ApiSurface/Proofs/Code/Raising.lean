import ApiSurface.Code.Raising
import ApiSurface.Proofs.Code.Options
import ApiSurface.Proofs.Lowering.Reference
import ApiSurface.Proofs.Registry.Grants

/-!
# Faults that are located on their way out

A plan knows from the start where it reports.  An action raises its faults without a place, and
those who call it fill the place in, or put another in its stead.  Rendering in one way and in the
other comes to the same on every registry.
-/

namespace ApiSurface

variable {α β σ : Type}

/-! ### Actions -/

namespace Action

variable {x : Action α} {f : α → Action β} {g g' : Fault → Fault}

theorem ext {y : Action α} (h : ∀ r, x.on r = y.on r) : x = y := funext h

theorem on_bind (x : Action α) (f : α → Action β) (r : Registry) :
    (x >>= f).on r = match x.on r with
      | (.ok a, r') => (f a).on r'
      | (.error fault, r') => (.error fault, r') := by
  have hrun : (x >>= f).on r = match x.on r with
      | (y, r') => ExceptT.bindCont (m := StateM Registry) f y r' := rfl
  rw [hrun]
  rcases x.on r with ⟨_ | _, r'⟩ <;> rfl

theorem on_onFault (x : Action α) (g : Fault → Fault) (r : Registry) :
    (x.onFault g).on r = ((x.on r).1.mapError g, (x.on r).2) := by
  unfold onFault on ExceptT.run StateT.run
  simp only [tryCatch, tryCatchThe, MonadExceptOf.tryCatch, ExceptT.tryCatch, ExceptT.mk, bind,
    StateT.bind]
  rcases x r with ⟨_ | _, r'⟩ <;> rfl

theorem on_get (r : Registry) : (get : Action Registry).on r = (.ok r, r) := rfl

theorem on_grant_of_ok {d : Demand} {r r' : Registry} {isNew : Bool}
    (h : r.grant d = .ok (isNew, r')) : (grant d).on r = (.ok (), r') := by
  simp only [grant, on_bind, on_get, h]
  rfl

theorem on_grant_of_error {d : Demand} {r : Registry} {fault : Fault}
    (h : r.grant d = .error fault) : (grant d).on r = (.error fault, r) := by
  simp only [grant, on_bind, on_get, h]
  rfl

@[simp] theorem onFault_pure (a : α) : (pure a : Action α).onFault g = pure a := rfl

/-- What is done to the faults of two actions in a row is done to those of each. -/
theorem onFault_bind : (x >>= f).onFault g = x.onFault g >>= fun a => (f a).onFault g := by
  refine ext fun r => ?_
  rw [on_onFault, on_bind, on_bind, on_onFault]
  rcases x.on r with ⟨_ | _, r'⟩
  · rfl
  · exact (on_onFault _ g r').symm

theorem onFault_onFault : (x.onFault g).onFault g' = x.onFault (g' ∘ g) := by
  refine ext fun r => ?_
  rw [on_onFault, on_onFault, on_onFault]
  rcases x.on r with ⟨_ | _, r'⟩ <;> rfl

end Action

/-! ### Plans as actions -/

open ApiSurface.Action

/-- The action that carries out a plan. -/
def Plan.act (p : Plan α) : Action α :=
  ExceptT.mk fun r => ((p.run r).outcome, (p.run r).registry)

namespace Plan

theorem on_act (p : Plan α) (r : Registry) :
    p.act.on r = ((p.run r).outcome, (p.run r).registry) := rfl

@[simp] theorem act_pure (a : α) : (pure a : Plan α).act = pure a := rfl

@[simp] theorem act_bind (p : Plan α) (f : α → Plan β) :
    (p >>= f).act = p.act >>= fun a => (f a).act := by
  refine Action.ext fun r => ?_
  rw [on_act, on_bind, on_act, run_bind]
  cases (p.run r).outcome <;> rfl

theorem act_forEach (f : α → Plan β) (as : List α) :
    (forEach f as).act = as.mapM fun a => (f a).act := by
  induction as with
  | nil => rfl
  | cons a as ih =>
    simp only [forEach_cons, List.mapM_cons, act_bind, act_pure, ih]

theorem act_passOver (step : σ → Member → Plan σ) (ms : List Member) (found : σ) :
    (passOver step ms found).act = passOver (fun found m => (step found m).act) ms found := by
  have := Plan.lawfulMonad
  rw [passOver_eq_foldlM, passOver_eq_foldlM]
  induction leaves ms generalizing found with
  | nil => rfl
  | cons m ms ih => simp only [List.foldlM_cons, act_bind, ih]

end Plan

/-! ### Placing faults -/

/-- A change that gives the faults without a place this place. -/
structure Places (place : Place) (g : Fault → Fault) : Prop where
  blame : ∀ c, g (.ofCause c) = place.blame c
  missingKey : ∀ key, g (.missingKey key) = .missingKey key

namespace Places

variable {place : Place} {g : Fault → Fault}

theorem id : Places {} (fun fault => fault) := ⟨fun _ => rfl, fun _ => rfl⟩

theorem locate (owner member : String) :
    Places ⟨owner, member, none⟩ (Fault.locate owner member) :=
  ⟨fun _ => rfl, fun _ => rfl⟩

/-- Whoever locates once more finds the place filled in. -/
theorem locate_again (owner member : String) :
    Places ⟨owner, member, none⟩ (Fault.locate owner member ∘ Fault.locate owner member) := by
  refine ⟨fun c => ?_, fun _ => rfl⟩
  show Fault.report ⟨c, _, _⟩ = .report ⟨c, owner, member⟩
  simp [Report.locate]

/-- What has been located at an argument is put at the method, and stays there. -/
theorem throughMethod (owner method name : String) :
    Places ⟨owner, method, some name⟩ (Fault.locate owner method ∘
      Fault.inArgument owner method name ∘ Fault.locate owner name) := by
  refine ⟨fun c => ?_, fun _ => rfl⟩
  show Fault.report ⟨.inArgument name c, _, _⟩ = .report ⟨.inArgument name c, owner, method⟩
  simp

variable (h : Places place g)

include h

theorem raise (c : Cause) : (raise c : Action α).onFault g = (Plan.blame place c).act := by
  show (throw (g (.ofCause c)) : Action α) = throw (place.blame c)
  rw [h.blame]

theorem ofCause (x : Except Cause α) : (ofCause x).onFault g = (Plan.lift place x).act := by
  cases x with
  | ok a => rfl
  | error c => exact h.raise c

/-- A registration that is refused is raised without a place. -/
theorem grant (d : Demand) : (grant d).onFault g = (Plan.request place d).act := by
  refine Action.ext fun r => ?_
  rw [on_onFault, Plan.on_act]
  cases hg : r.grant d with
  | ok granted =>
    obtain ⟨isNew, r'⟩ := granted
    have hfile := Registry.file_cons_of_grant (q := ⟨d, place⟩) hg []
    simp only [Plan.run, Plan.request, hfile, on_grant_of_ok hg]
    rfl
  | error fault =>
    have hplaced : g fault = Registry.refusal place fault := by
      rcases Registry.grant_error_cases hg with ⟨c, rfl⟩ | ⟨key, -, -, rfl⟩
      · exact h.blame c
      · exact h.missingKey key
    simp only [Plan.run, Plan.request, Registry.file, hg, on_grant_of_error hg, Except.mapError,
      hplaced]

end Places

/-! ### Types -/

namespace Raising

section Lowering

variable {place : Place} {g : Fault → Fault} (h : Places place g) (v : Vocabulary) (owner : String)
  (member : Option Member)

include h

theorem enumRef_onFault (members : List TypeExpr) : (enumRef owner member members).onFault g =
    (Lowering.enumRef place owner member members).act := by
  unfold enumRef Lowering.enumRef
  simp only [onFault_bind, h.ofCause, h.grant, onFault_pure, Plan.act_bind, Plan.act_pure]

theorem objectRef_onFault (properties : List Member) :
    (objectRef owner member properties).onFault g =
      (Lowering.objectRef place owner member properties).act := by
  unfold objectRef Lowering.objectRef
  split
  · rfl
  · cases member with
    | none => exact h.raise _
    | some m => simp only [onFault_bind, h.grant, onFault_pure, Plan.act_bind, Plan.act_pure]

theorem unionRef_onFault (members : List TypeExpr) : (unionRef v owner member members).onFault g =
    (Lowering.unionRef v place owner member members).act := by
  unfold unionRef Lowering.unionRef
  split_ifs
  · simp only [onFault_bind, h.grant, onFault_pure, Plan.act_bind, Plan.act_pure]
  · exact enumRef_onFault h owner member members
  · exact h.raise _
  · rfl

/-- **Types.**  What raises its faults without a place, with the place filled in afterwards, is what
has been given the place from the start. -/
theorem ref_onFault (e : TypeExpr) :
    (ref v owner member e).onFault g = (Lowering.ref v place owner member e).act := by
  induction e using Lowering.ref.induct with
  | case1 inner ih =>
    rw [ref, Lowering.ref, onFault_bind, ih, Plan.act_bind]
    rfl
  | case2 rest hrest =>
    rw [ref, Lowering.ref]
    · exact h.raise _
    · exact hrest
    · exact hrest
  | case3 members hnull =>
    rw [ref, Lowering.ref]
    · exact unionRef_onFault h v owner member members
    · exact hnull
    · exact hnull
  | case4 element inner hnested =>
    rw [ref, Lowering.ref, hnested]
    exact h.raise _
  | case5 element hone ih =>
    rw [ref, ref_array_of_ne v place owner member hone, Plan.act_bind, ← ih]
    split
    · rename_i inner heq
      exact absurd heq (hone inner)
    · rw [onFault_bind]
      rfl
  | case6 name type hlook =>
    rw [ref, Lowering.ref, hlook]
    rfl
  | case7 name hlook =>
    rw [ref, Lowering.ref, hlook]
    exact h.raise _
  | case8 text =>
    rw [ref, Lowering.ref]
    exact h.raise _
  | case9 properties =>
    rw [ref, Lowering.ref]
    exact objectRef_onFault h owner member properties
  | case10 key value ihk ihv =>
    rw [ref, Lowering.ref]
    simp only [onFault_bind, ihk, ihv, onFault_pure, Plan.act_bind, Plan.act_pure]
  | case11 name =>
    rw [ref, Lowering.ref]
    rfl

end Lowering

theorem lower_eq_act (v : Vocabulary) (owner : String) (member : Option Member) (e : TypeExpr) :
    lower v owner member e = (e.lowered v owner member).act :=
  ref_onFault (.locate _ _) v owner member e

/-! ### Members -/

section Rendering

variable (cx : Context) (owner : String) (m : Member)

theorem typeOf_locate : (typeOf cx owner m).locate owner m.name = (cx.typeOf owner m).act := by
  unfold typeOf lower Action.locate
  rw [onFault_onFault]
  exact ref_onFault (.locate_again owner m.name) cx.vocabulary owner (some m) m.type

theorem addArgument_locate (method : String) (found : List Argument) (arg : Member) :
    (addArgument cx owner method found arg).locate owner method =
      (cx.argumentStep ⟨owner, method, none⟩ owner method found arg).act := by
  unfold addArgument Context.argumentStep typeOf lower Action.locate
  simp only [onFault_bind, (Places.locate owner method).ofCause, Plan.act_bind]
  congr 1
  funext name
  split
  · exact (Places.locate owner method).raise _
  · simp only [onFault_bind, onFault_onFault, onFault_pure, Plan.act_bind, Plan.act_pure]
    have htype := ref_onFault (.throughMethod owner method arg.name) cx.vocabulary owner (some arg)
      arg.type
    rw [← htype]
    rfl

/-- **Arguments.**  The types of all arguments are reported through the method, in options at any
depth, and their names are located at it. -/
theorem arguments_locate : (arguments cx owner m).locate owner m.name =
    (cx.arguments ⟨owner, m.name, none⟩ owner m).act := by
  rw [cx.arguments_eq_passOver, Plan.act_passOver, arguments, passOver_eq_foldlM,
    passOver_eq_foldlM]
  generalize ([] : List Argument) = found
  induction leaves m.args generalizing found with
  | nil => rfl
  | cons arg args ih =>
    rw [List.foldlM_cons, List.foldlM_cons, ← addArgument_locate]
    exact onFault_bind.trans (congrArg _ (funext ih))

theorem declaration_locate :
    (declaration cx owner m).locate owner m.name = (cx.declaration owner m).act := by
  have htype := typeOf_locate cx owner m
  have harguments := arguments_locate cx owner m
  unfold Action.locate at htype harguments ⊢
  unfold declaration Context.declaration
  split_ifs
  · simp only [onFault_bind, htype, (Places.locate owner m.name).ofCause, onFault_pure,
      Plan.act_bind, Plan.act_pure]
  · simp only [onFault_bind, htype, (Places.locate owner m.name).ofCause, onFault_pure,
      Plan.act_bind, Plan.act_pure]
  · simp only [onFault_bind, htype, harguments, (Places.locate owner m.name).ofCause, onFault_pure,
      Plan.act_bind, Plan.act_pure]
  · exact (Places.locate owner m.name).raise _

/-- What nobody locates has no place. -/
theorem ofCause_eq_act (x : Except Cause α) : ofCause x = (Plan.lift {} x).act := by
  rw [← Places.id.ofCause]
  cases x <;> rfl

/-- **A member** is rendered alike, and reported at the same place. -/
theorem memberLines_eq_act : memberLines cx owner m = (cx.memberLines owner m).act := by
  unfold memberLines Context.memberLines Context.docLines
  rw [declaration_locate, ofCause_eq_act, Plan.act_bind]
  simp only [Plan.act_bind, Plan.act_pure]

theorem interface_eq_act (c : ApiClass) : interface cx c = (cx.interface c).act := by
  have hmembers : memberLines cx c.name = fun m => (cx.memberLines c.name m).act :=
    funext (memberLines_eq_act cx c.name)
  unfold interface Context.interface Context.docLines
  simp only [Plan.act_bind, Plan.act_pure, Plan.act_forEach, ofCause_eq_act, hmembers]

/-! ### Synthesized declarations -/

theorem resultProperty_eq_act (key : String) :
    resultProperty cx key m = (cx.resultProperty key m).act := by
  have htype := typeOf_locate cx key m
  unfold Action.locate at htype
  unfold resultProperty propertyParts Context.resultProperty Context.docLines Action.locate
  simp only [onFault_bind, htype, (Places.locate key m.name).ofCause, onFault_pure, bind_assoc,
    pure_bind, Plan.act_bind, Plan.act_pure]
  simp only [ofCause_eq_act]

theorem enumValuesFrom_eq_act (key : String) (taken : List (String × String))
    (literals : List String) : enumValuesFrom key taken literals =
      (Plan.ofExcept ((ApiSurface.enumValuesFrom key taken literals).mapError .report)).act := by
  induction literals generalizing taken with
  | nil => rfl
  | cons literal literals ih =>
    rw [enumValuesFrom, ApiSurface.enumValuesFrom]
    cases Identifier.valueName literal with
    | error c => rfl
    | ok name =>
      have hname : (Action.ofCause (.ok name)).locate key "" = pure name := rfl
      simp only [hname, pure_bind]
      cases taken.lookup name with
      | some first => rfl
      | none =>
        simp only [ih]
        cases ApiSurface.enumValuesFrom key ((name, literal) :: taken) literals <;> rfl

/-- **A synthesized declaration** is rendered alike, and reported at the same place. -/
theorem synthesized_eq_act (key : String) (shape : Shape) :
    synthesized cx key shape = (cx.synthesized key shape).act := by
  cases shape with
  | object properties =>
    show resultClass cx key properties = (cx.resultClass key properties).act
    have hblocks : resultProperty cx key = fun p => (cx.resultProperty key p).act :=
      funext fun p => resultProperty_eq_act cx p key
    unfold resultClass Context.resultClass
    simp only [Plan.act_bind, Plan.act_pure, Plan.act_forEach, hblocks]
  | enum values =>
    simp only [synthesized, Context.synthesized, enumDeclaration, enumValuesFrom_eq_act]
    cases ApiSurface.enumValuesFrom key [] values <;> rfl

end Rendering

end Raising

end ApiSurface
