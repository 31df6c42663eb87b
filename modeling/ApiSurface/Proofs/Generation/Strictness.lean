import ApiSurface.Generation
import ApiSurface.Proofs.Registry.CutShort

/-!
# Strict unions

A union without an exact counterpart is written as an opaque type, or refused if unions are strict.
Nothing else depends on this setting, so a strict run is the other run up to the first such union
that is lowered.
-/

namespace ApiSurface

/-- The fault of a union without an exact counterpart, at some place. -/
def Fault.IsInexactUnion (fault : Fault) : Prop :=
  ∃ (place : Place) (forms : List String), fault = place.blame (.inexactUnion forms)

open Lowering in
/-- **Lowering** with strict unions is cut short at an inexact union. -/
theorem ref_cutShort (names : ClassNames) (place : Place) (owner : String) (member : Option Member)
    (e : TypeExpr) : (ref ⟨names, true⟩ place owner member e).CutShort Fault.IsInexactUnion
      (ref ⟨names, false⟩ place owner member e) := by
  have hunion : ∀ members, (unionRef ⟨names, true⟩ place owner member members).CutShort
      Fault.IsInexactUnion (unionRef ⟨names, false⟩ place owner member members) := by
    intro members
    unfold unionRef
    by_cases htri : isTriState members = true
    · rw [if_pos htri, if_pos htri]
      exact .refl _
    · rw [if_neg htri, if_neg htri]
      by_cases hlit : members.all (·.isLiteral) = true
      · rw [if_pos hlit, if_pos hlit]
        exact .refl _
      · rw [if_neg hlit, if_neg hlit]
        exact .stopped (List.nil_prefix) rfl ⟨place, members.map (·.form), rfl⟩
  induction e using Lowering.ref.induct with
  | case1 inner ih =>
    rw [ref, ref]
    exact ih.bind fun _ => .refl _
  | case2 rest hrest =>
    rw [ref, ref]
    · exact .refl _
    · exact hrest
    · exact hrest
  | case3 members hnull =>
    rw [ref, ref]
    · exact hunion members
    · exact hnull
    · exact hnull
  | case4 element inner hnested =>
    rw [ref, ref, hnested]
    exact .refl _
  | case5 element hone ih =>
    rw [ref, ref]
    split
    · exact .refl _
    · exact ih.bind fun _ => .refl _
  | case6 name type hlook =>
    rw [ref, ref]
    exact .refl _
  | case7 name hlook =>
    rw [ref, ref]
    exact .refl _
  | case8 text =>
    rw [ref, ref]
    exact .refl _
  | case9 properties =>
    rw [ref, ref]
    exact .refl _
  | case10 key value ihk ihv =>
    rw [ref, ref]
    exact ihk.bind fun _ => ihv.bind fun _ => .refl _
  | case11 name =>
    rw [ref, ref]
    exact .refl _

namespace Context

/-- The context with another rule for unions. -/
def withStrict (cx : Context) (strict : Bool) : Context :=
  { cx with settings := { cx.settings with strictUnions := strict } }

variable (cx : Context)

theorem typeOf_cutShort (owner : String) (m : Member) :
    ((cx.withStrict true).typeOf owner m).CutShort Fault.IsInexactUnion
      ((cx.withStrict false).typeOf owner m) :=
  ref_cutShort cx.classNames _ owner (some m) m.type

theorem argumentsFrom_cutShort (place : Place) (owner method : String) (taken : List String)
    (args : List Member) :
    ((cx.withStrict true).argumentsFrom place owner method taken args).CutShort
      Fault.IsInexactUnion ((cx.withStrict false).argumentsFrom place owner method taken args) := by
  induction args generalizing taken with
  | nil => exact .refl _
  | cons arg args ih =>
    unfold argumentsFrom
    refine .bind (.refl _) fun name => ?_
    by_cases htaken : taken.contains name = true
    · rw [if_pos htaken, if_pos htaken]
      exact .refl _
    · rw [if_neg htaken, if_neg htaken]
      refine .bind (ref_cutShort cx.classNames _ owner (some arg) arg.type) fun type => ?_
      exact .bind (ih _) fun later => .refl _

theorem declaration_cutShort (owner : String) (m : Member) :
    ((cx.withStrict true).declaration owner m).CutShort Fault.IsInexactUnion
      ((cx.withStrict false).declaration owner m) := by
  have htype := cx.typeOf_cutShort owner m
  unfold declaration
  by_cases hp : m.kind = "property"
  · rw [if_pos hp, if_pos hp]
    exact htype.bind fun type => .refl _
  rw [if_neg hp, if_neg hp]
  by_cases he : m.kind = "event"
  · rw [if_pos he, if_pos he]
    exact htype.bind fun type => .refl _
  rw [if_neg he, if_neg he]
  by_cases hm : m.kind = "method"
  · rw [if_pos hm, if_pos hm]
    refine htype.bind fun type => .bind (.refl _) fun name => ?_
    exact (cx.argumentsFrom_cutShort _ owner m.name [] _).bind fun arguments => .refl _
  · rw [if_neg hm, if_neg hm]
    exact .refl _

/-- **The interface of a class** with strict unions is cut short at an inexact union. -/
theorem interface_cutShort (c : ApiClass) :
    ((cx.withStrict true).interface c).CutShort Fault.IsInexactUnion
      ((cx.withStrict false).interface c) := by
  have hlines : ∀ m, ((cx.withStrict true).memberLines c.name m).CutShort Fault.IsInexactUnion
      ((cx.withStrict false).memberLines c.name m) :=
    fun m => (cx.declaration_cutShort c.name m).bind fun line => .refl _
  refine .bind (.refl _) fun name => .bind (.refl _) fun comment => ?_
  exact .bind (.forEach hlines c.members) fun members => .refl _

/-- **A synthesized declaration** with strict unions is cut short at an inexact union. -/
theorem synthesized_cutShort (key : String) (shape : Shape) :
    ((cx.withStrict true).synthesized key shape).CutShort Fault.IsInexactUnion
      ((cx.withStrict false).synthesized key shape) := by
  cases shape with
  | enum values => exact .refl _
  | object properties =>
    have hproperty : ∀ p, ((cx.withStrict true).resultProperty key p).CutShort
        Fault.IsInexactUnion ((cx.withStrict false).resultProperty key p) :=
      fun p => (cx.typeOf_cutShort key p).bind fun type => .refl _
    exact .bind (.forEach hproperty properties) fun blocks => .refl _

end Context

namespace Generation

variable (cx : Context)

/-- **Rendering the classes** with strict unions comes to the same, or to an inexact union after
some of the same messages. -/
theorem interfaces_cutShort (r : Registry) (cs : List ApiClass) :
    interfaces (cx.withStrict true) r cs = interfaces (cx.withStrict false) r cs ∨
      ∃ fault, (interfaces (cx.withStrict true) r cs).outcome = .error fault ∧
        fault.IsInexactUnion ∧
        (interfaces (cx.withStrict true) r cs).log <+:
          (interfaces (cx.withStrict false) r cs).log := by
  induction cs generalizing r with
  | nil => exact .inl rfl
  | cons c cs ih =>
    have hmessage : classMessage (cx.withStrict true) c = classMessage (cx.withStrict false) c :=
      rfl
    unfold interfaces
    simp only [hmessage]
    rcases (cx.interface_cutShort c).run r with hsame | ⟨fault, hout, hstop⟩
    · rw [hsame]
      cases (((cx.withStrict false).interface c).run r).outcome with
      | error fault => exact .inl rfl
      | ok d =>
        simp only
        rcases ih (((cx.withStrict false).interface c).run r).registry with
          hsame | ⟨fault, hout, hstop, hlog⟩
        · exact .inl (by rw [hsame])
        · refine .inr ⟨fault, ?_, hstop, List.cons_prefix_cons.mpr ⟨rfl, hlog⟩⟩
          rw [hout]
          rfl
    · rw [hout]
      refine .inr ⟨fault, rfl, hstop, ?_⟩
      cases (((cx.withStrict false).interface c).run r).outcome with
      | error fault => exact List.prefix_refl _
      | ok d => exact ⟨_, rfl⟩

/-- **What is left after the classes** with strict unions comes to the same, or to an inexact union
after some of the same messages. -/
theorem finish_cutShort (rendered : List Declaration) (r : Registry) :
    finish (cx.withStrict true) rendered r = finish (cx.withStrict false) rendered r ∨
      ∃ fault, (finish (cx.withStrict true) rendered r).outcome = .error fault ∧
        fault.IsInexactUnion ∧
        (finish (cx.withStrict true) rendered r).log <+:
          (finish (cx.withStrict false) rendered r).log := by
  have hvisit := Registry.visitFrom_cutShort cx.synthesized_cutShort r.weight 0 r
  have hlog : ∀ b, (finish (cx.withStrict b) rendered r).log =
      (synthesize (cx.withStrict b) r).visited.map fun e => entryMessage e.1 := by
    intro b
    unfold finish
    simp only
    split
    · rfl
    · split <;> rfl
  rcases hvisit with hsame | ⟨fault, hend, hstop, hvisited⟩
  · refine .inl ?_
    have hsame' : synthesize (cx.withStrict true) r = synthesize (cx.withStrict false) r := hsame
    unfold finish
    rw [hsame']
  · have hend' : (synthesize (cx.withStrict true) r).ending = .failed fault := hend
    refine .inr ⟨fault, ?_, hstop, ?_⟩
    · simp only [finish, Visit.outcome, hend']
    · rw [hlog, hlog]
      exact hvisited.map _

/-- **A strict run** comes to the same, or to an inexact union after some of the same messages. -/
theorem generate_cutShort (settings : Settings) (classes : List ApiClass) :
    generate { settings with strictUnions := true } classes =
        generate { settings with strictUnions := false } classes ∨
      ∃ fault, (generate { settings with strictUnions := true } classes).outcome = .error fault ∧
        fault.IsInexactUnion ∧
        (generate { settings with strictUnions := true } classes).log <+:
          (generate { settings with strictUnions := false } classes).log := by
  unfold generate
  cases interfaceNames classes with
  | error c => exact .inl rfl
  | ok names =>
    have hcontext : ∀ b, context { settings with strictUnions := b } classes names =
        (context settings classes names).withStrict b := fun _ => rfl
    simp only
    rw [hcontext true, hcontext false]
    rcases interfaces_cutShort (context settings classes names) (.empty settings.predefinedEnums)
      classes with hsame | ⟨fault, hout, hstop, hlog⟩
    · rw [hsame]
      cases (interfaces ((context settings classes names).withStrict false)
        (.empty settings.predefinedEnums) classes).outcome with
      | error fault => exact .inl rfl
      | ok rendered =>
        simp only
        rcases finish_cutShort (context settings classes names) rendered
          (interfaces ((context settings classes names).withStrict false)
            (.empty settings.predefinedEnums) classes).registry with
          hsame | ⟨fault, hout, hstop, hlog⟩
        · exact .inl (by rw [hsame])
        · exact .inr ⟨fault, hout, hstop, (List.prefix_append_right_inj _).mpr hlog⟩
    · rw [hout]
      refine .inr ⟨fault, rfl, hstop, ?_⟩
      cases (interfaces ((context settings classes names).withStrict false)
        (.empty settings.predefinedEnums) classes).outcome with
      | error fault => exact hlog
      | ok rendered => exact hlog.trans (List.prefix_append _ _)

end Generation

/-- An inexact union is reported as unsupported, also in the type of an argument. -/
theorem category_report_inexactUnion (place : Place) (forms : List String) :
    (place.report (.inexactUnion forms)).cause.category = .unsupported := by
  cases h : place.argument <;> simp [Place.report, h, Cause.category]

/-- **Strict unions only reject.** A run with strict unions comes to the same as the run without, in
its declarations, its synthesized entries and its messages, or in its fault and the place of it; or
it ends as unsupported, at a union without an exact counterpart, after some of the same messages.
So a strict run that succeeds is the run without strict unions. -/
theorem generate_strict (settings : Settings) (classes : List ApiClass) :
    (generate { settings with strictUnions := true } classes =
        generate { settings with strictUnions := false } classes ∨
      ∃ (place : Place) (forms : List String),
        (generate { settings with strictUnions := true } classes).outcome =
          .error (.report (place.report (.inexactUnion forms))) ∧
        (place.report (.inexactUnion forms)).cause.category = .unsupported ∧
        (generate { settings with strictUnions := true } classes).log <+:
          (generate { settings with strictUnions := false } classes).log) ∧
      ∀ g, (generate { settings with strictUnions := true } classes).outcome = .ok g →
        generate { settings with strictUnions := false } classes =
          generate { settings with strictUnions := true } classes := by
  rcases Generation.generate_cutShort settings classes with
    hsame | ⟨_, hout, ⟨place, forms, rfl⟩, hlog⟩
  · exact ⟨.inl hsame, fun _ _ => hsame.symm⟩
  · refine ⟨.inr ⟨place, forms, hout, category_report_inexactUnion place forms, hlog⟩, ?_⟩
    intro g hg
    rw [hout] at hg
    cases hg

example : (generate { strictUnions := true }
    [{ name := "Page", members := [{ kind := "property", name := "size"
                                     type := .union [.primitive "number", .primitive "string"] }] }]
    ).outcome = .error (.report ⟨.inexactUnion ["Primitive", "Primitive"], "Page", "size"⟩) := by
  rfl

end ApiSurface
