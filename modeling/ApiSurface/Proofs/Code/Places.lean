import ApiSurface.Proofs.Code.Faults
import ApiSurface.Proofs.Code.Raising

/-!
# Where rendering reports

A report names an owner and a member of it.  If every link can be resolved, rendering reports only
at what is rendered, however deep the fault lies in a type, an argument or its options.
-/

namespace ApiSurface

/-- The report is about a member of an owner; the empty member stands for the owner itself. -/
def Report.At (owner member : String) (report : Report) : Prop :=
  report.owner = owner ∧ report.member = member

instance (owner member : String) (report : Report) : Decidable (report.At owner member) :=
  inferInstanceAs (Decidable (_ ∧ _))

theorem allows_reports {place : Place} {P : Report → Prop} (h : ∀ c, P (place.report c)) :
    Allows (fun q => ∀ c, P (q.place.report c)) (fun fault => ∀ report, fault = .report report →
      P report) place := by
  refine ⟨fun c _ report hreport => ?_, fun _ _ => h, h⟩
  obtain rfl := Fault.report.inj hreport
  exact h c

section Rendering

variable {cx : Context} (hlinks : ∀ target, ∃ answer, cx.links target = .ok answer)

include hlinks

theorem not_error_of_resolved {F : Fault → Prop} (target : String) (c : Cause)
    (h : cx.links target = .error c) : F (({} : Place).blame c) := by
  obtain ⟨answer, hanswer⟩ := hlinks target
  rw [hanswer] at h
  cases h

/-- **A member** is reported at the member, also what is wrong with the types of its arguments. -/
theorem reports_memberLines (owner : String) (m : Member) :
    (cx.memberLines owner m).Reports (Report.At owner m.name) :=
  .of_ends (ends_memberLines (not_error_of_resolved hlinks)
    fun _ => allows_reports fun _ => ⟨rfl, rfl⟩) (fun _ h => h) fun report h => h report rfl

theorem reports_resultProperty (key : String) (p : Member) :
    (cx.resultProperty key p).Reports (Report.At key p.name) :=
  .of_ends (ends_resultProperty (not_error_of_resolved hlinks)
    (allows_reports fun _ => ⟨rfl, rfl⟩)) (fun _ h => h) fun report h => h report rfl

end Rendering

/-- **An enum** is reported at its key, whichever of its values is at fault. -/
theorem reports_enum (cx : Context) (key : String) (values : List String) :
    (cx.synthesized key (.enum values)).Reports (Report.At key "") := by
  refine ⟨fun q hq => absurd hq List.not_mem_nil, fun report h => ?_⟩
  have h' : (enumDeclaration cx.settings.indent key values).mapError Fault.report =
      .error (.report report) := h
  cases hdeclared : enumDeclaration cx.settings.indent key values with
  | ok d =>
    rw [hdeclared] at h'
    cases h'
  | error report' =>
    rw [hdeclared] at h'
    obtain rfl : report' = report := Fault.report.inj (Except.error.inj h')
    obtain ⟨before, literal, after, -, -, hfault⟩ := exists_enumFault hdeclared
    cases hfault with
    | nameless => exact ⟨rfl, rfl⟩
    | repeated => exact ⟨rfl, rfl⟩

/-- **Rendering reports at what is rendered**, if every link can be resolved.  On any registry:

* a member of an owner is reported at that owner and member, wherever in its type, in an argument or
  in options the fault lies;
* a class that is synthesized under a key is reported at the key and at its first property that
  cannot be rendered, after those before it have been;
* an enum is reported at its key and at no member.

Actions that raise their faults without a place, and locate them on their way out, end alike and leave
the same registry. -/
theorem rendering_report_at (cx : Context)
    (hlinks : ∀ target, ∃ answer, cx.links target = .ok answer) (r : Registry) :
    (∀ owner m report, ((cx.memberLines owner m).run r).outcome = .error (.report report) →
      report.At owner m.name) ∧
    (∀ key properties report,
      ((cx.synthesized key (.object properties)).run r).outcome = .error (.report report) →
      ∃ before p after blocks, properties = before ++ p :: after ∧
        ((Plan.forEach (cx.resultProperty key) before).run r).outcome = .ok blocks ∧
        ((cx.resultProperty key p).run
          ((Plan.forEach (cx.resultProperty key) before).run r).registry).outcome =
            .error (.report report) ∧
        report.At key p.name) ∧
    (∀ key values report,
      ((cx.synthesized key (.enum values)).run r).outcome = .error (.report report) →
      report.At key "") ∧
    (∀ owner m, (Raising.memberLines cx owner m).on r =
      (((cx.memberLines owner m).run r).outcome, ((cx.memberLines owner m).run r).registry)) ∧
    ∀ key shape, (Raising.synthesized cx key shape).on r =
      (((cx.synthesized key shape).run r).outcome, ((cx.synthesized key shape).run r).registry) := by
  refine ⟨fun owner m report h => (reports_memberLines hlinks owner m).of_run h,
    fun key properties report h => ?_,
    fun key values report h => (reports_enum cx key values).of_run h,
    fun owner m => congrArg (Action.on · r) (Raising.memberLines_eq_act cx owner m),
    fun key shape => congrArg (Action.on · r) (Raising.synthesized_eq_act cx key shape)⟩
  have hclass : cx.synthesized key (.object properties) =
      Plan.forEach (cx.resultProperty key) properties >>= fun blocks => pure
        ⟨key, .classType, Declaration.braced cx.settings.indent ["public class " ++ key]
          (Declaration.separated blocks)⟩ := rfl
  rw [hclass, Plan.run_bind] at h
  cases hblocks : ((Plan.forEach (cx.resultProperty key) properties).run r).outcome with
  | ok blocks =>
    rw [hblocks] at h
    cases h
  | error fault =>
    rw [hblocks] at h
    obtain rfl : fault = .report report := Except.error.inj h
    obtain ⟨before, p, after, blocks, rfl, hbefore, hfail⟩ := Plan.run_forEach_error hblocks
    exact ⟨before, p, after, blocks, rfl, hbefore, hfail,
      (reports_resultProperty hlinks key p).of_run hfail⟩

/-- A method with an unknown type in options that stand in options. -/
def clickMember : Member :=
  { kind := "method", name := "click", type := .primitive "void"
    args := [{ kind := "argument", name := "options"
               type := .union [.primitive "null",
                 .shape [{ kind := "property", name := "options"
                           type := .shape [{ kind := "property", name := "delay"
                                             type := .primitive "float" }] }]] }] }

/-- An object type with two properties that cannot be rendered, behind one that can. -/
def gridProperties : List Member :=
  [{ kind := "property", name := "size", type := .primitive "number" },
    { kind := "property", name := "cells", type := .array (.array (.primitive "number")) },
    { kind := "property", name := "", type := .primitive "string" }]

theorem rendering_report_at_clickMember :
    (((({} : Context).memberLines "Page" clickMember).run (.empty [])).outcome =
        .error (.report ⟨.inArgument "delay" (.unknownPrimitive "float"), "Page", "click"⟩) ∧
      Report.At "Page" clickMember.name
        ⟨.inArgument "delay" (.unknownPrimitive "float"), "Page", "click"⟩) ∧
    (((({} : Context).synthesized "PageGrid" (.object gridProperties)).run (.empty [])).outcome =
        .error (.report ⟨.nestedArray, "PageGrid", "cells"⟩) ∧
      ∃ before p after, gridProperties = before ++ p :: after ∧
        Report.At "PageGrid" p.name ⟨.nestedArray, "PageGrid", "cells"⟩) ∧
    ((({} : Context).synthesized "Fit" (.enum ["no-fit", "noFit"])).run (.empty [])).outcome =
        .error (.report ⟨.repeatedValue "no-fit" "noFit" "NoFit", "Fit", ""⟩) ∧
      Report.At "Fit" "" ⟨.repeatedValue "no-fit" "noFit" "NoFit", "Fit", ""⟩ := by
  have h := rendering_report_at {} (fun _ => ⟨none, rfl⟩) (.empty [])
  refine ⟨⟨rfl, h.1 _ _ _ rfl⟩, ⟨rfl, ?_⟩, rfl, h.2.2.1 _ ["no-fit", "noFit"] _ rfl⟩
  obtain ⟨before, p, after, _, hsplit, _, _, hp⟩ := h.2.1 "PageGrid" gridProperties _ rfl
  exact ⟨before, p, after, hsplit, hp⟩

end ApiSurface
