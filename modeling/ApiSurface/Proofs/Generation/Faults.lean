import ApiSurface.Proofs.Code.Faults
import ApiSurface.Proofs.Generation.Emission
import ApiSurface.Proofs.Identifier.ValueName

/-!
# How a run over classes fails

The registry of a run takes registrations from the first class to the last entry, and it is drained
once, when nothing is left to visit.  So a run can fail only where something is rendered.
-/

namespace ApiSurface

/-! ### The loop -/

/-- **The loop over the registry** fails as the plans of its entries do. -/
theorem Registry.Walk.failsIn {α : Type} {body : String → Shape → Plan α}
    {predefined : List (String × List String)} {P : Fault → Prop}
    (hbody : ∀ key shape, (body key shape).FailsIn predefined P) {i : Nat} {r : Registry}
    {v : Visit α} (h : Walk body i r v) (hopen : r.closed = false)
    (hr : r.predefined = predefined) {fault : Fault} (hend : v.ending = .failed fault) :
    P fault := by
  induction h with
  | done => cases hend
  | stop _ hrun =>
    obtain rfl := Ending.failed.inj hend
    exact (hbody _ _).of_run hopen hr hrun
  | @step i r e a later _ _ _ ih =>
    -- carrying out a plan neither closes the registry nor changes what is predefined
    refine ih ?_ ?_ hend
    · rw [Plan.run_closed, hopen]
    · rw [Plan.run_predefined, hr]

/-! ### Runs -/

namespace Generation

variable {settings : Settings} {classes : List ApiClass}

theorem interfaceNames_error {c : Cause} (h : interfaceNames classes = .error c) :
    c.category = .emptyName := by
  obtain ⟨cls, -, hcls⟩ := mapM_eq_error_iff.mp h
  rcases bind_eq_error_iff.mp hcls with hname | ⟨name, -, hret⟩
  · exact category_of_translate hname
  · cases hret

theorem exists_interfaceName {names : ClassNames} (h : interfaceNames classes = .ok names)
    {cls : ApiClass} (hcls : cls ∈ classes) :
    names.lookup cls.name = some (interfaceName cls.name) := by
  obtain ⟨-, rfl⟩ := interfaceNames_ok_iff.mp h
  rw [lookup_interfaceNames, if_pos (List.mem_map_of_mem hcls)]

/-- **The classes** fail in the categories of rendering, and leave a registry that is still open. -/
theorem firstPhase_failsIn {names : ClassNames}
    (htri : Lowering.triState ∈ settings.predefinedEnums.map (·.1)) :
    (∀ fault, (firstPhase settings classes names).outcome = .error fault →
      fault.ReportsOf renderingCategories) ∧
    (firstPhase settings classes names).registry.closed = false ∧
    (firstPhase settings classes names).registry.predefined = settings.predefinedEnums := by
  obtain ⟨hout, hreg⟩ := interfaces_eq_run (context settings classes names)
    (.empty settings.predefinedEnums) classes
  unfold firstPhase
  rw [hout, hreg, Plan.run_closed, Plan.run_predefined]
  refine ⟨fun fault h => ?_, rfl, rfl⟩
  have hplan : (Plan.forEach (context settings classes names).interface
      classes).FailsIn settings.predefinedEnums (Fault.ReportsOf renderingCategories) :=
    .forEach fun cls _ =>
      failsIn_interface htri (fun _ _ => CrossReference.category_of_resolve) cls
  exact hplan.of_run rfl rfl h

/-- **A run fails** with a report of one of the categories of rendering. -/
theorem generate_failsIn (htri : Lowering.triState ∈ settings.predefinedEnums.map (·.1))
    {fault : Fault} (h : (generate settings classes).outcome = .error fault) :
    fault.ReportsOf renderingCategories := by
  obtain ⟨steps, hrun, -⟩ := runs_generate settings classes
  generalize generate settings classes = run at hrun h
  cases hrun with
  | unnamed hnames =>
    obtain rfl := Except.error.inj h
    refine ⟨_, rfl, ?_⟩
    rw [interfaceNames_error hnames]
    decide
  | refused _ hfirst =>
    obtain rfl := Except.error.inj h
    exact (firstPhase_failsIn htri).1 _ hfirst
  | failed _ _ hwalk hend =>
    obtain rfl := Except.error.inj h
    obtain ⟨-, hopen, hpredefined⟩ := firstPhase_failsIn htri
    refine hwalk.failsIn (fun key shape => ?_) hopen hpredefined hend
    exact failsIn_synthesized htri (fun _ _ => CrossReference.category_of_resolve) key shape
  | drained => cases h

theorem exists_declarationsByName {g : Generated}
    (h : (generate settings classes).outcome = .ok g) :
    ∃ units, declarationsByName (walkOf settings classes) g.synthesized = some units ∧
      units <:+ g.declarations := by
  obtain ⟨names, qs, ds, v, hphases, rfl⟩ := generate_ok_iff.mp h
  obtain ⟨hsound, hvisited, -, hresults⟩ := hphases.summary
  have hnd : (v.visited.map (·.1)).Nodup := hvisited ▸ hsound.nodup
  have hfound := declarationsByName_eq hnd (hvisited ▸ hresults.length_eq)
  rw [hvisited] at hfound
  exact ⟨v.results, hphases.walkOf_eq ▸ hfound, List.suffix_append _ _⟩

/-- **A run over classes** whose settings predefine the enum for three states comes to a result, or to
a report on a type, a name that is taken, a shape without a counterpart or an empty name.  No step
fails in another way: every class finds the name of its interface, every entry that is drained finds
its declaration by its name, and only a literal without a word has no first character to look at. -/
theorem generate_ok_or_report (settings : Settings) (classes : List ApiClass)
    (htri : Lowering.triState ∈ settings.predefinedEnums.map (·.1)) :
    ((∃ g units, (generate settings classes).outcome = .ok g ∧
        declarationsByName (walkOf settings classes) g.synthesized = some units ∧
        units <:+ g.declarations) ∨
      ∃ report, (generate settings classes).outcome = .error (.report report) ∧
        report.cause.category ∈ [.malformedType, .nameCollision, .unsupported, .emptyName]) ∧
    (∀ names, interfaceNames classes = .ok names → ∀ cls ∈ classes,
      names.lookup cls.name = some (interfaceName cls.name)) ∧
    ∀ literal, (∃ c, Identifier.valueName literal = .error c) ↔
      Identifier.specialValues.lookup literal = none ∧
        Text.runs Identifier.isWordChar literal.toList = [] := by
  refine ⟨?_, fun names hnames cls hcls => exists_interfaceName hnames hcls, fun literal => ?_⟩
  · cases h : (generate settings classes).outcome with
    | ok g =>
      obtain ⟨units, hunits, hsuffix⟩ := exists_declarationsByName h
      exact .inl ⟨g, units, rfl, hunits, hsuffix⟩
    | error fault =>
      obtain ⟨report, rfl, hcategory⟩ := generate_failsIn htri h
      exact .inr ⟨report, rfl, hcategory⟩
  · simp [Identifier.valueName_error_iff]

/-- A class with an enum that has no words in its literals. -/
def dashClass : ApiClass :=
  { name := "Rule"
    members := [{ kind := "property", name := "dash"
                  type := .union [.literal "'--'", .literal "'-'"] }] }

/-- The report on the first of these literals. -/
def dashReport : Report := ⟨.namelessLiteral "--", "Dash", ""⟩

theorem generate_ok_or_report_dashClass :
    Lowering.triState ∈ ({} : Settings).predefinedEnums.map (·.1) ∧
    (generate {} [dashClass]).outcome = .error (.report dashReport) ∧
    dashReport.cause.category ∈ [.malformedType, .nameCollision, .unsupported, .emptyName] ∧
    Text.runs Identifier.isWordChar "--".toList = [] ∧
    ∃ g units, (generate {} [boxClass]).outcome = .ok g ∧
      declarationsByName (walkOf {} [boxClass]) g.synthesized = some units ∧
      units <:+ g.declarations := by
  have htri : Lowering.triState ∈ ({} : Settings).predefinedEnums.map (·.1) := by decide
  have hdash : (generate {} [dashClass]).outcome = .error (.report dashReport) := rfl
  have hbox : ∀ fault, (generate {} [boxClass]).outcome ≠ .error fault := nofun
  obtain ⟨hends, -, hliterals⟩ := generate_ok_or_report {} [dashClass] htri
  obtain ⟨-, hwords⟩ := (hliterals "--").mp ⟨_, rfl⟩
  refine ⟨htri, hdash, ?_, hwords, ?_⟩
  · rcases hends with ⟨g, units, hok, -⟩ | ⟨report, hreport, hcategory⟩
    · rw [hdash] at hok
      cases hok
    · rw [hdash] at hreport
      obtain rfl := Fault.report.inj (Except.error.inj hreport)
      exact hcategory
  · rcases (generate_ok_or_report {} [boxClass] htri).1 with hok | ⟨report, hreport, -⟩
    · exact hok
    · exact absurd hreport (hbox _)

end Generation

end ApiSurface
