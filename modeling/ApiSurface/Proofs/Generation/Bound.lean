import ApiSurface.Proofs.Generation.Phases

/-!
# The length of a run

The loop over the registry goes on while rendering adds entries to it.  `Generation.Runs` is a run
with this loop left without a bound, and counts its steps.
-/

namespace ApiSurface

/-- The number of unions and object types in the members of some classes. -/
def classesWeight (classes : List ApiClass) : Nat :=
  classes.foldr (fun c n => weightOfMembers c.members + n) 0

namespace Generation

variable {settings : Settings} {classes : List ApiClass} {names : ClassNames}

/-- What rendering the classes comes to. -/
def firstPhase (settings : Settings) (classes : List ApiClass) (names : ClassNames) :
    Progress (List Declaration) :=
  interfaces (context settings classes names) (.empty settings.predefinedEnums) classes

/-- The messages of a walk. -/
def walkLog (v : Visit Declaration) : List String := v.visited.map fun (key, _) => entryMessage key

/-- A run with a number of steps in its loop, which has no bound. -/
inductive Runs (settings : Settings) (classes : List ApiClass) : Nat → Generation → Prop
  /-- A class has no name. -/
  | unnamed {c : Cause} (hnames : interfaceNames classes = .error c) :
    Runs settings classes 0 ⟨[], .error (.ofCause c)⟩
  /-- A class cannot be rendered. -/
  | refused {names : ClassNames} {fault : Fault} (hnames : interfaceNames classes = .ok names)
    (hfirst : (firstPhase settings classes names).outcome = .error fault) :
    Runs settings classes 0 ⟨(firstPhase settings classes names).log, .error fault⟩
  /-- An entry of the registry cannot be rendered. -/
  | failed {names : ClassNames} {ds : List Declaration} {v : Visit Declaration} {fault : Fault}
    (hnames : interfaceNames classes = .ok names)
    (hfirst : (firstPhase settings classes names).outcome = .ok ds)
    (hwalk : Registry.Walk (context settings classes names).synthesized 0
      (firstPhase settings classes names).registry v) (hend : v.ending = .failed fault) :
    Runs settings classes v.visited.length
      ⟨(firstPhase settings classes names).log ++ walkLog v, .error fault⟩
  /-- All entries are rendered, and the registry is drained. -/
  | drained {names : ClassNames} {ds : List Declaration} {v : Visit Declaration}
    {entries : List (String × Shape)} {r : Registry} (hnames : interfaceNames classes = .ok names)
    (hfirst : (firstPhase settings classes names).outcome = .ok ds)
    (hwalk : Registry.Walk (context settings classes names).synthesized 0
      (firstPhase settings classes names).registry v) (hend : v.ending = .complete)
    (hdrain : v.registry.drain = .ok (entries, r)) :
    Runs settings classes v.visited.length
      ⟨(firstPhase settings classes names).log ++ walkLog v, .ok ⟨ds ++ v.results, entries⟩⟩

theorem entriesWeight_interfaces_le {cx : Context} {qs : List Request} {ds : List Declaration}
    (predefined : List (String × List String))
    (h : (Plan.forEach cx.interface classes).Yields qs ds) :
    entriesWeight (requested predefined qs) ≤ classesWeight classes := by
  obtain ⟨parts, hparts, rfl, -⟩ := Plan.yields_forEach_iff.mp h
  clear h
  induction hparts with
  | nil => exact Nat.zero_le _
  | cons hpart _ ih =>
    rw [List.flatMap_cons, requested_append, entriesWeight_append]
    exact Nat.add_le_add (demandsWeight_interface_le hpart) ih

/-- **The classes** leave a sound registry that weighs no more than they do. -/
theorem firstPhase_registry {ds : List Declaration}
    (hfirst : (firstPhase settings classes names).outcome = .ok ds) :
    (firstPhase settings classes names).registry.Sound ∧
      (firstPhase settings classes names).registry.weight ≤ classesWeight classes := by
  obtain ⟨hout, hreg⟩ := interfaces_eq_run (context settings classes names)
    (.empty settings.predefinedEnums) classes
  obtain ⟨hgranted, hyield⟩ := Plan.run_ok_iff.mp (hout.symm.trans hfirst)
  obtain ⟨es, hsub, hes, -, hs, -⟩ :=
    Registry.file_ok (Registry.sound_empty settings.predefinedEnums) hgranted
  have heq : (firstPhase settings classes names).registry =
      (Registry.empty settings.predefinedEnums).push es := by
    unfold firstPhase
    rw [hreg, Plan.run_registry, hes]
  refine ⟨heq ▸ hs, ?_⟩
  calc (firstPhase settings classes names).registry.weight
      = entriesWeight es := by rw [heq, Registry.weight_eq_entriesWeight]; rfl
    _ ≤ entriesWeight (requested settings.predefinedEnums _) := entriesWeight_le_of_sublist hsub
    _ ≤ classesWeight classes := entriesWeight_interfaces_le _ ⟨rfl, hyield⟩

/-- **The loop of a run ends**, after no more steps than the classes weigh, and the run is the one
with this loop. -/
theorem runs_generate (settings : Settings) (classes : List ApiClass) :
    ∃ steps, Runs settings classes steps (generate settings classes) ∧
      steps ≤ classesWeight classes := by
  unfold generate
  cases hnames : interfaceNames classes with
  | error c => exact ⟨0, .unnamed hnames, Nat.zero_le _⟩
  | ok names =>
    have hphase : interfaces (context settings classes names) (.empty settings.predefinedEnums)
        classes = firstPhase settings classes names := rfl
    simp only [hphase]
    cases hfirst : (firstPhase settings classes names).outcome with
    | error fault => exact ⟨0, .refused hnames hfirst, Nat.zero_le _⟩
    | ok ds =>
      obtain ⟨hs, hweight⟩ := firstPhase_registry hfirst
      have hwalk := walk_synthesize (context settings classes names) hs
      have hlength : (synthesize (context settings classes names)
          (firstPhase settings classes names).registry).visited.length ≤
            (firstPhase settings classes names).registry.weight :=
        Registry.visitFrom_visited_length_le _ 0 _
      refine ⟨_, ?_, Nat.le_trans hlength hweight⟩
      cases hend : (synthesize (context settings classes names)
          (firstPhase settings classes names).registry).ending with
      | failed fault =>
        have hrun := Runs.failed hnames hfirst hwalk hend
        simpa [finish, walkLog, Visit.outcome, hend] using hrun
      | unfinished => exact absurd hend hwalk.ending_ne_unfinished
      | complete =>
        have hdrain := hwalk.drain_eq hs hend
        have hrun := Runs.drained hnames hfirst hwalk hend hdrain
        simpa [finish, walkLog, Visit.outcome, hend, hdrain] using hrun

/-- **A run is bounded by its classes.**  Its loop ends after no more steps than there are unions
and object types in the members of the classes, their arguments and properties at any depth.  A run
that succeeds synthesizes one declaration in each step. -/
theorem generate_steps_le (settings : Settings) (classes : List ApiClass) :
    ∃ steps, Runs settings classes steps (generate settings classes) ∧
      steps ≤ classesWeight classes ∧
      ∀ g, (generate settings classes).outcome = .ok g →
        g.synthesized.length = steps ∧ g.synthesized.length ≤ classesWeight classes := by
  obtain ⟨steps, hrun, hle⟩ := runs_generate settings classes
  refine ⟨steps, hrun, hle, fun g hg => ?_⟩
  have hlength : g.synthesized.length = steps := by
    generalize generate settings classes = run at hrun hg
    cases hrun with
    | unnamed => cases hg
    | refused => cases hg
    | failed => cases hg
    | drained hnames hfirst hwalk hend hdrain =>
      cases hg
      obtain ⟨hs, -⟩ := firstPhase_registry hfirst
      obtain ⟨es, hreg, -, hvis, -⟩ := hwalk.complete hs hend
      rw [hwalk.drain_eq hs hend] at hdrain
      cases hdrain
      rw [hvis, hreg, List.drop_zero]
  exact ⟨hlength, hlength ▸ hle⟩

end Generation

end ApiSurface
