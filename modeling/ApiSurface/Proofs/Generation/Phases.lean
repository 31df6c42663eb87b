import ApiSurface.Generation
import ApiSurface.Proofs.Code.Outline

/-!
# The phases of a run

A run names the interfaces, renders the classes, walks the registry they leave, and drains it.
-/

namespace ApiSurface

namespace Generation

/-- The name of the interface of a class. -/
def interfaceName (name : String) : String := "I" ++ Identifier.capitalize name

theorem translate_interface {name : String} {result : String} :
    Identifier.translate "interface" name none = .ok result ↔
      name ≠ "" ∧ result = interfaceName name := by
  unfold Identifier.translate
  by_cases hname : name = ""
  · rw [if_pos hname]
    constructor
    · intro h
      cases h
    · rintro ⟨hne, -⟩
      exact absurd hname hne
  · rw [if_neg hname, if_neg (by decide)]
    show Except.ok (interfaceName name) = .ok result ↔ _
    rw [Except.ok.injEq]
    exact ⟨fun h => ⟨hname, h.symm⟩, fun h => h.2.symm⟩

theorem interfaceNames_ok_iff {classes : List ApiClass} {names : ClassNames} :
    interfaceNames classes = .ok names ↔ (∀ c ∈ classes, c.name ≠ "") ∧
      names = classes.map fun c => (c.name, interfaceName c.name) := by
  unfold interfaceNames
  induction classes generalizing names with
  | nil =>
    show Except.ok [] = Except.ok names ↔ _
    rw [Except.ok.injEq]
    exact ⟨fun h => ⟨by simp, h.symm⟩, fun h => h.2.symm⟩
  | cons c cs ih =>
    rw [List.mapM_cons]
    cases hc : Identifier.translate "interface" c.name none with
    | error cause =>
      refine ⟨fun h => by simp [bind, Except.bind] at h, ?_⟩
      rintro ⟨hne, -⟩
      rw [translate_interface.mpr ⟨hne c (by simp), rfl⟩] at hc
      cases hc
    | ok name =>
      obtain ⟨hne, rfl⟩ := translate_interface.mp hc
      cases hcs : cs.mapM (fun c => do
          return (c.name, ← Identifier.translate "interface" c.name none)) with
      | error cause =>
        have hno : ¬ ((∀ c ∈ cs, c.name ≠ "") ∧
            cs.map (fun c => (c.name, interfaceName c.name)) =
              cs.map fun c => (c.name, interfaceName c.name)) := by
          intro h
          rw [ih.mpr h] at hcs
          cases hcs
        refine ⟨fun h => by simp [bind, Except.bind, pure, Except.pure] at h, ?_⟩
        rintro ⟨hne', -⟩
        exact absurd ⟨fun c hc => hne' c (List.mem_cons_of_mem _ hc), rfl⟩ hno
      | ok rest =>
        obtain ⟨hrest, rfl⟩ := ih.mp hcs
        simp only [bind, Except.bind, pure, Except.pure, Except.ok.injEq, List.map_cons]
        constructor
        · rintro rfl
          refine ⟨?_, rfl⟩
          intro c' hc'
          rcases List.mem_cons.mp hc' with rfl | hc'
          · exact hne
          · exact hrest c' hc'
        · rintro ⟨-, rfl⟩
          rfl

theorem lookup_interfaceNames (classes : List ApiClass) (name : String) :
    (classes.map fun c => (c.name, interfaceName c.name)).lookup name =
      if name ∈ classes.map (·.name) then some (interfaceName name) else none := by
  induction classes with
  | nil => rfl
  | cons c cs ih =>
    rw [List.map_cons, List.lookup_cons, ih, List.map_cons]
    by_cases hn : name = c.name
    · subst hn
      simp
    · have hb : (name == c.name) = false := by simpa using hn
      simp [hb, hn]

/-- What the rendering of some classes depends on if all of them have names. -/
def namedContext (settings : Settings) (classes : List ApiClass) : Context :=
  context settings classes (classes.map fun c => (c.name, interfaceName c.name))

/-- **Rendering classes** is carrying out one plan, the interfaces one after the other. -/
theorem interfaces_eq_run (cx : Context) (r : Registry) (cs : List ApiClass) :
    (interfaces cx r cs).outcome = ((Plan.forEach cx.interface cs).run r).outcome ∧
      (interfaces cx r cs).registry = ((Plan.forEach cx.interface cs).run r).registry := by
  induction cs generalizing r with
  | nil => exact ⟨rfl, rfl⟩
  | cons c cs ih =>
    have hpure : ∀ (ds : List Declaration) (r : Registry),
        (pure ds : Plan (List Declaration)).run r = ⟨[], .ok ds, r⟩ := fun _ _ => rfl
    rw [Plan.forEach_cons, Plan.run_bind, interfaces]
    cases hrun : ((cx.interface c).run r).outcome with
    | error fault => exact ⟨rfl, rfl⟩
    | ok d =>
      obtain ⟨hout, hreg⟩ := ih ((cx.interface c).run r).registry
      simp only [Plan.run_bind, hout, hreg]
      cases ((Plan.forEach cx.interface cs).run ((cx.interface c).run r).registry).outcome with
      | error fault => exact ⟨rfl, rfl⟩
      | ok ds =>
        simp only [hpure]
        exact ⟨rfl, trivial⟩

/-- **The bounded visit of a run** is the walk: the weight of the registry cuts nothing off. -/
theorem walk_synthesize (cx : Context) {r : Registry} (hs : r.Sound) :
    Registry.Walk cx.synthesized 0 r (synthesize cx r) := by
  refine Registry.walk_visitFrom
    (Registry.visitFrom_ending_ne_unfinished hs (thrifty_synthesized cx _) ?_)
  exact Nat.le_of_eq (by rw [List.drop_zero, Registry.weight_eq_entriesWeight])

/-- What is left after the interfaces succeeds if and only if the walk is complete. -/
theorem finish_ok_iff {cx : Context} {rendered : List Declaration} {r : Registry} (hs : r.Sound)
    {g : Generated} : (finish cx rendered r).outcome = .ok g ↔ ∃ v,
      Registry.Walk cx.synthesized 0 r v ∧ v.ending = .complete ∧
        g = ⟨rendered ++ v.results, v.registry.entries⟩ := by
  have hwalk := walk_synthesize cx hs
  unfold finish
  constructor
  · intro h
    cases hend : (synthesize cx r).ending with
    | failed fault => simp [Visit.outcome, hend] at h
    | unfinished => exact absurd hend hwalk.ending_ne_unfinished
    | complete =>
      simp only [Visit.outcome, hend, hwalk.drain_eq hs hend, Except.ok.injEq] at h
      exact ⟨_, hwalk, hend, h.symm⟩
  · rintro ⟨v, hv, hend, rfl⟩
    obtain rfl := hwalk.unique hv
    simp [Visit.outcome, hend, hwalk.drain_eq hs hend]

end Generation

/-- What a successful run passes through: the names of the interfaces, the requests and declarations
of the classes, and the walk over the registry. -/
structure Phases (settings : Settings) (classes : List ApiClass) (names : ClassNames)
    (qs : List Request) (ds : List Declaration) (v : Visit Declaration) : Prop where
  named : Generation.interfaceNames classes = .ok names
  interfaces : (Plan.forEach (Generation.context settings classes names).interface classes).Yields
    qs ds
  granted : ((Registry.empty settings.predefinedEnums).file qs).refused = none
  walk : Registry.Walk (Generation.context settings classes names).synthesized 0
    ((Registry.empty settings.predefinedEnums).file qs).registry v
  complete : v.ending = .complete

namespace Phases

open Generation

variable {settings : Settings} {classes : List ApiClass} {names : ClassNames} {qs : List Request}
  {ds : List Declaration} {v : Visit Declaration}

theorem context_eq (h : Phases settings classes names qs ds v) :
    context settings classes names = namedContext settings classes := by
  obtain ⟨-, rfl⟩ := interfaceNames_ok_iff.mp h.named
  rfl

theorem interface_of_class (h : Phases settings classes names qs ds v) :
    List.Forall₂ (fun c d => ∃ part, ((context settings classes names).interface c).Yields part d ∧
      ∀ q ∈ part, q ∈ qs) classes ds := by
  obtain ⟨parts, hparts, rfl, rfl⟩ := Plan.yields_forEach_iff.mp h.interfaces
  rw [List.forall₂_map_right_iff]
  refine (List.forall₂_iff_zip.mpr ⟨hparts.length_eq, fun {c part} hmem => ?_⟩)
  have hyield := List.forall₂_zip hparts hmem
  refine ⟨part.1, hyield, fun q hq => ?_⟩
  exact List.mem_flatMap.mpr ⟨part, (List.of_mem_zip hmem).2, hq⟩

theorem filed (h : Phases settings classes names qs ds v) :
    ∃ es, es.Sublist (requested settings.predefinedEnums qs) ∧
      ((Registry.empty settings.predefinedEnums).file qs).registry =
        (Registry.empty settings.predefinedEnums).push es ∧
      ((Registry.empty settings.predefinedEnums).push es).Sound ∧
      Covers settings.predefinedEnums
        ((Registry.empty settings.predefinedEnums).push es).table qs := by
  obtain ⟨es, hsub, hreg, -, hs, hall⟩ :=
    Registry.file_ok (Registry.sound_empty settings.predefinedEnums) h.granted
  exact ⟨es, hsub, hreg, hs, hall⟩

/-- **After a run** the registry is sound and holds exactly the entries that were visited; the
requests of the classes, and those of the entries rendered, are among them. -/
theorem summary (h : Phases settings classes names qs ds v) :
    v.registry.Sound ∧ v.visited = v.registry.entries ∧
      Covers settings.predefinedEnums v.registry.table qs ∧
      List.Forall₂ (fun e d => ∃ qs, ((context settings classes names).synthesized e.1 e.2).Yields
          qs d ∧ Covers settings.predefinedEnums v.registry.table qs)
        v.registry.entries v.results := by
  obtain ⟨es, -, hreg, hs, hall⟩ := h.filed
  have hwalk := h.walk
  rw [hreg] at hwalk
  obtain ⟨es', hreg', hs', hvis, hres⟩ := hwalk.complete hs h.complete
  rw [List.drop_zero] at hvis
  rw [hvis] at hres
  rw [hreg']
  exact ⟨hs', hvis, hall.mono (Registry.table_subset_push _ _), hres⟩

end Phases

open Generation in
/-- **A run succeeds** if and only if it passes through all phases. -/
theorem generate_ok_iff {settings : Settings} {classes : List ApiClass} {g : Generated} :
    (generate settings classes).outcome = .ok g ↔ ∃ names qs ds v,
      Phases settings classes names qs ds v ∧ g = ⟨ds ++ v.results, v.registry.entries⟩ := by
  have hs₀ := Registry.sound_empty settings.predefinedEnums
  unfold generate
  cases hnames : interfaceNames classes with
  | error cause =>
    refine ⟨fun h => by simp at h, ?_⟩
    rintro ⟨names, qs, ds, v, h, -⟩
    have hnamed := h.named
    rw [hnames] at hnamed
    cases hnamed
  | ok names =>
    obtain ⟨hout, hreg⟩ := interfaces_eq_run (context settings classes names)
      (.empty settings.predefinedEnums) classes
    rw [Plan.run_registry] at hreg
    simp only
    constructor
    · intro h
      cases hfirst : (interfaces (context settings classes names)
          (.empty settings.predefinedEnums) classes).outcome with
      | error fault => simp [hfirst] at h
      | ok ds =>
        obtain ⟨hgranted, hyield⟩ := Plan.run_ok_iff.mp (hout.symm.trans hfirst)
        obtain ⟨es, -, hes, -, hs, -⟩ := Registry.file_ok hs₀ hgranted
        simp only [hfirst, hreg] at h
        obtain ⟨v, hv, hend, rfl⟩ := (finish_ok_iff (hes ▸ hs)).mp h
        exact ⟨names, _, ds, v, ⟨hnames, ⟨rfl, hyield⟩, hgranted, hv, hend⟩, rfl⟩
    · rintro ⟨names', qs, ds, v, h, rfl⟩
      obtain rfl : names' = names := Except.ok.inj (h.named.symm.trans hnames)
      obtain ⟨hqs, hds⟩ := h.interfaces
      obtain ⟨es, -, hes, -, hs, -⟩ := Registry.file_ok hs₀ h.granted
      rw [Plan.run_ok_iff.mpr ⟨hqs ▸ h.granted, hds⟩] at hout
      rw [hqs] at hreg
      simp only [hout, hreg]
      exact (finish_ok_iff (hes ▸ hs)).mpr ⟨v, h.walk, h.complete, rfl⟩

end ApiSurface
