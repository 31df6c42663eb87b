import ApiSurface.Proofs.Code.Agreement
import ApiSurface.Proofs.CrossReference.Resolve
import ApiSurface.Proofs.Generation.Closure

/-!
# The order of the classes

The order in which classes stand decides when an entry is registered first and where a refusal is
met, but not what is registered: as least sets the entries of two orders are the same.
-/

namespace ApiSurface

/-- The declaration that a plan comes to; one without a name if it fails. -/
def Plan.declared (p : Plan Declaration) : Declaration :=
  p.outcome.toOption.getD ⟨"", .interfaceType, []⟩

theorem Plan.Yields.declared_eq {p : Plan Declaration} {qs : List Request} {d : Declaration}
    (h : p.Yields qs d) : d = p.declared := by
  unfold Plan.declared
  rw [h.2]
  rfl

/-- Plans that all come to results whose requests lie in a table do so together. -/
theorem Plan.exists_yields_forEach {α β : Type} {f : α → Plan β}
    {predefined : List (String × List String)} {S : Set (String × Shape)} {as : List α}
    (h : ∀ a ∈ as, ∃ qs b, (f a).Yields qs b ∧ Covers predefined S qs) :
    ∃ qs bs, (Plan.forEach f as).Yields qs bs ∧ Covers predefined S qs := by
  induction as with
  | nil => exact ⟨[], [], Plan.yields_pure_iff.mpr ⟨rfl, rfl⟩, by simp [Covers]⟩
  | cons a as ih =>
    obtain ⟨qs, b, hb, hqs⟩ := h a List.mem_cons_self
    obtain ⟨qs', bs, hbs, hqs'⟩ := ih fun a ha => h a (List.mem_cons_of_mem _ ha)
    obtain ⟨parts, hparts, rfl, rfl⟩ := Plan.yields_forEach_iff.mp hbs
    refine ⟨_, _, Plan.yields_forEach_iff.mpr ⟨(qs, b) :: parts, .cons hb hparts, rfl, rfl⟩, ?_⟩
    intro q hq
    rcases List.mem_append.mp hq with hq | hq
    · exact hqs q hq
    · exact hqs' q hq

theorem ClosedUnderDemand.perm {predefined : List (String × List String)}
    {classes classes' : List ApiClass} (hp : classes.Perm classes') {S : Set (String × Shape)}
    (h : ClosedUnderDemand predefined classes S) : ClosedUnderDemand predefined classes' S :=
  ⟨fun c hc => h.classes c (hp.mem_iff.mpr hc), h.entries⟩

open Generation

/-- **Classes with distinct names** are rendered in contexts that agree, whatever their order. -/
theorem namedContext_agrees (settings : Settings) {classes classes' : List ApiClass}
    (hp : classes.Perm classes') (hnd : (classes.map (·.name)).Nodup) :
    (namedContext settings classes).Agrees (namedContext settings classes') := by
  refine ⟨rfl, CrossReference.resolve_perm hp hnd, fun name => ?_⟩
  show (classes.map fun c => (c.name, interfaceName c.name)).lookup name =
    (classes'.map fun c => (c.name, interfaceName c.name)).lookup name
  rw [lookup_interfaceNames, lookup_interfaceNames]
  exact if_congr (hp.map _).mem_iff rfl rfl

/-- **A run passes through all phases** if every class and every entry of a consistent table can be
rendered and asks for entries of the table only. -/
theorem exists_phases {settings : Settings} {classes : List ApiClass}
    {S : Set (String × Shape)} (hS : Consistent S) (hnames : ∀ c ∈ classes, c.name ≠ "")
    (hclasses : ∀ c ∈ classes, ∃ qs d, ((namedContext settings classes).interface c).Yields qs d ∧
      Covers settings.predefinedEnums S qs)
    (hentries : ∀ e ∈ S, ∃ qs d,
      ((namedContext settings classes).synthesized e.1 e.2).Yields qs d ∧
        Covers settings.predefinedEnums S qs) :
    ∃ names qs ds v, Phases settings classes names qs ds v := by
  have hs := Registry.sound_empty settings.predefinedEnums
  obtain ⟨qs, ds, hyield, hqs⟩ := Plan.exists_yields_forEach hclasses
  have hgranted := Registry.file_granted hs hS (fun e he => nomatch he) hqs
  obtain ⟨es, hsub, hreg, -, hs', -⟩ := Registry.file_ok hs hgranted
  have hstart : ((Registry.empty settings.predefinedEnums).push es).table ⊆ S :=
    fun e he => hqs.mem (hsub.subset he)
  have hwalk := walk_synthesize (namedContext settings classes) hs'
  have hcomplete := (hwalk.completes hs' hS hstart hentries).1
  exact ⟨_, qs, ds, _, interfaceNames_ok_iff.mpr ⟨hnames, rfl⟩, hyield, hgranted, hreg ▸ hwalk,
    hcomplete⟩

namespace Phases

variable {settings : Settings} {classes classes' : List ApiClass} {names : ClassNames}
  {qs : List Request} {ds : List Declaration} {v : Visit Declaration}

/-- **A run in another order** succeeds as well: the entries of the first run are a table for it. -/
theorem reorder (h : Phases settings classes names qs ds v) (hp : classes.Perm classes')
    (hnd : (classes.map (·.name)).Nodup) :
    ∃ names' qs' ds' v', Phases settings classes' names' qs' ds' v' := by
  have hagree := namedContext_agrees settings hp hnd
  refine exists_phases h.summary.1.consistent ?_ ?_ ?_
  · intro c hc
    exact (interfaceNames_ok_iff.mp h.named).1 c (hp.mem_iff.mpr hc)
  · intro c hc
    obtain ⟨part, d, hyield, hcovers⟩ := h.interface_covered (hp.mem_iff.mpr hc)
    rw [hagree.interface_eq] at hyield
    exact ⟨part, d, hyield, hcovers⟩
  · intro e he
    obtain ⟨part, d, hyield, hcovers⟩ := h.synthesized_covered he
    rw [hagree.synthesized_eq] at hyield
    exact ⟨part, d, hyield, hcovers⟩

theorem declarations_eq (h : Phases settings classes names qs ds v) :
    ds = classes.map (fun c => ((namedContext settings classes).interface c).declared) ∧
      v.results = v.registry.entries.map fun e =>
        ((namedContext settings classes).synthesized e.1 e.2).declared := by
  obtain ⟨-, -, -, hres⟩ := h.summary
  have hinterfaces := h.interface_of_class
  rw [h.context_eq] at hinterfaces hres
  constructor
  · rw [← List.forall₂_eq_eq_eq, List.forall₂_map_right_iff]
    exact hinterfaces.flip.imp fun d c ⟨part, hyield, _⟩ => Plan.Yields.declared_eq hyield
  · rw [← List.forall₂_eq_eq_eq, List.forall₂_map_right_iff]
    exact hres.flip.imp fun d e ⟨part, hyield, _⟩ => Plan.Yields.declared_eq hyield

/-- **The entries** of two runs over the same classes are the same up to order. -/
theorem entries_perm {names' : ClassNames} {qs' : List Request} {ds' : List Declaration}
    {v' : Visit Declaration} (h : Phases settings classes names qs ds v)
    (h' : Phases settings classes' names' qs' ds' v') (hp : classes.Perm classes') :
    v.registry.entries.Perm v'.registry.entries := by
  have hset : v.registry.table = v'.registry.table := by
    apply Set.Subset.antisymm
    · exact h.isLeast.2 (h'.closed.perm hp.symm)
    · exact h'.isLeast.2 (h.closed.perm hp)
  have hnd : v.registry.entries.Nodup := .of_map _ h.summary.1.nodup
  have hnd' : v'.registry.entries.Nodup := .of_map _ h'.summary.1.nodup
  exact (List.perm_ext_iff_of_nodup hnd hnd').mpr (Set.ext_iff.mp hset)

end Phases

/-- **The order of the classes does not matter.**  For classes with distinct names in two orders,
both runs succeed or neither does.  If they do, each class has the same interface in both, in the
order of the classes, the synthesized entries are the same up to order, and each entry has the same
declaration in both. -/
theorem generate_perm (settings : Settings) {classes classes' : List ApiClass}
    (hp : classes.Perm classes') (hnd : (classes.map (·.name)).Nodup) :
    ((∃ g, (generate settings classes).outcome = .ok g) ↔
        ∃ g', (generate settings classes').outcome = .ok g') ∧
      ∀ g g', (generate settings classes).outcome = .ok g →
        (generate settings classes').outcome = .ok g' →
          ∃ (interfaceOf : ApiClass → Declaration) (unitOf : String × Shape → Declaration),
            g.declarations = classes.map interfaceOf ++ g.synthesized.map unitOf ∧
            g'.declarations = classes'.map interfaceOf ++ g'.synthesized.map unitOf ∧
            g.synthesized.Perm g'.synthesized ∧ g.declarations.Perm g'.declarations := by
  have hnd' : (classes'.map (·.name)).Nodup := (hp.map _).nodup_iff.mp hnd
  constructor
  · constructor
    · rintro ⟨g, hg⟩
      obtain ⟨names, qs, ds, v, h, -⟩ := generate_ok_iff.mp hg
      obtain ⟨names', qs', ds', v', h'⟩ := h.reorder hp hnd
      exact ⟨_, generate_ok_iff.mpr ⟨names', qs', ds', v', h', rfl⟩⟩
    · rintro ⟨g, hg⟩
      obtain ⟨names, qs, ds, v, h, -⟩ := generate_ok_iff.mp hg
      obtain ⟨names', qs', ds', v', h'⟩ := h.reorder hp.symm hnd'
      exact ⟨_, generate_ok_iff.mpr ⟨names', qs', ds', v', h', rfl⟩⟩
  · intro g g' hg hg'
    obtain ⟨names, qs, ds, v, h, rfl⟩ := generate_ok_iff.mp hg
    obtain ⟨names', qs', ds', v', h', rfl⟩ := generate_ok_iff.mp hg'
    have hagree := namedContext_agrees settings hp hnd
    obtain ⟨hds, hresults⟩ := h.declarations_eq
    obtain ⟨hds', hresults'⟩ := h'.declarations_eq
    simp only [← hagree.interface_eq, ← hagree.synthesized_eq] at hds' hresults'
    have hentries := h.entries_perm h' hp
    refine ⟨_, _, congrArg₂ _ hds hresults, congrArg₂ _ hds' hresults', hentries, ?_⟩
    rw [hds, hresults, hds', hresults']
    exact (hp.map _).append (hentries.map _)

/-- A property that calls for an enum. -/
def stateProperty : Member :=
  { kind := "property", name := "state", type := .union [.primitive "boolean", .literal "'mixed'"] }

/-- A class that calls for a class, and for an enum from within that class. -/
def jarClass : ApiClass :=
  { name := "Jar"
    members := [{ kind := "method", name := "lid", type := .shape [stateProperty] }] }

/-- A class that calls for the same enum. -/
def tapClass : ApiClass := { name := "Tap", members := [stateProperty] }

theorem generate_jarClass_tapClass : [jarClass, tapClass].Perm [tapClass, jarClass] ∧
    ([jarClass, tapClass].map (·.name)).Nodup ∧
    ∃ g g', (generate {} [jarClass, tapClass]).outcome = .ok g ∧
      (generate {} [tapClass, jarClass]).outcome = .ok g' ∧
      g.synthesized.map (·.1) = ["JarLidResult", "MixedState"] ∧
      g'.synthesized.map (·.1) = ["MixedState", "JarLidResult"] ∧
      g.declarations.Perm g'.declarations := by
  have hp : [jarClass, tapClass].Perm [tapClass, jarClass] := .swap _ _ _
  have hnd : ([jarClass, tapClass].map (·.name)).Nodup := by decide
  obtain ⟨_, _, _, _, _, hdecl⟩ := (generate_perm {} hp hnd).2 _ _ rfl rfl
  exact ⟨hp, hnd, _, _, rfl, rfl, rfl, rfl, hdecl⟩

end ApiSurface
