import ApiSurface.Proofs.Generation.Bound
import ApiSurface.Proofs.Generation.Resolution
import ApiSurface.Proofs.Registry.Extension

/-!
# What a run emits, in which order

A run makes three lists at different times: the entries visited while the registry grows, the
declarations rendered on the way, and the entries drained at the end.
-/

namespace ApiSurface

/-- What a shape is declared as. -/
def Shape.declarationKind : Shape → DeclarationKind
  | .object _ => .classType
  | .enum _ => .enumType

/-- The declaration that is emitted for a class. -/
structure EmitsInterface (cx : Context) (c : ApiClass) (d : Declaration) : Prop where
  rendered : (cx.interface c).outcome = .ok d
  name : Identifier.translate "interface" c.name none = .ok d.name
  kind : d.kind = .interfaceType

/-- The declaration that is emitted for an entry. -/
structure EmitsEntry (cx : Context) (e : String × Shape) (d : Declaration) : Prop where
  rendered : (cx.synthesized e.1 e.2).outcome = .ok d
  name : d.name = e.1
  kind : d.kind = e.2.declarationKind

theorem ShowsEntry.kind {cx : Context} {e : String × Shape} {refs : List Reference}
    {d : Declaration} (h : ShowsEntry cx e refs d) : d.kind = e.2.declarationKind := by
  cases h with
  | object h => exact h.kind
  | enum h => exact (head_of_enumDeclaration h).2

/-! ### The order of registration -/

theorem Plan.requests_of_forEach {α β : Type} {f : α → Plan β} {as : List α} {qs : List Request}
    {bs : List β} (h : (Plan.forEach f as).Yields qs bs) : qs = as.flatMap fun a => (f a).requests := by
  obtain ⟨parts, hparts, rfl, -⟩ := Plan.yields_forEach_iff.mp h
  clear h
  induction hparts with
  | nil => rfl
  | cons hpart _ ih => rw [List.flatMap_cons, List.flatMap_cons, ih, hpart.1]

/-- **A complete walk** leaves the names in the order in which they were first asked for, by the
registrations before it and then by the plans of the entries visited. -/
theorem Registry.Walk.keys_eq {α : Type} {body : String → Shape → Plan α} {i : Nat} {r : Registry}
    {v : Visit α} (h : Walk body i r v) (hc : v.ending = .complete) {names : List String}
    (hnames : r.keys = names.eraseDups) : v.registry.keys = (names ++
      (v.visited.flatMap fun e => (body e.1 e.2).requests).map (·.demand.key)).eraseDups := by
  induction h generalizing names with
  | done => simpa using hnames
  | stop => simp at hc
  | @step i r e a later hget hrun hlater ih =>
    have hgranted := (Plan.run_ok_iff.mp hrun).1
    have hkeys := keys_file hnames hgranted
    rw [← Plan.run_registry] at hkeys
    have hrest := ih hc hkeys
    simpa [List.append_assoc] using hrest

namespace Generation

/-- The requests of a run in the order in which they are made, given the entries it synthesizes:
those of the classes, then those of the entries. -/
def requestsOf (settings : Settings) (classes : List ApiClass) (entries : List (String × Shape)) :
    List Request :=
  classes.flatMap (fun c => ((namedContext settings classes).interface c).requests) ++
    entries.flatMap fun e => ((namedContext settings classes).synthesized e.1 e.2).requests

/-! ### Declarations by name -/

/-- The walk of a run over the registry that the classes leave. -/
def walkOf (settings : Settings) (classes : List ApiClass) : Visit Declaration :=
  synthesize (namedContext settings classes)
    (interfaces (namedContext settings classes) (.empty settings.predefinedEnums) classes).registry

/-- The declarations that a walk rendered, each under the name of its entry. Of two under one name
the later counts. -/
def renderedByName (v : Visit Declaration) : List (String × Declaration) :=
  ((v.visited.map (·.1)).zip v.results).reverse

/-- The declarations of some entries, each looked up by its name among those that a walk rendered;
nothing if one is not found. -/
def declarationsByName (v : Visit Declaration) (entries : List (String × Shape)) :
    Option (List Declaration) :=
  entries.mapM fun e => (renderedByName v).lookup e.1

theorem mapM_eq_some_of_forall₂ {α β : Type} {f : α → Option β} {as : List α} {bs : List β}
    (h : List.Forall₂ (fun a b => f a = some b) as bs) : as.mapM f = some bs := by
  induction h with
  | nil => rfl
  | cons hab _ ih => simp [List.mapM_cons, hab, ih]

/-- **No look-up misses** if the names visited are distinct and each has a declaration. -/
theorem declarationsByName_eq {v : Visit Declaration} (hnd : (v.visited.map (·.1)).Nodup)
    (hlength : v.visited.length = v.results.length) :
    declarationsByName v v.visited = some v.results := by
  have hnames : (renderedByName v).map (·.1) = (v.visited.map (·.1)).reverse := by
    unfold renderedByName
    rw [List.map_reverse, List.map_fst_zip (by simp [hlength])]
  have hnd' : ((renderedByName v).map (·.1)).Nodup := by
    rw [hnames]
    exact (List.reverse_perm _).nodup_iff.mpr hnd
  refine mapM_eq_some_of_forall₂ (List.forall₂_iff_zip.mpr ⟨hlength, fun {e d} hmem => ?_⟩)
  refine (lookup_eq_some_iff_mem hnd').mpr (List.mem_reverse.mpr ?_)
  rw [List.zip_map_left]
  exact List.mem_map.mpr ⟨(e, d), hmem, rfl⟩

/-! ### Messages -/

theorem interfaces_log {cx : Context} {r : Registry} {cs : List ApiClass} {ds : List Declaration}
    (h : (interfaces cx r cs).outcome = .ok ds) :
    (interfaces cx r cs).log = cs.map (classMessage cx) := by
  induction cs generalizing r ds with
  | nil => rfl
  | cons c cs ih =>
    unfold interfaces at h ⊢
    cases hrun : ((cx.interface c).run r).outcome with
    | error fault => simp [hrun] at h
    | ok d =>
      simp only [hrun] at h ⊢
      cases hlater : (interfaces cx ((cx.interface c).run r).registry cs).outcome with
      | error fault =>
        rw [hlater] at h
        cases h
      | ok ds' => rw [ih hlater, List.map_cons]

theorem classMessage_namedContext {settings : Settings} {classes : List ApiClass} {c : ApiClass}
    (hc : c ∈ classes) :
    classMessage (namedContext settings classes) c = "Generating " ++ interfaceName c.name := by
  show "Generating " ++ ((classes.map fun c => (c.name, interfaceName c.name)).lookup
    c.name).getD c.name = _
  rw [lookup_interfaceNames, if_pos (List.mem_map_of_mem hc), Option.getD_some]

end Generation

namespace Phases

open Generation

variable {settings : Settings} {classes : List ApiClass} {names : ClassNames} {qs : List Request}
  {ds : List Declaration} {v : Visit Declaration}

theorem firstPhase_eq (h : Phases settings classes names qs ds v) :
    (firstPhase settings classes names).outcome = .ok ds ∧
      (firstPhase settings classes names).registry =
        ((Registry.empty settings.predefinedEnums).file qs).registry := by
  obtain ⟨hout, hreg⟩ := interfaces_eq_run (context settings classes names)
    (.empty settings.predefinedEnums) classes
  obtain ⟨hqs, hds⟩ := h.interfaces
  unfold firstPhase
  rw [hout, hreg, Plan.run_registry, hqs]
  exact ⟨Plan.run_ok_iff.mpr ⟨hqs ▸ h.granted, hds⟩, rfl⟩

theorem walkOf_eq (h : Phases settings classes names qs ds v) : walkOf settings classes = v := by
  obtain ⟨es, -, hreg, hs, -⟩ := h.filed
  have hwalk := h.walk
  have hfirst := h.firstPhase_eq.2
  rw [hreg] at hwalk hfirst
  unfold walkOf
  rw [← h.context_eq]
  refine Registry.Walk.unique ?_ hwalk
  rw [← hfirst] at hs ⊢
  exact walk_synthesize _ hs

/-- The names of the entries stand in the order in which they were first asked for. -/
theorem keys_eq (h : Phases settings classes names qs ds v) : v.registry.keys =
    ((requestsOf settings classes v.registry.entries).map (·.demand.key)).eraseDups := by
  have hfirst := @Registry.keys_file (.empty settings.predefinedEnums) [] rfl qs h.granted
  have hkeys := h.walk.keys_eq h.complete hfirst
  rw [h.summary.2.1, List.nil_append, Plan.requests_of_forEach h.interfaces, h.context_eq,
    ← List.map_append] at hkeys
  exact hkeys

/-- **The messages of a run** are one for each class and one for each entry. -/
theorem log_eq (h : Phases settings classes names qs ds v) : (generate settings classes).log =
    classes.map (fun c => "Generating " ++ interfaceName c.name) ++
      v.registry.entries.map fun e => "Registering additional type: " ++ e.1 := by
  obtain ⟨hfirst, hreg⟩ := h.firstPhase_eq
  have hmessages : (firstPhase settings classes names).log =
      classes.map fun c => "Generating " ++ interfaceName c.name := by
    refine (interfaces_log hfirst).trans (List.map_congr_left fun c hc => ?_)
    rw [h.context_eq, classMessage_namedContext hc]
  have hok := generate_ok_iff.mpr ⟨names, qs, ds, v, h, rfl⟩
  obtain ⟨steps, hrun, -⟩ := runs_generate settings classes
  generalize generate settings classes = run at hok hrun
  cases hrun with
  | unnamed => cases hok
  | refused => cases hok
  | failed => cases hok
  | drained hnames hds hwalk =>
    obtain rfl := Except.ok.inj (hnames.symm.trans h.named)
    rw [hreg] at hwalk
    obtain rfl := hwalk.unique h.walk
    show (firstPhase settings classes _).log ++ walkLog _ = _
    rw [← h.summary.2.1]
    exact congrArg₂ _ hmessages rfl

theorem emits_interfaces (h : Phases settings classes names qs ds v) :
    List.Forall₂ (EmitsInterface (namedContext settings classes)) classes ds := by
  have hinterfaces := h.interface_of_class
  rw [h.context_eq] at hinterfaces
  refine hinterfaces.imp ?_
  rintro c d ⟨part, hyield, -⟩
  obtain ⟨shown, hshown, -⟩ := yields_interface hyield
  exact ⟨hyield.2, hshown.name, hshown.kind⟩

theorem emits_units (h : Phases settings classes names qs ds v) :
    List.Forall₂ (EmitsEntry (namedContext settings classes)) v.registry.entries v.results := by
  obtain ⟨-, -, -, hunits⟩ := h.summary
  rw [h.context_eq] at hunits
  refine hunits.imp ?_
  rintro e d ⟨part, hyield, -⟩
  obtain ⟨refs, hrefs, -, -⟩ := yields_synthesized hyield
  exact ⟨hyield.2, hrefs.name, hrefs.kind⟩

end Phases

open Generation in
/-- **What a run emits.**  The declarations of a run that succeeds are one interface for each class,
in the order of the classes, and then one declaration for each entry, in the order of the entries.
Each is the rendering of its class, or of the name and the shape of its entry.  The walk visits every
entry once, so the names of the entries are distinct; they stand in the order of the first request
for each.  The declaration of an entry is found by its name among those rendered on the way, and the
messages are one for each class and then one for each entry. -/
theorem generate_emits {settings : Settings} {classes : List ApiClass} {g : Generated}
    (h : (generate settings classes).outcome = .ok g) :
    ∃ interfaces units, g.declarations = interfaces ++ units ∧
      List.Forall₂ (EmitsInterface (namedContext settings classes)) classes interfaces ∧
      List.Forall₂ (EmitsEntry (namedContext settings classes)) g.synthesized units ∧
      (walkOf settings classes).visited = g.synthesized ∧
      (g.synthesized.map (·.1)).Nodup ∧
      g.synthesized.map (·.1) =
        ((requestsOf settings classes g.synthesized).map (·.demand.key)).eraseDups ∧
      declarationsByName (walkOf settings classes) g.synthesized = some units ∧
      (generate settings classes).log =
        classes.map (fun c => "Generating " ++ interfaceName c.name) ++
          g.synthesized.map fun e => "Registering additional type: " ++ e.1 := by
  obtain ⟨names, qs, ds, v, hphases, rfl⟩ := generate_ok_iff.mp h
  obtain ⟨hsound, hvisited, -, hresults⟩ := hphases.summary
  have hnd : (v.visited.map (·.1)).Nodup := hvisited ▸ hsound.nodup
  have hfound := declarationsByName_eq hnd (hvisited ▸ hresults.length_eq)
  rw [hvisited] at hfound
  refine ⟨ds, v.results, rfl, hphases.emits_interfaces, hphases.emits_units, ?_, hsound.nodup,
    hphases.keys_eq, ?_, hphases.log_eq⟩
  · rw [hphases.walkOf_eq, hvisited]
  · rw [hphases.walkOf_eq, hfound]

theorem generate_boxClass_emits : ∃ g, (generate {} [boxClass]).outcome = .ok g ∧
    g.declarations.map (·.name) = ["IBox", "BoxSizeResult", "MixedState"] ∧
    (∃ units, Generation.declarationsByName (Generation.walkOf {} [boxClass]) g.synthesized =
      some units ∧ units.map (·.kind) = [.classType, .enumType]) ∧
    (generate {} [boxClass]).log = ["Generating IBox",
      "Registering additional type: BoxSizeResult", "Registering additional type: MixedState"] := by
  obtain ⟨interfaces, units, -, -, hunits, -, -, -, hfound, hlog⟩ :=
    @generate_emits {} [boxClass] _ rfl
  refine ⟨_, rfl, rfl, ⟨units, hfound, ?_⟩, hlog⟩
  cases hunits with
  | cons hsize hunits =>
    cases hunits with
    | cons hstate hunits =>
      cases hunits
      rw [List.map_cons, List.map_cons, hsize.kind, hstate.kind]
      rfl

end ApiSurface
