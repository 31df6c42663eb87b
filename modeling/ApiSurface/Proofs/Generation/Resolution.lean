import ApiSurface.Proofs.Generation.Closure

/-!
# Every name in a declaration is declared

A declaration writes the types of its members as references.  After a run, the names in them are
those of declarations of the same run.
-/

namespace ApiSurface

/-- The declaration for an entry, with the references in it. -/
inductive ShowsEntry (cx : Context) : String × Shape → List Reference → Declaration → Prop
  | object {key : String} {properties : List Member} {shown : List (Slot × List String)}
    {d : Declaration} (h : ShowsClass cx key properties shown d) :
    ShowsEntry cx (key, .object properties) (shown.map (·.1.type)) d
  | enum {key : String} {values : List String} {d : Declaration}
    (h : enumDeclaration cx.settings.indent key values = .ok d) :
    ShowsEntry cx (key, .enum values) [] d

/-- The names in a reference are those of declarations that a run generates for some classes. -/
structure Resolves (cx : Context) (classes : List ApiClass) (g : Generated) (r : Reference) :
    Prop where
  /-- A synthesized name has one entry, with the shape that is asked for, and a declaration built
  from this shape. -/
  synthesized : ∀ d ∈ r.demands, ∃ shape,
    d.pair? cx.settings.predefinedEnums = some (d.key, shape) ∧
      (∀ shape', (d.key, shape') ∈ g.synthesized ↔ shape' = shape) ∧
      ∃ u ∈ g.declarations, u.name = d.key ∧ ∃ refs, ShowsEntry cx (d.key, shape) refs u
  /-- A declared class is written as its interface. -/
  classes : ∀ name type, (name, type) ∈ r.classes → name ∈ classes.map (·.name) →
    type = Generation.interfaceName name ∧ ∃ c ∈ classes, c.name = name ∧
      ∃ u ∈ g.declarations, u.name = type ∧ ∃ shown, ShowsInterface cx c shown u

theorem head_of_enumDeclaration {indent key : String} {values : List String} {d : Declaration}
    (h : enumDeclaration indent key values = .ok d) : d.name = key ∧ d.kind = .enumType := by
  obtain ⟨names, -, rfl⟩ := enumDeclaration_ok h
  exact ⟨rfl, rfl⟩

theorem ShowsEntry.name {cx : Context} {e : String × Shape} {refs : List Reference}
    {d : Declaration} (h : ShowsEntry cx e refs d) : d.name = e.1 := by
  cases h with
  | object h => exact h.name
  | enum h => exact (head_of_enumDeclaration h).1

/-- **What is rendered for an entry** shows references with exactly the demands made. -/
theorem yields_synthesized {cx : Context} {e : String × Shape} {qs : List Request} {d : Declaration}
    (h : (cx.synthesized e.1 e.2).Yields qs d) : ∃ refs, ShowsEntry cx e refs d ∧
      qs.map (·.demand) = refs.flatMap (·.demands) ∧
      ∀ r ∈ refs, ∃ p ∈ e.2.typed, Denotes cx.vocabulary e.1 p.name p.type r := by
  obtain ⟨key, shape⟩ := e
  cases shape with
  | enum values =>
    obtain ⟨rfl, hd⟩ := Plan.yields_ofExcept_iff.mp h
    refine ⟨[], .enum ?_, rfl, by simp⟩
    cases hdecl : enumDeclaration cx.settings.indent key values with
    | error report => simp [hdecl, Except.mapError] at hd
    | ok d' =>
      rw [hdecl] at hd
      exact congrArg _ (Except.ok.inj hd)
  | object properties =>
    obtain ⟨shown, hshown, hqs⟩ := yields_resultClass h
    refine ⟨_, .object hshown, ?_, ?_⟩
    · rw [hqs, List.flatMap_map]
    · intro r hr
      obtain ⟨s, hs, rfl⟩ := List.mem_map.mp hr
      obtain ⟨p, hp, hprop⟩ := exists_of_forall₂_right hshown.properties hs
      exact ⟨p, hp, hprop.type⟩

namespace Phases

open Generation

variable {settings : Settings} {classes : List ApiClass} {names : ClassNames} {qs : List Request}
  {ds : List Declaration} {v : Visit Declaration}

/-- **A reference resolves** if the declarations in it were asked for. -/
theorem resolves (h : Phases settings classes names qs ds v) {owner member : String} {e : TypeExpr}
    {r : Reference} (hden : Denotes (context settings classes names).vocabulary owner member e r)
    (hfiled : ∀ d ∈ r.demands, ∃ x ∈ v.registry.table,
      d.pair? settings.predefinedEnums = some x) :
    Resolves (context settings classes names) classes ⟨ds ++ v.results, v.registry.entries⟩ r := by
  obtain ⟨hsound, -, -, hres⟩ := h.summary
  constructor
  · intro d hd
    obtain ⟨⟨key, shape⟩, hx, hentry⟩ := hfiled d hd
    obtain rfl : key = d.key := Demand.pair?_key hentry
    refine ⟨shape, hentry, fun shape' => ⟨fun hmem => ?_, fun heq => heq ▸ hx⟩, ?_⟩
    · exact hsound.consistent _ _ _ hmem hx
    · obtain ⟨u, hu, part, hyield, -⟩ := exists_of_forall₂_left hres hx
      obtain ⟨refs, hrefs, -⟩ := yields_synthesized hyield
      exact ⟨u, List.mem_append_right _ hu, hrefs.name, refs, hrefs⟩
  · intro name type hmem hname
    obtain ⟨-, htype⟩ := hden.mem_classes_iff.mp hmem
    obtain ⟨-, rfl⟩ := interfaceNames_ok_iff.mp h.named
    have hlook : ((classes.map fun c => (c.name, interfaceName c.name)).lookup name).getD name =
        interfaceName name := by
      rw [lookup_interfaceNames, if_pos hname, Option.getD_some]
    obtain rfl : type = interfaceName name := htype.trans hlook
    obtain ⟨c, hc, rfl⟩ := List.mem_map.mp hname
    obtain ⟨u, hu, part, hyield, -⟩ := exists_of_forall₂_left h.interface_of_class hc
    obtain ⟨shown, hshown, -⟩ := yields_interface hyield
    refine ⟨rfl, c, hc, rfl, u, List.mem_append_left _ hu, ?_, shown, hshown⟩
    exact (translate_interface.mp hshown.name).2

/-- **The interfaces** of a run show references that resolve. -/
theorem resolves_interfaces (h : Phases settings classes names qs ds v) :
    List.Forall₂ (fun c d => ∃ shown, ShowsInterface (context settings classes names) c shown d ∧
      ∀ p ∈ shown, ∀ r ∈ p.1.references, Resolves (context settings classes names) classes
        ⟨ds ++ v.results, v.registry.entries⟩ r) classes ds := by
  obtain ⟨-, -, hqs, -⟩ := h.summary
  refine h.interface_of_class.imp ?_
  rintro c d ⟨part, hyield, hsub⟩
  obtain ⟨shown, hshown, hdem⟩ := yields_interface hyield
  refine ⟨shown, hshown, fun p hp r hr => ?_⟩
  obtain ⟨m, hm, hmember⟩ := exists_of_forall₂_right hshown.members hp
  obtain ⟨a, ha, hden⟩ := hmember.declares.denotes hr
  have hpart : Covers settings.predefinedEnums v.registry.table part :=
    fun q hq => hqs q (hsub q hq)
  refine h.resolves hden fun dem hd => hpart.exists_pair ?_
  rw [hdem]
  exact List.mem_flatMap.mpr ⟨p, hp, Signature.mem_demands_iff.mpr ⟨r, hr, hd⟩⟩

/-- **The synthesized declarations** of a run show references that resolve. -/
theorem resolves_units (h : Phases settings classes names qs ds v) :
    List.Forall₂ (fun e d => ∃ refs, ShowsEntry (context settings classes names) e refs d ∧
      ∀ r ∈ refs, Resolves (context settings classes names) classes
        ⟨ds ++ v.results, v.registry.entries⟩ r) v.registry.entries v.results := by
  obtain ⟨-, -, -, hres⟩ := h.summary
  refine hres.imp ?_
  rintro e d ⟨part, hyield, hqs⟩
  obtain ⟨refs, hrefs, hdem, hdenotes⟩ := yields_synthesized hyield
  refine ⟨refs, hrefs, fun r hr => ?_⟩
  obtain ⟨p, -, hden⟩ := hdenotes r hr
  refine h.resolves hden fun dem hd => hqs.exists_pair ?_
  rw [hdem]
  exact List.mem_flatMap.mpr ⟨r, hr, hd⟩

end Phases

open Generation in
/-- **What a run synthesizes.**  After a run that succeeds, the synthesized entries are the least
set that holds what the classes call for and what its own object types call for, and no name has two
entries.  There is one interface for each class and one declaration for each entry, and all
references in them resolve. -/
theorem generate_isLeast_resolves {settings : Settings} {classes : List ApiClass} {g : Generated}
    (h : (generate settings classes).outcome = .ok g) :
    IsLeast {S | ClosedUnderDemand settings.predefinedEnums classes S} {x | x ∈ g.synthesized} ∧
      (g.synthesized.map (·.1)).Nodup ∧
      ∃ interfaces units, g.declarations = interfaces ++ units ∧
        List.Forall₂ (fun c d => ∃ shown, ShowsInterface (namedContext settings classes) c shown d ∧
          ∀ p ∈ shown, ∀ r ∈ p.1.references,
            Resolves (namedContext settings classes) classes g r) classes interfaces ∧
        List.Forall₂ (fun e d => ∃ refs, ShowsEntry (namedContext settings classes) e refs d ∧
          ∀ r ∈ refs, Resolves (namedContext settings classes) classes g r)
          g.synthesized units := by
  obtain ⟨names, qs, ds, v, hphases, rfl⟩ := generate_ok_iff.mp h
  have hinterfaces := hphases.resolves_interfaces
  have hunits := hphases.resolves_units
  rw [hphases.context_eq] at hinterfaces hunits
  exact ⟨hphases.isLeast, hphases.summary.1.nodup, ds, v.results, rfl, hinterfaces, hunits⟩

/-- The properties of a size. -/
def sizeProperties : List Member :=
  [{ kind := "property", name := "owner", type := .named "Box" },
   { kind := "property", name := "state"
     type := .union [.primitive "boolean", .literal "'mixed'"] }]

/-- A class that calls for a class, and for an enum from within that class. -/
def boxClass : ApiClass :=
  { name := "Box"
    members := [{ kind := "method", name := "size", type := .shape sizeProperties }] }

theorem generate_boxClass_isLeast : ∃ g, (generate {} [boxClass]).outcome = .ok g ∧
    g.synthesized = [("BoxSizeResult", .object sizeProperties),
      ("MixedState", .enum ["on", "off", "mixed"])] ∧
    IsLeast {S | ClosedUnderDemand ({} : Settings).predefinedEnums [boxClass] S}
      {x | x ∈ g.synthesized} := by
  refine ⟨_, rfl, rfl, ?_⟩
  exact (generate_isLeast_resolves rfl).1

end ApiSurface
