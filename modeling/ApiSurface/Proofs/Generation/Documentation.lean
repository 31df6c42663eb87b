import ApiSurface.Proofs.Generation.Undocumented
import ApiSurface.Proofs.Comment.Layout
import ApiSurface.Proofs.Generation.Order

/-!
# What documentation does to a run

Documentation fails a run in two ways: by a link to an argument that names none, in a comment that is
written, and by a difference between two entries of one name that are the same otherwise.
-/

namespace ApiSurface

open Generation

/-- The entries that some classes call for, and those that such entries call for. -/
inductive CalledFor (predefined : List (String × List String)) (classes : List ApiClass) :
    String × Shape → Prop
  | byClass {c : ApiClass} {x : String × Shape} (hc : c ∈ classes)
    (h : CallsFor predefined c.name c.typed x) : CalledFor predefined classes x
  | byEntry {e x : String × Shape} (he : CalledFor predefined classes e)
    (h : CallsFor predefined e.1 e.2.typed x) : CalledFor predefined classes x

/-- The documentation that a run writes as comments: that of the classes, of their members, and of
the properties of what is called for. -/
inductive Commented (predefined : List (String × List String)) (classes : List ApiClass) :
    List DocNode → Prop
  | ofClass {c : ApiClass} (hc : c ∈ classes) : Commented predefined classes c.doc
  | ofMember {c : ApiClass} {m : Member} (hc : c ∈ classes) (hm : m ∈ c.members) :
    Commented predefined classes m.doc
  | ofProperty {e : String × Shape} {p : Member} (he : CalledFor predefined classes e)
    (hp : p ∈ e.2.typed) : Commented predefined classes p.doc

/-- An entry without documentation. -/
def bareEntry (e : String × Shape) : String × Shape := (e.1, e.2.bare)

section Entries

variable {predefined : List (String × List String)} {classes : List ApiClass}

theorem closedUnderDemand_calledFor :
    ClosedUnderDemand predefined classes {x | CalledFor predefined classes x} :=
  ⟨fun _ hc _ h => .byClass hc h, fun _ he _ h => .byEntry he h⟩

theorem CalledFor.mem {S : Set (String × Shape)} (hS : ClosedUnderDemand predefined classes S)
    {x : String × Shape} (h : CalledFor predefined classes x) : x ∈ S := by
  induction h with
  | byClass hc h => exact hS.classes _ hc _ h
  | byEntry _ h ih => exact hS.entries _ ih _ h

/-- **The entries of a run** are those that are called for. -/
theorem Phases.mem_table_iff {settings : Settings} {names : ClassNames} {qs : List Request}
    {ds : List Declaration} {v : Visit Declaration} (h : Phases settings classes names qs ds v)
    {x : String × Shape} :
    x ∈ v.registry.table ↔ CalledFor settings.predefinedEnums classes x :=
  ⟨fun hx => h.isLeast.2 closedUnderDemand_calledFor hx, fun hx => hx.mem h.closed⟩

theorem pair?_bare (d : Demand) :
    d.bare.pair? predefined = (d.pair? predefined).map bareEntry := by
  cases d with
  | shape key content => rfl
  | predefined key =>
    show (predefined.reverse.lookup key).map _ = ((predefined.reverse.lookup key).map _).map _
    rw [Option.map_map]
    rfl

theorem requested_bare (qs : List Request) :
    requested predefined (qs.map .bare) = (requested predefined qs).map bareEntry := by
  unfold requested
  rw [List.filterMap_map, List.map_filterMap]
  exact List.filterMap_congr fun q _ => pair?_bare q.demand

theorem covers_bare {S : Set (String × Shape)} {qs : List Request}
    (h : Covers predefined S qs) : Covers predefined (bareEntry '' S) (qs.map .bare) := by
  intro q hq
  obtain ⟨q', hq', rfl⟩ := List.mem_map.mp hq
  obtain ⟨e, he, hpair⟩ := h q' hq'
  refine ⟨bareEntry e, ⟨e, he, rfl⟩, ?_⟩
  show q'.demand.bare.pair? predefined = _
  rw [pair?_bare, hpair]
  rfl

theorem bareEntry_mem_of_covers {T : Set (String × Shape)} {qs : List Request}
    (h : Covers predefined T (qs.map .bare)) {x : String × Shape}
    (hx : x ∈ requested predefined qs) : bareEntry x ∈ T := by
  refine h.mem ?_
  rw [requested_bare]
  exact List.mem_map_of_mem hx

/-- What some requests stand for covers them, if each stands for something without documentation. -/
theorem covers_of_covers_bare {S T : Set (String × Shape)} {qs : List Request}
    (h : Covers predefined T (qs.map .bare)) (hS : ∀ x ∈ requested predefined qs, x ∈ S) :
    Covers predefined S qs := by
  intro q hq
  obtain ⟨e, -, hpair⟩ := h q.bare (List.mem_map_of_mem hq)
  have hmap : (q.demand.pair? predefined).map bareEntry = some e :=
    (pair?_bare q.demand).symm.trans hpair
  obtain ⟨x, hx, -⟩ := Option.map_eq_some_iff.mp hmap
  exact ⟨x, hS x (mem_requested.mpr ⟨q, hq, hx⟩), hx⟩

end Entries

/-! ### Comments -/

variable {settings : Settings} {classes : List ApiClass}

/-- **A comment can be written** unless one of its links is to an argument and names none. -/
theorem writes_iff (hnames : ∀ c ∈ classes, c.name ≠ "") (nodes : List DocNode) :
    (namedContext settings classes).Writes nodes ↔
      ∀ n ∈ nodes, ∀ target ∈ n.links, ¬ CrossReference.NamesNoArgument target := by
  refine Comment.docLines_ok_iff.trans ?_
  refine forall₂_congr fun n _ => forall₂_congr fun target _ => ?_
  show (∃ answer, CrossReference.resolve classes target = .ok answer) ↔ _
  have hfail := CrossReference.resolve_error_iff hnames target
  constructor
  · rintro ⟨answer, hanswer⟩ hnone
    have herror := (hfail _).mpr ⟨hnone, rfl⟩
    rw [hanswer] at herror
    cases herror
  · intro hsome
    cases h : CrossReference.resolve classes target with
    | ok answer => exact ⟨answer, rfl⟩
    | error cause => exact absurd ((hfail cause).mp h).1 hsome

theorem namedContext_bare (settings : Settings) (classes : List ApiClass) :
    namedContext settings (classes.map .bare) =
      (namedContext settings classes).withLinks (CrossReference.resolve (classes.map .bare)) := by
  unfold namedContext
  rw [List.map_map]
  rfl

/-! ### Runs with and without documentation -/

/-- No two entries of one name that are called for differ in documentation only. -/
def DocumentedAlike (predefined : List (String × List String)) (classes : List ApiClass) : Prop :=
  ∀ key shape shape', CalledFor predefined classes (key, shape) →
    CalledFor predefined classes (key, shape') → shape.bare = shape'.bare → shape = shape'

/-- A run without documentation passes through all phases if the run with it does. -/
theorem Phases.strip {names : ClassNames} {qs : List Request} {ds : List Declaration}
    {v : Visit Declaration} (h : Phases settings classes names qs ds v) :
    ∃ names' qs' ds' v', Phases settings (classes.map .bare) names' qs' ds' v' := by
  have hconsistent : Consistent (bareEntry '' v.registry.table) := by
    rintro key _ _ ⟨⟨key', shape⟩, hmem, heq⟩ ⟨⟨key'', shape'⟩, hmem', heq'⟩
    obtain ⟨rfl, rfl⟩ := Prod.mk.inj heq
    obtain ⟨rfl, rfl⟩ := Prod.mk.inj heq'
    rw [h.summary.1.consistent _ _ _ hmem hmem']
  refine exists_phases hconsistent ?_ ?_ ?_
  · intro c' hc'
    obtain ⟨c, hc, rfl⟩ := List.mem_map.mp hc'
    exact (interfaceNames_ok_iff.mp h.named).1 c hc
  · intro c' hc'
    obtain ⟨c, hc, rfl⟩ := List.mem_map.mp hc'
    obtain ⟨part, d, hyield, hcovers⟩ := h.interface_covered hc
    obtain ⟨-, d', hd'⟩ := (Context.undocumented_interface _ c).strip _ _ hyield
    rw [namedContext_bare]
    exact ⟨_, d', hd', covers_bare hcovers⟩
  · rintro _ ⟨e, he, rfl⟩
    obtain ⟨part, d, hyield, hcovers⟩ := h.synthesized_covered he
    obtain ⟨-, d', hd'⟩ := (Context.undocumented_synthesized _ e.1 e.2).strip _ _ hyield
    rw [namedContext_bare]
    exact ⟨_, d', hd', covers_bare hcovers⟩

theorem Phases.writes {names : ClassNames} {qs : List Request} {ds : List Declaration}
    {v : Visit Declaration} (h : Phases settings classes names qs ds v) {nodes : List DocNode}
    (hnodes : Commented settings.predefinedEnums classes nodes) :
    (namedContext settings classes).Writes nodes := by
  have hclass : ∀ c ∈ classes, (namedContext settings classes).Writes c.doc ∧
      ∀ m ∈ c.members, (namedContext settings classes).Writes m.doc := by
    intro c hc
    obtain ⟨part, d, hyield, -⟩ := h.interface_covered hc
    exact ((Context.undocumented_interface Comment.noLinks c).strip _ _ hyield).1
  cases hnodes with
  | ofClass hc => exact (hclass _ hc).1
  | ofMember hc hm => exact (hclass _ hc).2 _ hm
  | ofProperty he hp =>
    obtain ⟨part, d, hyield, -⟩ := h.synthesized_covered (h.mem_table_iff.mpr he)
    exact ((Context.undocumented_synthesized Comment.noLinks _ _).strip _ _ hyield).1 _ hp

/-- A run with documentation passes through all phases if the run without it does, all comments can
be written, and documentation does not set two entries apart. -/
theorem Phases.restore {names : ClassNames} {qs : List Request} {ds : List Declaration}
    {v : Visit Declaration} (h : Phases settings (classes.map .bare) names qs ds v)
    (hwrites : ∀ nodes, Commented settings.predefinedEnums classes nodes →
      (namedContext settings classes).Writes nodes)
    (halike : DocumentedAlike settings.predefinedEnums classes) :
    ∃ names' qs' ds' v', Phases settings classes names' qs' ds' v' := by
  -- each class asks for what the bare class asks for
  have hclass : ∀ c ∈ classes, ∃ part d,
      ((namedContext settings classes).interface c).Yields part d ∧
        Covers settings.predefinedEnums v.registry.table (part.map .bare) := by
    intro c hc
    obtain ⟨part, d, hyield, hcovers⟩ := h.interface_covered (List.mem_map_of_mem hc)
    rw [namedContext_bare] at hyield
    obtain ⟨part', d', hyield', rfl⟩ := (Context.undocumented_interface _ c).restore
      ⟨hwrites _ (.ofClass hc), fun m hm => hwrites _ (.ofMember hc hm)⟩ _ _ hyield
    exact ⟨part', d', hyield', hcovers⟩
  -- and each entry what the bare entry asks for
  have hentry : ∀ e, CalledFor settings.predefinedEnums classes e →
      bareEntry e ∈ v.registry.table → ∃ part d,
        ((namedContext settings classes).synthesized e.1 e.2).Yields part d ∧
          Covers settings.predefinedEnums v.registry.table (part.map .bare) := by
    intro e he hmem
    obtain ⟨part, d, hyield, hcovers⟩ := h.synthesized_covered hmem
    rw [namedContext_bare] at hyield
    obtain ⟨part', d', hyield', rfl⟩ := (Context.undocumented_synthesized _ e.1 e.2).restore
      (fun p hp => hwrites _ (.ofProperty he hp)) _ _ hyield
    exact ⟨part', d', hyield', hcovers⟩
  have hbare : ∀ x, CalledFor settings.predefinedEnums classes x →
      bareEntry x ∈ v.registry.table := by
    intro x hx
    induction hx with
    | byClass hc hcall =>
      obtain ⟨part, d, hyield, hcovers⟩ := hclass _ hc
      exact bareEntry_mem_of_covers hcovers ((requested_interface_iff hyield).mpr hcall)
    | byEntry he hcall ih =>
      obtain ⟨part, d, hyield, hcovers⟩ := hentry _ he ih
      exact bareEntry_mem_of_covers hcovers ((requested_synthesized_iff hyield).mpr hcall)
  refine exists_phases (S := {x | CalledFor settings.predefinedEnums classes x}) ?_ ?_ ?_ ?_
  · intro key shape shape' hmem hmem'
    exact halike key shape shape' hmem hmem'
      (h.summary.1.consistent _ _ _ (hbare _ hmem) (hbare _ hmem'))
  · intro c hc
    exact (interfaceNames_ok_iff.mp h.named).1 c.bare (List.mem_map_of_mem hc)
  · intro c hc
    obtain ⟨part, d, hyield, hcovers⟩ := hclass c hc
    exact ⟨part, d, hyield, covers_of_covers_bare hcovers fun x hx =>
      .byClass hc ((requested_interface_iff hyield).mp hx)⟩
  · intro e he
    obtain ⟨part, d, hyield, hcovers⟩ := hentry e he (hbare e he)
    exact ⟨part, d, hyield, covers_of_covers_bare hcovers fun x hx =>
      .byEntry he ((requested_synthesized_iff hyield).mp hx)⟩

/-- **Documentation and success.** A link fails if and only if it is one to an argument and names
none. A run succeeds if and only if it does without documentation, no comment that it writes has
such a link, and no two entries of one name that it calls for differ in documentation only. -/
theorem generate_ok_iff_bare (settings : Settings) (classes : List ApiClass)
    (hnames : ∀ c ∈ classes, c.name ≠ "") :
    (∀ target cause, CrossReference.resolve classes target = .error cause ↔
      CrossReference.NamesNoArgument target ∧ cause = .emptyName "argument") ∧
    ((∃ g, (generate settings classes).outcome = .ok g) ↔
      (∃ g, (generate settings (classes.map .bare)).outcome = .ok g) ∧
      (∀ nodes, Commented settings.predefinedEnums classes nodes → ∀ n ∈ nodes,
        ∀ target ∈ n.links, ¬ CrossReference.NamesNoArgument target) ∧
      DocumentedAlike settings.predefinedEnums classes) := by
  refine ⟨CrossReference.resolve_error_iff hnames, ?_⟩
  constructor
  · rintro ⟨g, hg⟩
    obtain ⟨names, qs, ds, v, h, -⟩ := generate_ok_iff.mp hg
    obtain ⟨names', qs', ds', v', h'⟩ := h.strip
    refine ⟨⟨_, generate_ok_iff.mpr ⟨names', qs', ds', v', h', rfl⟩⟩, ?_, ?_⟩
    · intro nodes hnodes
      exact (writes_iff hnames nodes).mp (h.writes hnodes)
    · intro key shape shape' hcall hcall' _
      exact h.summary.1.consistent key shape shape' (h.mem_table_iff.mpr hcall)
        (h.mem_table_iff.mpr hcall')
  · rintro ⟨⟨g, hg⟩, hlinks, halike⟩
    obtain ⟨names, qs, ds, v, h, -⟩ := generate_ok_iff.mp hg
    obtain ⟨names', qs', ds', v', h'⟩ := h.restore
      (fun nodes hnodes => (writes_iff hnames nodes).mpr (hlinks nodes hnodes)) halike
    exact ⟨_, generate_ok_iff.mpr ⟨names', qs', ds', v', h', rfl⟩⟩

/-- A class that calls for a class, with documentation on all of it. -/
def lidClass : ApiClass where
  name := "Jar"
  doc := [{ kind := "text", text := "See [Jar.lid]." }]
  members := [{
    kind := "method"
    name := "lid"
    type := .shape [{ kind := "property", name := "width", type := .primitive "number",
                      doc := [{ kind := "note", text := "In [mm]." }] }]
    doc := [{ kind := "text", text := "Unlike [param: force]." }] }]

theorem generate_lidClass : (∀ c ∈ [lidClass], c.name ≠ "") ∧
    (∃ g, (generate {} [lidClass]).outcome = .ok g ∧ g.synthesized.map (·.1) = ["JarLidResult"]) ∧
    (∃ g, (generate {} [lidClass.bare]).outcome = .ok g) ∧
    CrossReference.resolve [lidClass] " option : " = .error (.emptyName "argument") := by
  have hnames : ∀ c ∈ [lidClass], c.name ≠ "" := by decide
  obtain ⟨hfail, hiff⟩ := generate_ok_iff_bare {} [lidClass] hnames
  have hbare := (hiff.mp ⟨_, rfl⟩).1
  have hnone : CrossReference.NamesNoArgument " option : " :=
    ⟨" option ".toList, " ".toList, rfl, by decide, by decide, by decide⟩
  exact ⟨hnames, ⟨_, rfl, rfl⟩, hbare, (hfail _ _).mpr ⟨hnone, rfl⟩⟩

/-- A class whose documentation links to an argument without a name. -/
def hintClass : ApiClass where
  name := "Page"
  doc := [{ kind := "text", text := "Use [param:]." }]

/-- Its documentation fails the run, at no place. -/
theorem generate_hintClass :
    (generate {} [hintClass]).outcome = .error (.report ⟨.emptyName "argument", "", ""⟩) ∧
      ∃ g, (generate {} [hintClass.bare]).outcome = .ok g :=
  ⟨rfl, _, rfl⟩

end ApiSurface
