import ApiSurface.Proofs.Generation.Phases
import Mathlib.Order.Bounds.Basic

/-!
# The synthesized entries as a least set

A set of entries is closed under demand if it holds what the classes call for and what the
properties of its own object types call for.
-/

namespace ApiSurface

/-- The entries that some members of an owner call for. -/
def CallsFor (predefined : List (String × List String)) (owner : String) (ms : List Member)
    (x : String × Shape) : Prop :=
  ∃ m ∈ ms, ∃ e, Reaches m.type e ∧ Contributes predefined owner m.name e x

/-- The members whose types stand in the interface of a class: its own, and what is left of their
arguments when options are flattened. -/
def ApiClass.typed (c : ApiClass) : List Member := c.members.flatMap fun m => m :: m.parameters

/-- The members whose types stand in the declaration for a shape. -/
def Shape.typed : Shape → List Member
  | .object properties => properties
  | .enum _ => []

/-- A set holds the entries that some classes call for, and those that its own entries call for. -/
structure ClosedUnderDemand (predefined : List (String × List String)) (classes : List ApiClass)
    (S : Set (String × Shape)) : Prop where
  classes : ∀ c ∈ classes, ∀ x, CallsFor predefined c.name c.typed x → x ∈ S
  entries : ∀ e ∈ S, ∀ x, CallsFor predefined e.1 e.2.typed x → x ∈ S

/-! ### What a declaration asks for -/

section Demands

variable {predefined : List (String × List String)} {cx : Context} {owner : String}
  {x : String × Shape} {qs : List Request} {d : Declaration}

theorem mem_requested_iff_demand :
    x ∈ requested predefined qs ↔ ∃ d ∈ qs.map (·.demand), d.pair? predefined = some x := by
  rw [mem_requested]
  simp

theorem Declares.denotes {v : Vocabulary} {m : Member} {s : Signature} (h : Declares v owner m s)
    {r : Reference} (hr : r ∈ s.references) :
    ∃ a ∈ m :: m.parameters, Denotes v owner a.name a.type r := by
  rcases List.mem_cons.mp hr with rfl | hr
  · exact ⟨m, List.mem_cons_self, h.type⟩
  · obtain ⟨slot, hslot, rfl⟩ := List.mem_map.mp hr
    obtain ⟨a, ha, hfill⟩ := exists_of_forall₂_right h.arguments hslot
    exact ⟨a, List.mem_cons_of_mem _ ha, hfill.type⟩

theorem Signature.mem_demands_iff {s : Signature} {d : Demand} :
    d ∈ s.demands ↔ ∃ r ∈ s.references, d ∈ r.demands := by
  simp [Signature.demands, Signature.references]

theorem Declares.callsFor_iff {v : Vocabulary} {m : Member} {s : Signature}
    (h : Declares v owner m s) : (∃ d ∈ s.demands, d.pair? predefined = some x) ↔
      CallsFor predefined owner (m :: m.parameters) x := by
  constructor
  · rintro ⟨d, hd, hx⟩
    obtain ⟨r, hr, hd⟩ := Signature.mem_demands_iff.mp hd
    obtain ⟨a, ha, hden⟩ := h.denotes hr
    exact ⟨a, ha, hden.mem_demands_iff.mp ⟨d, hd, hx⟩⟩
  · rintro ⟨a, ha, hcall⟩
    have hslot : ∃ r ∈ s.references, Denotes v owner a.name a.type r := by
      rcases List.mem_cons.mp ha with rfl | ha
      · exact ⟨s.type, List.mem_cons_self, h.type⟩
      · obtain ⟨slot, hslot, hfill⟩ := exists_of_forall₂_left h.arguments ha
        exact ⟨slot.type, List.mem_cons_of_mem _ (List.mem_map_of_mem hslot), hfill.type⟩
    obtain ⟨r, hr, hden⟩ := hslot
    obtain ⟨d, hd, hx⟩ := hden.mem_demands_iff.mpr hcall
    exact ⟨d, Signature.mem_demands_iff.mpr ⟨r, hr, hd⟩, hx⟩

/-- **An interface** asks for the entries that its members and their arguments call for. -/
theorem requested_interface_iff {c : ApiClass} (h : (cx.interface c).Yields qs d) :
    x ∈ requested predefined qs ↔ CallsFor predefined c.name c.typed x := by
  obtain ⟨shown, hshown, hqs⟩ := yields_interface h
  rw [mem_requested_iff_demand, hqs]
  constructor
  · rintro ⟨dem, hdem, hx⟩
    obtain ⟨p, hp, hdem⟩ := List.mem_flatMap.mp hdem
    obtain ⟨m, hm, hdecl⟩ := exists_of_forall₂_right hshown.members hp
    obtain ⟨a, ha, hcall⟩ := hdecl.declares.callsFor_iff.mp ⟨dem, hdem, hx⟩
    exact ⟨a, List.mem_flatMap.mpr ⟨m, hm, ha⟩, hcall⟩
  · rintro ⟨a, ha, hcall⟩
    obtain ⟨m, hm, ha⟩ := List.mem_flatMap.mp ha
    obtain ⟨p, hp, hdecl⟩ := exists_of_forall₂_left hshown.members hm
    obtain ⟨dem, hdem, hx⟩ := hdecl.declares.callsFor_iff.mpr ⟨a, ha, hcall⟩
    exact ⟨dem, List.mem_flatMap.mpr ⟨p, hp, hdem⟩, hx⟩

/-- **A synthesized declaration** asks for the entries that its properties call for. -/
theorem requested_synthesized_iff {e : String × Shape}
    (h : (cx.synthesized e.1 e.2).Yields qs d) :
    x ∈ requested predefined qs ↔ CallsFor predefined e.1 e.2.typed x := by
  obtain ⟨key, shape⟩ := e
  cases shape with
  | enum values =>
    obtain ⟨rfl, -⟩ := Plan.yields_ofExcept_iff.mp h
    simp [CallsFor, Shape.typed]
  | object properties =>
    obtain ⟨shown, hshown, hqs⟩ := yields_resultClass h
    rw [mem_requested_iff_demand, hqs]
    constructor
    · rintro ⟨dem, hdem, hx⟩
      obtain ⟨s, hs, hdem⟩ := List.mem_flatMap.mp hdem
      obtain ⟨p, hp, hprop⟩ := exists_of_forall₂_right hshown.properties hs
      exact ⟨p, hp, hprop.type.mem_demands_iff.mp ⟨dem, hdem, hx⟩⟩
    · rintro ⟨p, hp, hcall⟩
      obtain ⟨s, hs, hprop⟩ := exists_of_forall₂_left hshown.properties hp
      obtain ⟨dem, hdem, hx⟩ := hprop.type.mem_demands_iff.mpr hcall
      exact ⟨dem, List.mem_flatMap.mpr ⟨s, hs, hdem⟩, hx⟩

/-- **The interfaces** of some classes ask together for what each class calls for. -/
theorem requested_interfaces_iff {classes : List ApiClass} {ds : List Declaration}
    (h : (Plan.forEach cx.interface classes).Yields qs ds) :
    x ∈ requested predefined qs ↔ ∃ c ∈ classes, CallsFor predefined c.name c.typed x := by
  obtain ⟨parts, hparts, rfl, -⟩ := Plan.yields_forEach_iff.mp h
  constructor
  · intro hx
    obtain ⟨q, hq, hentry⟩ := mem_requested.mp hx
    obtain ⟨part, hpart, hq⟩ := List.mem_flatMap.mp hq
    obtain ⟨c, hc, hyield⟩ := exists_of_forall₂_right hparts hpart
    exact ⟨c, hc, (requested_interface_iff hyield).mp (mem_requested.mpr ⟨q, hq, hentry⟩)⟩
  · rintro ⟨c, hc, hcall⟩
    obtain ⟨part, hpart, hyield⟩ := exists_of_forall₂_left hparts hc
    obtain ⟨q, hq, hentry⟩ := mem_requested.mp ((requested_interface_iff hyield).mpr hcall)
    exact mem_requested.mpr ⟨q, List.mem_flatMap.mpr ⟨part, hpart, hq⟩, hentry⟩

end Demands

/-! ### The least set -/

namespace Phases

open Generation

variable {settings : Settings} {classes : List ApiClass} {names : ClassNames} {qs : List Request}
  {ds : List Declaration} {v : Visit Declaration}

/-- **Each class** has its interface, and asks for entries of the run. -/
theorem interface_covered (h : Phases settings classes names qs ds v) {c : ApiClass}
    (hc : c ∈ classes) : ∃ part d, ((namedContext settings classes).interface c).Yields part d ∧
      Covers settings.predefinedEnums v.registry.table part := by
  obtain ⟨-, -, hqs, -⟩ := h.summary
  obtain ⟨d, -, part, hyield, hsub⟩ := exists_of_forall₂_left h.interface_of_class hc
  rw [h.context_eq] at hyield
  exact ⟨part, d, hyield, fun q hq => hqs q (hsub q hq)⟩

/-- **Each entry** has its declaration, and asks for entries of the run. -/
theorem synthesized_covered (h : Phases settings classes names qs ds v) {e : String × Shape}
    (he : e ∈ v.registry.table) : ∃ part d,
      ((namedContext settings classes).synthesized e.1 e.2).Yields part d ∧
        Covers settings.predefinedEnums v.registry.table part := by
  obtain ⟨-, -, -, hres⟩ := h.summary
  obtain ⟨d, -, part, hyield, hall⟩ := exists_of_forall₂_left hres he
  rw [h.context_eq] at hyield
  exact ⟨part, d, hyield, hall⟩

theorem closed (h : Phases settings classes names qs ds v) :
    ClosedUnderDemand settings.predefinedEnums classes v.registry.table := by
  obtain ⟨-, -, hqs, hres⟩ := h.summary
  constructor
  · intro c hc x hcall
    exact hqs.mem ((requested_interfaces_iff h.interfaces).mpr ⟨c, hc, hcall⟩)
  · intro e he x hcall
    obtain ⟨d, -, qs', hyield, hqs'⟩ := exists_of_forall₂_left hres he
    exact hqs'.mem ((requested_synthesized_iff hyield).mpr hcall)

/-- **The entries of a run** are the least set that is closed under demand. -/
theorem isLeast (h : Phases settings classes names qs ds v) :
    IsLeast {S | ClosedUnderDemand settings.predefinedEnums classes S} v.registry.table := by
  refine ⟨h.closed, fun T hT x hx => ?_⟩
  obtain ⟨hsound, -, hqs, hres⟩ := h.summary
  obtain ⟨es, hsub, hreg, hs, -⟩ := h.filed
  have hwalk := h.walk
  rw [hreg] at hwalk
  -- the walk never leaves the entries of the run that lie in `T`
  have hstart : ((Registry.empty settings.predefinedEnums).push es).table ⊆
      T ∩ v.registry.table := by
    intro e he
    have hreq : e ∈ requested settings.predefinedEnums qs := hsub.subset he
    obtain ⟨c, hc, hcall⟩ := (requested_interfaces_iff h.interfaces).mp hreq
    exact ⟨hT.classes c hc e hcall, hqs.mem hreq⟩
  have hstay : ∀ e ∈ T ∩ v.registry.table, ∃ qs a,
      ((context settings classes names).synthesized e.1 e.2).Yields qs a ∧
        Covers settings.predefinedEnums (T ∩ v.registry.table) qs := by
    rintro e ⟨heT, he⟩
    obtain ⟨d, -, qs', hyield, hqs'⟩ := exists_of_forall₂_left hres he
    refine ⟨qs', d, hyield, fun q hq => ?_⟩
    obtain ⟨y, hy, hentry⟩ := hqs' q hq
    have hcall := (requested_synthesized_iff hyield).mp (mem_requested.mpr ⟨q, hq, hentry⟩)
    exact ⟨y, ⟨hT.entries e heT y hcall, hy⟩, hentry⟩
  have hconsistent : Consistent (T ∩ v.registry.table) :=
    fun key shape shape' hmem hmem' => hsound.consistent key shape shape' hmem.2 hmem'.2
  exact ((hwalk.completes hs hconsistent hstart hstay).2 hx).1

end Phases

end ApiSurface
