import ApiSurface.Proofs.Code.Agreement
import ApiSurface.Proofs.Registry.Extension

/-!
# What lowering does to a registry

Lowering a type yields a reference and registers declarations.  The reference does not depend on what
is registered, and registering only appends.
-/

namespace ApiSurface

/-- What comes of lowering a type expression on a registry. -/
def TypeExpr.lowering (v : Vocabulary) (owner : String) (member : Option Member) (e : TypeExpr)
    (r : Registry) : Plan.Run String :=
  (e.lowered v owner member).run r

section Effect

variable {v v' : Vocabulary} {owner : String} {member : Option Member} {e : TypeExpr}
  {r r' : Registry} {ref ref' : String}

/-- **Entries stay.**  A name that is registered keeps its shape, whatever comes of lowering. -/
theorem lowering_get? {key : String} {shape : Shape} (h : r.get? key = some shape) :
    (e.lowering v owner member r).registry.get? key = some shape := by
  unfold TypeExpr.lowering
  rw [Plan.run_registry]
  exact Registry.get?_of_file h _

/-- **Names are appended**, each once and none of them taken before, whatever comes of lowering. -/
theorem keys_lowering : (e.lowering v owner member r).registry.keys =
      r.keys ++ (e.lowering v owner member r).added ∧
    (e.lowering v owner member r).added.Nodup ∧
    ∀ key ∈ (e.lowering v owner member r).added, key ∉ r.keys := by
  obtain ⟨es, hreg, hadd, hnd, hfresh⟩ := (e.lowered v owner member).run_extends r
  unfold TypeExpr.lowering
  rw [hreg, hadd, Registry.push_keys]
  refine ⟨rfl, hnd, fun key hkey => ?_⟩
  obtain ⟨x, hx, rfl⟩ := List.mem_map.mp hkey
  exact Registry.get?_eq_none_iff.mp (hfresh x hx)

/-- **The reference** is the same on all registries on which lowering succeeds, and under all
vocabularies that give every class the same name and treat unions alike. -/
theorem lowering_agrees (hv : v.Agrees v') (h : (e.lowering v owner member r).outcome = .ok ref)
    (h' : (e.lowering v' owner member r').outcome = .ok ref') : ref = ref' := by
  have hsame : e.lowered v owner member = e.lowered v' owner member := hv.ref_eq _ _ _ _
  have hout := (Plan.run_ok_iff.mp h).2
  have hout' := (Plan.run_ok_iff.mp h').2
  rw [← hsame, hout] at hout'
  exact Except.ok.inj hout'

/-- **Lowering once more** gives the same reference and changes nothing. -/
theorem lowering_again (h : (e.lowering v owner member r).outcome = .ok ref) :
    e.lowering v owner member (e.lowering v owner member r).registry =
      ⟨[], .ok ref, (e.lowering v owner member r).registry⟩ :=
  Plan.run_again h

end Effect

/-- **The effect of lowering.**  Lowering any type at any place, on any registry:

* the old names stand in front of the new ones and every entry keeps its shape, also if it fails;
* if it succeeds, the names added are those behind the old ones, each once and none of them old;
* on any two registries, and under vocabularies that agree, it gives the same reference if it
  succeeds on both;
* if it succeeds, it succeeds again on what it leaves, with the same reference, and adds nothing. -/
theorem lowering_effect (v : Vocabulary) (owner : String) (member : Option Member) (e : TypeExpr)
    (r : Registry) :
    (r.keys <+: (e.lowering v owner member r).registry.keys ∧
      ∀ key shape, r.get? key = some shape →
        (e.lowering v owner member r).registry.get? key = some shape) ∧
    (∀ ref, (e.lowering v owner member r).outcome = .ok ref →
      (e.lowering v owner member r).registry.keys =
          r.keys ++ (e.lowering v owner member r).added ∧
        (e.lowering v owner member r).added.Nodup ∧
        (∀ key ∈ (e.lowering v owner member r).added, key ∉ r.keys) ∧
        (r.keys.Nodup → (e.lowering v owner member r).registry.keys.Nodup)) ∧
    (∀ v' r' ref ref', v.Agrees v' → (e.lowering v owner member r).outcome = .ok ref →
      (e.lowering v' owner member r').outcome = .ok ref' → ref = ref') ∧
    ∀ ref, (e.lowering v owner member r).outcome = .ok ref →
      e.lowering v owner member (e.lowering v owner member r).registry =
        ⟨[], .ok ref, (e.lowering v owner member r).registry⟩ := by
  obtain ⟨hkeys, hnd, hfresh⟩ := @keys_lowering v owner member e r
  refine ⟨⟨⟨_, hkeys.symm⟩, fun key shape => lowering_get?⟩, fun ref _ => ⟨hkeys, hnd, hfresh, ?_⟩,
    fun v' r' ref ref' hv => lowering_agrees hv, fun ref => lowering_again⟩
  intro hold
  rw [hkeys, List.nodup_append]
  refine ⟨hold, hnd, fun a ha b hb => ?_⟩
  rintro rfl
  exact hfresh a hb ha

/-- The type of a table from sides to sizes, at a member that both halves are named after. -/
def sizesMember : Member :=
  { kind := "property", name := "sizes"
    type := .map (.union [.literal "'left'", .literal "'right'"])
      (.shape [{ kind := "property", name := "width", type := .primitive "number" }]) }

theorem lowering_sizesMember :
    ∃ run, sizesMember.type.lowering {} "Box" (some sizesMember) (.empty []) = run ∧
      run.outcome = .ok "IEnumerable<KeyValuePair<Sizes, BoxSizesResult>>" ∧
      run.added = ["Sizes", "BoxSizesResult"] ∧
      run.registry.keys = ["Sizes", "BoxSizesResult"] ∧
      sizesMember.type.lowering {} "Box" (some sizesMember) run.registry =
        ⟨[], .ok "IEnumerable<KeyValuePair<Sizes, BoxSizesResult>>", run.registry⟩ := by
  refine ⟨_, rfl, rfl, rfl, rfl, ?_⟩
  exact (lowering_effect {} "Box" (some sizesMember) sizesMember.type (.empty [])).2.2.2 _ rfl

end ApiSurface
