import ApiSurface.Proofs.Code.Bare
import ApiSurface.Proofs.Generation.Closure

/-!
# Rendering with and without documentation

`p.Undocumented q Written`: the plan `q` is the plan `p` without its documentation. It succeeds if
and only if `p` does, as far as the comments of `p` can be `Written`, and asks for the same without
documentation.
-/

namespace ApiSurface

namespace Plan

/-- The second plan is the first without documentation, whose comments may be written or not. -/
structure Undocumented {α β : Type} (p : Plan α) (q : Plan β) (Written : Prop) : Prop where
  strip : ∀ qs a, p.Yields qs a → Written ∧ ∃ b, q.Yields (qs.map .bare) b
  restore : Written → ∀ qs b, q.Yields qs b → ∃ qs' a, p.Yields qs' a ∧ qs = qs'.map .bare

namespace Undocumented

variable {α β γ δ : Type} {Written Written' : Prop}

theorem yields_bare_iff {p : Plan α} {qs : List Request} {a : α} :
    p.bare.Yields qs a ↔ ∃ qs', p.Yields qs' a ∧ qs = qs'.map .bare := by
  constructor
  · rintro ⟨rfl, ha⟩
    exact ⟨_, ⟨rfl, ha⟩, rfl⟩
  · rintro ⟨qs', ⟨rfl, ha⟩, rfl⟩
    exact ⟨rfl, ha⟩

theorem congr {p : Plan α} {q : Plan β} (h : p.Undocumented q Written)
    (hw : Written ↔ Written') : p.Undocumented q Written' :=
  propext hw ▸ h

theorem of_bare {p q : Plan α} (hq : q = p.bare) : p.Undocumented q True where
  strip _ a h := ⟨trivial, a, hq ▸ yields_bare_iff.mpr ⟨_, h, rfl⟩⟩
  restore _ _ a h := by
    rw [hq] at h
    obtain ⟨qs', h', rfl⟩ := yields_bare_iff.mp h
    exact ⟨qs', a, h', rfl⟩

theorem pure (a : α) (b : β) : (Pure.pure a : Plan α).Undocumented (Pure.pure b : Plan β) True where
  strip qs a' h := by
    obtain ⟨rfl, -⟩ := yields_pure_iff.mp h
    exact ⟨trivial, b, yields_pure_iff.mpr ⟨rfl, rfl⟩⟩
  restore _ qs b' h := by
    obtain ⟨rfl, -⟩ := yields_pure_iff.mp h
    exact ⟨[], a, yields_pure_iff.mpr ⟨rfl, rfl⟩, rfl⟩

theorem same {p q : Plan α} {f : α → Plan β} {g : α → Plan γ} (hq : q = p.bare)
    (h : ∀ a, (f a).Undocumented (g a) Written) : (p >>= f).Undocumented (q >>= g) Written where
  strip qs b hyield := by
    obtain ⟨qs₁, a, qs₂, ha, hb, rfl⟩ := yields_bind_iff.mp hyield
    obtain ⟨hwritten, c, hc⟩ := (h a).strip _ _ hb
    refine ⟨hwritten, c, ?_⟩
    rw [List.map_append, hq]
    exact yields_bind_iff.mpr ⟨_, a, _, yields_bare_iff.mpr ⟨_, ha, rfl⟩, hc, rfl⟩
  restore hwritten qs c hyield := by
    obtain ⟨qs₁, a, qs₂, ha, hc, rfl⟩ := yields_bind_iff.mp hyield
    rw [hq] at ha
    obtain ⟨qs₁', ha', rfl⟩ := yields_bare_iff.mp ha
    obtain ⟨qs₂', b, hb, rfl⟩ := (h a).restore hwritten _ _ hc
    exact ⟨_, b, yields_bind_iff.mpr ⟨_, a, _, ha', hb, rfl⟩, List.map_append.symm⟩

/-- One plan after another, if the second does not fail for a result of the first. -/
theorem bind {p : Plan α} {q : Plan β} {f : α → Plan γ} {g : β → Plan δ}
    (h : p.Undocumented q Written) (hf : ∀ a b, (f a).Undocumented (g b) Written') :
    (p >>= f).Undocumented (q >>= g) (Written ∧ Written') where
  strip qs c hyield := by
    obtain ⟨qs₁, a, qs₂, ha, hc, rfl⟩ := yields_bind_iff.mp hyield
    obtain ⟨hwritten, b, hb⟩ := h.strip _ _ ha
    obtain ⟨hwritten', d, hd⟩ := (hf a b).strip _ _ hc
    refine ⟨⟨hwritten, hwritten'⟩, d, ?_⟩
    rw [List.map_append]
    exact yields_bind_iff.mpr ⟨_, b, _, hb, hd, rfl⟩
  restore hwritten qs d hyield := by
    obtain ⟨qs₁, b, qs₂, hb, hd, rfl⟩ := yields_bind_iff.mp hyield
    obtain ⟨qs₁', a, ha, rfl⟩ := h.restore hwritten.1 _ _ hb
    obtain ⟨qs₂', c, hc, rfl⟩ := (hf a b).restore hwritten.2 _ _ hd
    exact ⟨_, c, yields_bind_iff.mpr ⟨_, a, _, ha, hc, rfl⟩, List.map_append.symm⟩

/-- **One plan for each element**: all comments have to be written. -/
theorem forEach {f : α → Plan β} {g : γ → Plan δ} {bare : α → γ} {Written : α → Prop} {as : List α}
    (h : ∀ a ∈ as, (f a).Undocumented (g (bare a)) (Written a)) :
    (Plan.forEach f as).Undocumented (Plan.forEach g (as.map bare)) (∀ a ∈ as, Written a) := by
  induction as with
  | nil => exact (pure [] []).congr (by simp)
  | cons a as ih =>
    have has := ih fun b hb => h b (List.mem_cons_of_mem _ hb)
    have hrow := (h a List.mem_cons_self).bind fun b d => has.bind fun bs ds =>
      pure (b :: bs) (d :: ds)
    exact hrow.congr (by rw [List.forall_mem_cons, and_true])

end Undocumented

end Plan

namespace Context

open Plan

/-- The comment for some documentation can be written. -/
def Writes (cx : Context) (nodes : List DocNode) : Prop :=
  ∃ lines, cx.style.docLines nodes = .ok lines

/-- The same context with other links. -/
def withLinks (cx : Context) (links : Comment.LinkResolver) : Context := { cx with links := links }

variable {cx : Context} {links : Comment.LinkResolver}

theorem undocumented_docLines (nodes : List DocNode) :
    (cx.docLines nodes).Undocumented ((cx.withLinks links).docLines []) (cx.Writes nodes) where
  strip qs lines h := by
    obtain ⟨rfl, hlines⟩ := yields_docLines h
    exact ⟨⟨lines, hlines⟩, [], yields_lift_iff.mpr ⟨rfl, rfl⟩⟩
  restore := by
    rintro ⟨lines, hlines⟩ qs b h
    obtain ⟨rfl, -⟩ := yields_docLines h
    exact ⟨[], lines, yields_lift_iff.mpr ⟨rfl, hlines⟩, rfl⟩

theorem declaration_withLinks (owner : String) (m : Member) :
    (cx.withLinks links).declaration owner m = cx.declaration owner m := by
  have htype : (cx.withLinks links).typeOf owner m = cx.typeOf owner m := rfl
  have hargs : ∀ place owner' method taken args,
      (cx.withLinks links).argumentsFrom place owner' method taken args =
        cx.argumentsFrom place owner' method taken args := by
    intro place owner' method taken args
    induction args generalizing taken with
    | nil => rfl
    | cons arg args ih =>
      rw [argumentsFrom, argumentsFrom]
      simp only [ih]
      rfl
  unfold declaration arguments
  simp only [htype, hargs]

theorem undocumented_memberLines (owner : String) (m : Member) :
    (cx.memberLines owner m).Undocumented ((cx.withLinks links).memberLines owner m.bare)
      (cx.Writes m.doc) := by
  have hdecl : (cx.withLinks links).declaration owner m.bare = (cx.declaration owner m).bare := by
    rw [declaration_withLinks, declaration_bare]
  unfold memberLines
  rw [Member.bare_doc]
  exact .same hdecl fun _ =>
    ((undocumented_docLines m.doc).bind fun _ _ => .pure _ _).congr (and_iff_left trivial)

/-- **The interface** of a bare class. -/
theorem undocumented_interface (links : Comment.LinkResolver) (c : ApiClass) :
    (cx.interface c).Undocumented ((cx.withLinks links).interface c.bare)
      (cx.Writes c.doc ∧ ∀ m ∈ c.members, cx.Writes m.doc) := by
  have hmembers := Undocumented.forEach (g := (cx.withLinks links).memberLines c.name)
    fun m (_ : m ∈ c.members) => undocumented_memberLines c.name m
  refine .same (bare_lift _ _).symm fun name => ?_
  exact (undocumented_docLines c.doc).bind fun _ _ =>
    (hmembers.bind fun _ _ => .pure _ _).congr (and_iff_left trivial)

theorem undocumented_resultProperty (key : String) (p : Member) :
    (cx.resultProperty key p).Undocumented ((cx.withLinks links).resultProperty key p.bare)
      (cx.Writes p.doc) := by
  have htype : (cx.withLinks links).typeOf key p.bare = (cx.typeOf key p).bare :=
    cx.typeOf_bare key p
  unfold resultProperty
  rw [Member.bare_name, translate_bare, Member.bare_doc]
  exact .same htype fun _ => .same (bare_lift _ _).symm fun _ =>
    ((undocumented_docLines p.doc).bind fun _ _ => .pure _ _).congr (and_iff_left trivial)

/-- **The declaration** for a bare shape. -/
theorem undocumented_synthesized (links : Comment.LinkResolver) (key : String) (shape : Shape) :
    (cx.synthesized key shape).Undocumented ((cx.withLinks links).synthesized key shape.bare)
      (∀ p ∈ shape.typed, cx.Writes p.doc) := by
  cases shape with
  | enum values =>
    have hnone : ∀ p ∈ (Shape.enum values).typed, cx.Writes p.doc := nofun
    exact (Undocumented.of_bare rfl).congr (iff_of_true trivial hnone)
  | object properties =>
    have hblocks := Undocumented.forEach (g := (cx.withLinks links).resultProperty key)
      fun p (_ : p ∈ properties) => undocumented_resultProperty key p
    have hall : (∀ p ∈ properties, cx.Writes p.doc) ∧ True ↔
        ∀ p ∈ (Shape.object properties).typed, cx.Writes p.doc := and_iff_left trivial
    exact (hblocks.bind fun _ _ => .pure _ _).congr hall

end Context

end ApiSurface
