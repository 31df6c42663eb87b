import ApiSurface.Code.Member
import ApiSurface.Proofs.Lowering.Reference

/-!
# Signatures of members

A `Signature` is what the line of a member is made of: the reference to its type, the identifier it
is declared under, and its arguments.
-/

namespace ApiSurface

open Lowering

/-- A place with a type and an identifier: an argument, or a property of a synthesized class. -/
structure Slot where
  type : Reference
  name : String

/-- A member of an interface as it is declared. -/
structure Signature where
  type : Reference
  name : String
  arguments : List Slot

/-- The argument that is written for a slot. -/
def Slot.argument (s : Slot) : Argument := ⟨s.type.text, s.name⟩

namespace Signature

/-- The mark of a generic method, behind its name. -/
def marker (s : Signature) : String :=
  if s.type.text = genericPlaceholder then "<" ++ genericPlaceholder ++ ">" else ""

/-- The line of a member with a signature. -/
def line (m : Member) (s : Signature) : String :=
  if m.kind = "property" then Context.propertyLine "" s.type.text s.name
  else if m.kind = "event" then Context.eventLine s.type.text s.name
  else Context.methodLine (wrapAsync s.type.text m) (s.name ++ s.marker)
    (s.arguments.map Slot.argument)

/-- The declarations that a signature names. -/
def demands (s : Signature) : List Demand :=
  s.type.demands ++ s.arguments.flatMap (·.type.demands)

/-- The references in a signature: its type and those of its arguments. -/
def references (s : Signature) : List Reference := s.type :: s.arguments.map (·.type)

end Signature

/-- The members that become arguments in the declaration of a member. -/
def Member.parameters (m : Member) : List Member :=
  if m.kind = "method" then ApiSurface.leaves m.args else []

/-- Whether a member is a method that is declared with `Get` in front of its name: it takes nothing,
yields something, and its name is not that of a question. -/
def IsGetter (m : Member) (type name : String) : Prop :=
  m.kind = "method" ∧ m.args = [] ∧ type ≠ "void" ∧ name.startsWith "Is" = false

instance (m : Member) (type name : String) : Decidable (IsGetter m type name) :=
  inferInstanceAs (Decidable (_ ∧ _ ∧ _ ∧ _))

/-- The slot of an argument of a member of an owner. -/
structure FillsArgument (v : Vocabulary) (owner : String) (a : Member) (s : Slot) : Prop where
  type : Denotes v owner a.name a.type s.type
  name : Identifier.translate "argument" a.name none = .ok s.name

/-- The signature of a member of an owner. -/
structure Declares (v : Vocabulary) (owner : String) (m : Member) (s : Signature) : Prop where
  kind : m.kind = "property" ∨ m.kind = "event" ∨ m.kind = "method"
  type : Denotes v owner m.name m.type s.type
  name : ∃ name, Identifier.translate m.kind m.name (some m) = .ok name ∧
    s.name = if IsGetter m s.type.text name then "Get" ++ name else name
  arguments : List.Forall₂ (FillsArgument v owner) m.parameters s.arguments
  distinct : (s.arguments.map (·.name)).Nodup

variable {cx : Context} {place : Place} {owner : String} {qs : List Request}

theorem yields_typeOf {m : Member} {t : String} (h : (cx.typeOf owner m).Yields qs t) :
    ∃ r, Denotes cx.vocabulary owner m.name m.type r ∧ t = r.text ∧
      qs.map (·.demand) = r.demands := by
  have hlow : cx.typeOf owner m =
      ref cx.vocabulary ⟨owner, m.name, none⟩ owner (some m) m.type := rfl
  rw [hlow, yields_ref_iff] at h
  obtain ⟨r, hr, rfl, rfl⟩ := h
  exact ⟨r, hr, rfl, by simp [Function.comp_def]⟩

/-- **The arguments** of a method fill the slots of its leaves, with names that differ from each
other and from those taken. -/
theorem yields_argumentsFrom {method : String} {taken : List String} {args : List Member}
    {as : List Argument} (h : (cx.argumentsFrom place owner method taken args).Yields qs as) :
    ∃ slots, List.Forall₂ (FillsArgument cx.vocabulary owner) args slots ∧
      as = slots.map Slot.argument ∧ qs.map (·.demand) = slots.flatMap (·.type.demands) ∧
      (slots.map (·.name)).Nodup ∧ ∀ s ∈ slots, s.name ∉ taken := by
  induction args generalizing taken qs as with
  | nil =>
    obtain ⟨rfl, rfl⟩ := Plan.yields_pure_iff.mp h
    exact ⟨[], .nil, rfl, rfl, List.nodup_nil, by simp⟩
  | cons arg args ih =>
    unfold Context.argumentsFrom at h
    obtain ⟨_, name, qs₂, hlift, htaking, rfl⟩ := Plan.yields_bind_iff.mp h
    obtain ⟨rfl, hname⟩ := Plan.yields_lift_iff.mp hlift
    by_cases htaken : taken.contains name = true
    · rw [if_pos htaken] at htaking
      exact absurd htaking Plan.not_yields_blame
    · rw [if_neg htaken] at htaking
      obtain ⟨qs₃, t, qs₄, htype, hrest, rfl⟩ := Plan.yields_bind_iff.mp htaking
      obtain ⟨r, hr, rfl, rfl⟩ := yields_ref_iff.mp htype
      obtain ⟨qs₅, later, qs₆, hlater, hret, rfl⟩ := Plan.yields_bind_iff.mp hrest
      obtain ⟨rfl, rfl⟩ := Plan.yields_pure_iff.mp hret
      obtain ⟨slots, hslots, rfl, hqs, hnd, hfree⟩ := ih hlater
      refine ⟨⟨r, name⟩ :: slots, .cons ⟨hr, hname⟩ hslots, rfl, ?_, ?_, ?_⟩
      · simp [hqs, Function.comp_def]
      · rw [List.map_cons, List.nodup_cons]
        refine ⟨fun hmem => ?_, hnd⟩
        obtain ⟨s, hs, hsname⟩ := List.mem_map.mp hmem
        exact hfree s hs (hsname ▸ List.mem_cons_self)
      · intro s hs
        rcases List.mem_cons.mp hs with rfl | hs
        · simpa using htaken
        · exact fun hmem => hfree s hs (List.mem_cons_of_mem _ hmem)

theorem methodName_eq {m : Member} (hk : m.kind = "method") (type name : String) :
    Context.methodName name type (!m.args.isEmpty) =
      (if IsGetter m type name then "Get" ++ name else name) ++
        (if type = genericPlaceholder then "<" ++ genericPlaceholder ++ ">" else "") := by
  have hiff : (!(!m.args.isEmpty) && decide (type ≠ "void") && !name.startsWith "Is") = true ↔
      IsGetter m type name := by
    simp [IsGetter, hk, and_assoc]
  have hcalled : (if (!(!m.args.isEmpty) && decide (type ≠ "void") && !name.startsWith "Is") = true
      then "Get" ++ name else name) = if IsGetter m type name then "Get" ++ name else name :=
    if_congr hiff rfl rfl
  unfold Context.methodName
  simp only [hcalled]
  by_cases hT : type = genericPlaceholder
  · rw [if_pos hT, if_pos hT, String.append_assoc, String.append_assoc, String.append_assoc]
  · rw [if_neg hT, if_neg hT, String.append_empty]

/-- What properties and events have in common: a type, a name of the kind, and a line from both. -/
theorem yields_typed {m : Member} {line : String} {write : String → String → String}
    (h : (do
      let type ← cx.typeOf owner m
      let name ← Plan.lift place (Identifier.translate m.kind m.name (some m))
      return write type name : Plan String).Yields qs line) :
    ∃ r name, Denotes cx.vocabulary owner m.name m.type r ∧
      Identifier.translate m.kind m.name (some m) = .ok name ∧ line = write r.text name ∧
      qs.map (·.demand) = r.demands := by
  obtain ⟨qs₁, t, qs₂, htype, hrest, rfl⟩ := Plan.yields_bind_iff.mp h
  obtain ⟨r, hr, rfl, hqs⟩ := yields_typeOf htype
  obtain ⟨qs₃, name, qs₄, hlift, hret, rfl⟩ := Plan.yields_bind_iff.mp hrest
  obtain ⟨rfl, hname⟩ := Plan.yields_lift_iff.mp hlift
  obtain ⟨rfl, rfl⟩ := Plan.yields_pure_iff.mp hret
  exact ⟨r, name, hr, hname, rfl, by simpa using hqs⟩

theorem declares_typed {v : Vocabulary} {m : Member} {r : Reference} {name : String}
    (hk : m.kind = "property" ∨ m.kind = "event") (hr : Denotes v owner m.name m.type r)
    (hname : Identifier.translate m.kind m.name (some m) = .ok name) :
    Declares v owner m ⟨r, name, []⟩ := by
  have hno : m.kind ≠ "method" := by
    rcases hk with hk | hk <;> simp [hk]
  refine ⟨?_, hr, ⟨name, hname, ?_⟩, ?_, List.nodup_nil⟩
  · rcases hk with hk | hk
    · exact .inl hk
    · exact .inr (.inl hk)
  · rw [if_neg fun hgetter => hno hgetter.1]
  · rw [Member.parameters, if_neg hno]
    exact .nil

/-- **The line of a member** is that of a signature which follows the rules. -/
theorem yields_declaration {m : Member} {line : String}
    (h : (cx.declaration owner m).Yields qs line) :
    ∃ s, Declares cx.vocabulary owner m s ∧ line = s.line m ∧ qs.map (·.demand) = s.demands := by
  unfold Context.declaration at h
  by_cases hp : m.kind = "property"
  · rw [if_pos hp, ← hp] at h
    obtain ⟨r, name, hr, hname, rfl, hqs⟩ := yields_typed h
    refine ⟨⟨r, name, []⟩, declares_typed (.inl hp) hr hname, ?_, ?_⟩
    · rw [Signature.line, if_pos hp]
    · simp [Signature.demands, hqs]
  rw [if_neg hp] at h
  by_cases he : m.kind = "event"
  · rw [if_pos he, ← he] at h
    obtain ⟨r, name, hr, hname, rfl, hqs⟩ := yields_typed h
    refine ⟨⟨r, name, []⟩, declares_typed (.inr he) hr hname, ?_, ?_⟩
    · rw [Signature.line, if_neg hp, if_pos he]
    · simp [Signature.demands, hqs]
  rw [if_neg he] at h
  by_cases hm : m.kind = "method"
  · rw [if_pos hm, ← hm] at h
    obtain ⟨qs₁, t, qs₂, htype, hrest, rfl⟩ := Plan.yields_bind_iff.mp h
    obtain ⟨r, hr, rfl, hqs⟩ := yields_typeOf htype
    obtain ⟨qs₃, name, qs₄, hlift, hrest', rfl⟩ := Plan.yields_bind_iff.mp hrest
    obtain ⟨rfl, hname⟩ := Plan.yields_lift_iff.mp hlift
    obtain ⟨qs₅, as, qs₆, hargs, hret, rfl⟩ := Plan.yields_bind_iff.mp hrest'
    obtain ⟨rfl, rfl⟩ := Plan.yields_pure_iff.mp hret
    obtain ⟨slots, hslots, rfl, hqs', hnd, -⟩ := yields_argumentsFrom hargs
    have hparams : m.parameters = leaves m.args := if_pos hm
    refine ⟨⟨r, if IsGetter m r.text name then "Get" ++ name else name, slots⟩,
      ⟨.inr (.inr hm), hr, ⟨name, hname, rfl⟩, hparams ▸ hslots, hnd⟩, ?_, ?_⟩
    · rw [methodName_eq hm, Signature.line, if_neg hp, if_neg he]
      rfl
    · simp [Signature.demands, hqs, hqs']
  · rw [if_neg hm] at h
    exact absurd h Plan.not_yields_blame

end ApiSurface
