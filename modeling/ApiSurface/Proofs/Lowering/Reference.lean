import ApiSurface.Lowering
import ApiSurface.Proofs.Registry.Filing

/-!
# References, the structure behind the text of a type

Lowering writes a type as text.  A `Reference` is what it puts together before it is text: a tree
whose leaves say which names are declarations to synthesize and which are classes.
-/

namespace ApiSurface

open Lowering

/-- A reference to a type, as a tree. -/
inductive Reference where
  /-- A type with a fixed text. -/
  | plain (type : String)
  /-- A class by its name in the description, and the text for it. -/
  | named (name type : String)
  /-- A declaration that is synthesized on demand. -/
  | synthesized (demand : Demand)
  | array (element : Reference)
  | nullable (inner : Reference)
  | pairs (key value : Reference)

namespace Reference

/-- The text of a reference. -/
def text : Reference → String
  | .plain type => type
  | .named _ type => type
  | .synthesized demand => demand.key
  | .array element => element.text ++ "[]"
  | .nullable inner => Lowering.nullable inner.text
  | .pairs key value => "IEnumerable<KeyValuePair<" ++ key.text ++ ", " ++ value.text ++ ">>"

/-- The declarations that a reference names, from left to right. -/
def demands : Reference → List Demand
  | .plain _ | .named _ _ => []
  | .synthesized demand => [demand]
  | .array inner | .nullable inner => inner.demands
  | .pairs key value => key.demands ++ value.demands

/-- The classes that a reference names, each with the text for it. -/
def classes : Reference → List (String × String)
  | .plain _ | .synthesized _ => []
  | .named name type => [(name, type)]
  | .array inner | .nullable inner => inner.classes
  | .pairs key value => key.classes ++ value.classes

end Reference

/-- The reference of a type expression at a member of an owner. -/
inductive Denotes (v : Vocabulary) (owner member : String) : TypeExpr → Reference → Prop
  | primitive {name type : String} (h : primitiveTypes.lookup name = some type) :
    Denotes v owner member (.primitive name) (.plain type)
  | named {name : String} :
    Denotes v owner member (.named name) (.named name ((v.classNames.lookup name).getD name))
  /-- An array of anything but an array, also behind nullability. -/
  | array {element : TypeExpr} {r : Reference} (hone : ∀ e, element.nonNull ≠ .array e)
    (h : Denotes v owner member element r) : Denotes v owner member (.array element) (.array r)
  | nullable {inner : TypeExpr} {r : Reference} (h : Denotes v owner member inner r) :
    Denotes v owner member (.union [.primitive "null", inner]) (.nullable r)
  | triState {text : String} (h : stripQuotes text = "mixed") :
    Denotes v owner member (.union [.primitive "boolean", .literal text])
      (.synthesized (.predefined Lowering.triState))
  | literals {members : List TypeExpr} {texts : List String} {name : String}
    (hm : members = texts.map .literal) (hn : Identifier.translate "enum" member none = .ok name) :
    Denotes v owner member (.union members)
      (.synthesized (.shape name (.enum (texts.map stripQuotes))))
  /-- A union without an exact counterpart. -/
  | inexact {members : List TypeExpr} (hnull : ∀ rest, members ≠ .primitive "null" :: rest)
    (htri : isTriState members = false) (hlit : ∀ texts : List String, members ≠ texts.map .literal)
    (hstrict : v.strictUnions = false) : Denotes v owner member (.union members) (.plain anyUnion)
  | emptyShape : Denotes v owner member (.shape []) (.plain "object")
  | shape {properties : List Member} (h : properties ≠ []) :
    Denotes v owner member (.shape properties)
      (.synthesized (.shape (resultTypeName owner member) (.object properties)))
  | map {key value : TypeExpr} {k r : Reference} (hk : Denotes v owner member key k)
    (hv : Denotes v owner member value r) : Denotes v owner member (.map key value) (.pairs k r)

/-! ### Unions -/

theorem isTriState_iff {members : List TypeExpr} : isTriState members = true ↔
    ∃ text, members = [.primitive "boolean", .literal text] ∧ stripQuotes text = "mixed" := by
  constructor
  · intro h
    unfold isTriState at h
    split at h
    · exact ⟨_, rfl, by simpa using h⟩
    · cases h
  · rintro ⟨text, rfl, h⟩
    simpa [isTriState] using h

theorem all_isLiteral_iff {members : List TypeExpr} :
    members.all (·.isLiteral) = true ↔ ∃ texts : List String, members = texts.map .literal := by
  induction members with
  | nil => simp
  | cons e members ih =>
    rw [List.all_cons, Bool.and_eq_true, ih]
    constructor
    · rintro ⟨he, texts, rfl⟩
      unfold TypeExpr.isLiteral at he
      split at he
      · rename_i text
        exact ⟨text :: texts, rfl⟩
      · cases he
    · rintro ⟨texts, h⟩
      cases texts with
      | nil => cases h
      | cons text texts =>
        rw [List.map_cons, List.cons.injEq] at h
        obtain ⟨rfl, rfl⟩ := h
        exact ⟨rfl, texts, rfl⟩

theorem literalValues_map (texts : List String) :
    literalValues (texts.map .literal) = texts.map stripQuotes := by
  induction texts with
  | nil => rfl
  | cons text texts ih =>
    unfold literalValues at ih ⊢
    rw [List.map_cons, List.filterMap_cons, ih, List.map_cons]

theorem TypeExpr.map_literal_injective {texts texts' : List String}
    (h : texts.map TypeExpr.literal = texts'.map TypeExpr.literal) : texts = texts' :=
  List.map_injective_iff.mpr (fun _ _ => TypeExpr.literal.inj) h

/-! ### Lowering yields the reference -/

variable {v : Vocabulary} {place : Place} {owner : String} {m : Member} {qs : List Request}
  {t : String}

theorem yields_objectRef_iff {properties : List Member} :
    (objectRef place owner (some m) properties).Yields qs t ↔
      (properties = [] ∧ qs = [] ∧ t = "object") ∨
        (properties ≠ [] ∧
          qs = [⟨.shape (resultTypeName owner m.name) (.object properties), place⟩] ∧
          t = resultTypeName owner m.name) := by
  unfold objectRef
  cases properties with
  | nil => simp
  | cons p ps => simp [Plan.yields_bind_iff, and_comm]

theorem denotes_union_iff {member : String} {members : List TypeExpr} {r : Reference} :
    Denotes v owner member (.union members) r ↔
      (∃ inner r', members = [.primitive "null", inner] ∧ Denotes v owner member inner r' ∧
        r = .nullable r') ∨
      (∃ text, members = [.primitive "boolean", .literal text] ∧ stripQuotes text = "mixed" ∧
        r = .synthesized (.predefined Lowering.triState)) ∨
      (∃ (texts : List String) (name : String), members = texts.map .literal ∧
        Identifier.translate "enum" member none = .ok name ∧
        r = .synthesized (.shape name (.enum (texts.map stripQuotes)))) ∨
      ((∀ rest, members ≠ .primitive "null" :: rest) ∧ isTriState members = false ∧
        (∀ texts : List String, members ≠ texts.map .literal) ∧ v.strictUnions = false ∧
        r = .plain anyUnion) := by
  constructor
  · intro h
    cases h with
    | nullable h => exact .inl ⟨_, _, rfl, h, rfl⟩
    | triState h => exact .inr (.inl ⟨_, rfl, h, rfl⟩)
    | literals hm hn => exact .inr (.inr (.inl ⟨_, _, hm, hn, rfl⟩))
    | inexact hnull htri hlit hstrict => exact .inr (.inr (.inr ⟨hnull, htri, hlit, hstrict, rfl⟩))
  · rintro (⟨inner, r', rfl, h, rfl⟩ | ⟨text, rfl, h, rfl⟩ | ⟨texts, name, hm, hn, rfl⟩ |
      ⟨hnull, htri, hlit, hstrict, rfl⟩)
    · exact .nullable h
    · exact .triState h
    · exact .literals hm hn
    · exact .inexact hnull htri hlit hstrict

theorem yields_unionRef_iff {members : List TypeExpr}
    (hnull : ∀ rest, members ≠ .primitive "null" :: rest) :
    (unionRef v place owner (some m) members).Yields qs t ↔
      ∃ r, Denotes v owner m.name (.union members) r ∧ t = r.text ∧
        qs = r.demands.map (⟨·, place⟩) := by
  unfold unionRef
  simp only [denotes_union_iff]
  by_cases htri : isTriState members = true
  · rw [if_pos htri]
    obtain ⟨text, rfl, htext⟩ := isTriState_iff.mp htri
    simp only [Plan.yields_bind_iff, Plan.yields_request_iff, Plan.yields_pure_iff]
    constructor
    · rintro ⟨qs₁, u, qs₂, rfl, ⟨rfl, rfl⟩, rfl⟩
      exact ⟨_, .inr (.inl ⟨text, rfl, htext, rfl⟩), rfl, rfl⟩
    · rintro ⟨r, ⟨_, _, h, -⟩ | ⟨_, -, -, rfl⟩ | ⟨texts, _, h, -⟩ | ⟨-, h, -⟩, rfl, rfl⟩
      · exact absurd h (hnull _)
      · exact ⟨_, (), [], rfl, ⟨rfl, rfl⟩, rfl⟩
      · cases texts <;> simp at h
      · exact absurd htri (by simp [h])
  · rw [if_neg htri]
    by_cases hlit : members.all (·.isLiteral) = true
    · rw [if_pos hlit]
      obtain ⟨texts, rfl⟩ := all_isLiteral_iff.mp hlit
      unfold enumRef
      simp only [Plan.yields_bind_iff, Plan.yields_request_iff, Plan.yields_pure_iff,
        Plan.yields_lift_iff, Option.map_some, Option.getD_some, literalValues_map]
      constructor
      · rintro ⟨qs₁, name, qs₂, ⟨rfl, hn⟩, ⟨qs₃, u, qs₄, rfl, ⟨rfl, rfl⟩, rfl⟩, rfl⟩
        exact ⟨_, .inr (.inr (.inl ⟨texts, _, rfl, hn, rfl⟩)), rfl, rfl⟩
      · rintro ⟨r, ⟨_, _, h, -⟩ | ⟨_, h, htext, -⟩ | ⟨texts', name, h, hn, rfl⟩ | ⟨-, -, h, -⟩,
          rfl, rfl⟩
        · exact absurd h (hnull _)
        · exact absurd (isTriState_iff.mpr ⟨_, h, htext⟩) htri
        · obtain rfl := TypeExpr.map_literal_injective h
          exact ⟨[], _, _, ⟨rfl, hn⟩, ⟨_, (), [], rfl, ⟨rfl, rfl⟩, rfl⟩, rfl⟩
        · exact absurd rfl (h texts)
    · rw [if_neg hlit]
      have hlit' : ∀ texts : List String, members ≠ texts.map .literal :=
        fun texts h => hlit (all_isLiteral_iff.mpr ⟨texts, h⟩)
      -- what is left is the opaque union, which a strict vocabulary refuses
      constructor
      · intro h
        split at h
        · exact absurd h Plan.not_yields_blame
        · rename_i hstrict
          obtain ⟨rfl, rfl⟩ := Plan.yields_pure_iff.mp h
          exact ⟨_, .inr (.inr (.inr ⟨hnull, by simpa using htri, hlit', by simpa using hstrict,
            rfl⟩)), rfl, rfl⟩
      · rintro ⟨r, ⟨_, _, h, -⟩ | ⟨_, h, htext, -⟩ | ⟨texts, _, h, -⟩ | ⟨-, -, -, hstrict, rfl⟩,
          rfl, rfl⟩
        · exact absurd h (hnull _)
        · exact absurd (isTriState_iff.mpr ⟨_, h, htext⟩) htri
        · exact absurd h (hlit' texts)
        · rw [if_neg (by simp [hstrict])]
          exact Plan.yields_pure_iff.mpr ⟨rfl, rfl⟩

theorem ref_array_of_ne (v : Vocabulary) (place : Place) (owner : String) (member : Option Member)
    {element : TypeExpr} (h : ∀ inner, element.nonNull ≠ .array inner) :
    ref v place owner member (.array element) = do
      return (← ref v place owner member element) ++ "[]" := by
  rw [ref]
  split
  · rename_i inner heq
    exact absurd heq (h inner)
  · rfl

/-- **Lowering yields the text of the reference**, and asks for the declarations in it. -/
theorem yields_ref_iff {e : TypeExpr} : (ref v place owner (some m) e).Yields qs t ↔
    ∃ r, Denotes v owner m.name e r ∧ t = r.text ∧ qs = r.demands.map (⟨·, place⟩) := by
  induction e using Lowering.ref.induct generalizing qs t with
  | case1 inner ih =>
    rw [ref]
    simp only [Plan.yields_bind_iff, Plan.yields_pure_iff, ih, denotes_union_iff]
    constructor
    · rintro ⟨qs₁, t₁, qs₂, ⟨r, hr, rfl, rfl⟩, ⟨rfl, rfl⟩, rfl⟩
      exact ⟨_, .inl ⟨inner, r, rfl, hr, rfl⟩, rfl, by rw [List.append_nil]; rfl⟩
    · rintro ⟨r, ⟨_, r', h, hr, rfl⟩ | ⟨_, h, -⟩ | ⟨texts, _, h, -⟩ | ⟨h, -⟩, rfl, rfl⟩
      · simp only [List.cons.injEq, and_true, true_and] at h
        subst h
        exact ⟨_, _, [], ⟨_, hr, rfl, rfl⟩, ⟨rfl, rfl⟩, by rw [List.append_nil]; rfl⟩
      · simp at h
      · cases texts <;> simp at h
      · exact absurd rfl (h _)
  | case2 rest hrest =>
    have heq : ref v place owner (some m) (.union (.primitive "null" :: rest)) =
        Plan.blame place (.nullableArity (rest.length + 1)) := by
      rw [ref]
      exact hrest
    rw [heq]
    simp only [denotes_union_iff]
    refine ⟨fun h => absurd h Plan.not_yields_blame, ?_⟩
    rintro ⟨r, ⟨inner, _, h, -⟩ | ⟨_, h, -⟩ | ⟨texts, _, h, -⟩ | ⟨h, -⟩, -, -⟩
    · exact absurd (List.cons.inj h).2 (hrest inner)
    · simp at h
    · cases texts <;> simp at h
    · exact absurd rfl (h _)
  | case3 members hnull =>
    rw [ref]
    · exact yields_unionRef_iff fun rest h => hnull rest h
    · exact hnull
  | case4 element inner hnested =>
    rw [ref, hnested]
    refine ⟨fun h => absurd h Plan.not_yields_blame, ?_⟩
    rintro ⟨r, hr, -, -⟩
    cases hr with
    | array hone => exact absurd hnested (hone _)
  | case5 element hone ih =>
    rw [ref_array_of_ne v place owner (some m) fun e h => hone e h]
    simp only [Plan.yields_bind_iff, Plan.yields_pure_iff, ih]
    constructor
    · rintro ⟨qs₁, t₁, qs₂, ⟨r, hr, rfl, rfl⟩, ⟨rfl, rfl⟩, rfl⟩
      exact ⟨_, .array (fun e h => hone e h) hr, rfl, by rw [List.append_nil]; rfl⟩
    · rintro ⟨r, hr, rfl, rfl⟩
      cases hr with
      | array _ hr => exact ⟨_, _, [], ⟨_, hr, rfl, rfl⟩, ⟨rfl, rfl⟩, by rw [List.append_nil]; rfl⟩
  | case6 name type hlook =>
    rw [ref, hlook]
    simp only [Plan.yields_pure_iff]
    constructor
    · rintro ⟨rfl, rfl⟩
      exact ⟨_, .primitive hlook, rfl, rfl⟩
    · rintro ⟨r, hr, rfl, rfl⟩
      cases hr with
      | primitive h =>
        rw [hlook] at h
        cases h
        exact ⟨rfl, rfl⟩
  | case7 name hlook =>
    rw [ref, hlook]
    refine ⟨fun h => absurd h Plan.not_yields_blame, ?_⟩
    rintro ⟨r, hr, -, -⟩
    cases hr with
    | primitive h =>
      rw [hlook] at h
      cases h
  | case8 text =>
    rw [ref]
    refine ⟨fun h => absurd h Plan.not_yields_blame, ?_⟩
    rintro ⟨r, hr, -, -⟩
    cases hr
  | case9 properties =>
    rw [ref, yields_objectRef_iff]
    constructor
    · rintro (⟨rfl, rfl, rfl⟩ | ⟨hne, rfl, rfl⟩)
      · exact ⟨_, .emptyShape, rfl, rfl⟩
      · exact ⟨_, .shape hne, rfl, rfl⟩
    · rintro ⟨r, hr, rfl, rfl⟩
      cases hr with
      | emptyShape => exact .inl ⟨rfl, rfl, rfl⟩
      | shape hne => exact .inr ⟨hne, rfl, rfl⟩
  | case10 key value ihk ihv =>
    rw [ref]
    simp only [Plan.yields_bind_iff, Plan.yields_pure_iff, ihk, ihv]
    constructor
    · rintro ⟨qs₁, t₁, qs₂, ⟨k, hk, rfl, rfl⟩, ⟨qs₃, t₂, qs₄, ⟨r, hr, rfl, rfl⟩, ⟨rfl, rfl⟩, rfl⟩,
        rfl⟩
      exact ⟨_, .map hk hr, rfl, by simp [Reference.demands]⟩
    · rintro ⟨r, hr, rfl, rfl⟩
      cases hr with
      | map hk hv =>
        exact ⟨_, _, _, ⟨_, hk, rfl, rfl⟩, ⟨_, _, [], ⟨_, hv, rfl, rfl⟩, ⟨rfl, rfl⟩, rfl⟩,
          by simp [Reference.demands]⟩
  | case11 name =>
    rw [ref]
    simp only [Plan.yields_pure_iff]
    constructor
    · rintro ⟨rfl, rfl⟩
      exact ⟨_, .named, rfl, rfl⟩
    · rintro ⟨r, hr, rfl, rfl⟩
      cases hr
      exact ⟨rfl, rfl⟩

end ApiSurface
