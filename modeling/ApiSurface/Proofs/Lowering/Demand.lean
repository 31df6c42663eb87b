import ApiSurface.Proofs.Lowering.Reference
import ApiSurface.Proofs.Registry.Walk

/-!
# What a type expression calls for

Lowering a type expression comes to some of its parts (`Reaches`), and three kinds of parts call for
an entry of their own (`Contributes`): an object type with properties, a union of literals, and the
union of truth values and `mixed`.
-/

namespace ApiSurface

open Lowering

/-- The parts of a type expression that lowering comes to, the expression itself first. -/
inductive Reaches : TypeExpr → TypeExpr → Prop
  | self (e : TypeExpr) : Reaches e e
  | element {element e : TypeExpr} (h : Reaches element e) : Reaches (.array element) e
  | nullable {inner e : TypeExpr} (h : Reaches inner e) :
    Reaches (.union [.primitive "null", inner]) e
  | key {key value e : TypeExpr} (h : Reaches key e) : Reaches (.map key value) e
  | value {key value e : TypeExpr} (h : Reaches value e) : Reaches (.map key value) e

/-- The entry that a type expression calls for by itself, at a member of an owner. -/
inductive Contributes (predefined : List (String × List String)) (owner member : String) :
    TypeExpr → String × Shape → Prop
  /-- An object type with properties: a class named after owner and member. -/
  | shape {properties : List Member} (h : properties ≠ []) :
    Contributes predefined owner member (.shape properties)
      (owner ++ Identifier.capitalize member ++ "Result", .object properties)
  /-- A union of literals: an enum named after the member, with the literals without quotes. -/
  | literals {members : List TypeExpr} {texts : List String} {name : String}
    (hm : members = texts.map .literal) (hn : Identifier.translate "enum" member none = .ok name) :
    Contributes predefined owner member (.union members) (name, .enum (texts.map stripQuotes))
  /-- The union of truth values and `mixed`: the predefined enum for it. -/
  | triState {text : String} {values : List String} (h : stripQuotes text = "mixed")
    (hv : predefined.reverse.lookup "MixedState" = some values) :
    Contributes predefined owner member (.union [.primitive "boolean", .literal text])
      ("MixedState", .enum values)

theorem reaches_array_iff {element e : TypeExpr} :
    Reaches (.array element) e ↔ e = .array element ∨ Reaches element e := by
  constructor
  · intro h
    cases h with
    | self => exact .inl rfl
    | element h => exact .inr h
  · rintro (rfl | h)
    · exact .self _
    · exact .element h

theorem reaches_map_iff {key value e : TypeExpr} :
    Reaches (.map key value) e ↔ e = .map key value ∨ Reaches key e ∨ Reaches value e := by
  constructor
  · intro h
    cases h with
    | self => exact .inl rfl
    | key h => exact .inr (.inl h)
    | value h => exact .inr (.inr h)
  · rintro (rfl | h | h)
    · exact .self _
    · exact .key h
    · exact .value h

theorem reaches_union_iff {members : List TypeExpr} {e : TypeExpr} :
    Reaches (.union members) e ↔ e = .union members ∨
      ∃ inner, members = [.primitive "null", inner] ∧ Reaches inner e := by
  constructor
  · intro h
    cases h with
    | self => exact .inl rfl
    | nullable h => exact .inr ⟨_, rfl, h⟩
  · rintro (rfl | ⟨inner, rfl, h⟩)
    · exact .self _
    · exact .nullable h

section Contributions

variable {predefined : List (String × List String)} {owner member : String} {x : String × Shape}

theorem contributes_union_iff {members : List TypeExpr} :
    Contributes predefined owner member (.union members) x ↔
      (∃ (texts : List String) (name : String), members = texts.map .literal ∧
        Identifier.translate "enum" member none = .ok name ∧
        x = (name, .enum (texts.map stripQuotes))) ∨
      (∃ (text : String) (values : List String), members = [.primitive "boolean", .literal text] ∧
        stripQuotes text = "mixed" ∧ predefined.reverse.lookup "MixedState" = some values ∧
        x = ("MixedState", .enum values)) := by
  constructor
  · intro h
    cases h with
    | literals hm hn => exact .inl ⟨_, _, hm, hn, rfl⟩
    | triState h hv => exact .inr ⟨_, _, rfl, h, hv, rfl⟩
  · rintro (⟨texts, name, hm, hn, rfl⟩ | ⟨text, values, rfl, h, hv, rfl⟩)
    · exact .literals hm hn
    · exact .triState h hv

theorem not_contributes_nullable {inner : TypeExpr} :
    ¬ Contributes predefined owner member (.union [.primitive "null", inner]) x := by
  rw [contributes_union_iff]
  rintro (⟨texts, _, h, -⟩ | ⟨_, _, h, -⟩)
  · cases texts <;> simp at h
  · simp at h

/-- **The declarations in a reference** are those that the parts reached call for. -/
theorem Denotes.mem_demands_iff {v : Vocabulary} {e : TypeExpr} {r : Reference}
    (h : Denotes v owner member e r) : (∃ d ∈ r.demands, d.pair? predefined = some x) ↔
      ∃ e', Reaches e e' ∧ Contributes predefined owner member e' x := by
  induction h with
  | primitive =>
    refine ⟨by simp [Reference.demands], ?_⟩
    rintro ⟨e', he, hx⟩
    cases he
    cases hx
  | named =>
    refine ⟨by simp [Reference.demands], ?_⟩
    rintro ⟨e', he, hx⟩
    cases he
    cases hx
  | array _ _ ih =>
    rw [Reference.demands, ih]
    constructor
    · rintro ⟨e', he, hx⟩
      exact ⟨e', .element he, hx⟩
    · rintro ⟨e', he, hx⟩
      rcases reaches_array_iff.mp he with rfl | he
      · cases hx
      · exact ⟨e', he, hx⟩
  | nullable _ ih =>
    rw [Reference.demands, ih]
    constructor
    · rintro ⟨e', he, hx⟩
      exact ⟨e', .nullable he, hx⟩
    · rintro ⟨e', he, hx⟩
      rcases reaches_union_iff.mp he with rfl | ⟨inner, hi, he⟩
      · exact absurd hx not_contributes_nullable
      · simp only [List.cons.injEq, and_true, true_and] at hi
        exact ⟨e', hi ▸ he, hx⟩
  | @triState text htext =>
    simp only [Reference.demands, List.mem_singleton, exists_eq_left, Demand.pair?,
      Option.map_eq_some_iff]
    constructor
    · rintro ⟨values, hv, rfl⟩
      exact ⟨_, .self _, .triState htext hv⟩
    · rintro ⟨e', he, hx⟩
      rcases reaches_union_iff.mp he with rfl | ⟨inner, hi, -⟩
      · rcases contributes_union_iff.mp hx with ⟨texts, _, h, -⟩ | ⟨_, values, -, -, hv, rfl⟩
        · cases texts <;> simp at h
        · exact ⟨values, hv, rfl⟩
      · simp at hi
  | @literals members texts name hm hn =>
    simp only [Reference.demands, List.mem_singleton, exists_eq_left, Demand.pair?,
      Option.some.injEq]
    constructor
    · rintro rfl
      exact ⟨_, .self _, .literals hm hn⟩
    · rintro ⟨e', he, hx⟩
      rcases reaches_union_iff.mp he with rfl | ⟨inner, hi, -⟩
      · rcases contributes_union_iff.mp hx with ⟨texts', name', hm', hn', rfl⟩ | ⟨_, _, h, -⟩
        · obtain rfl := TypeExpr.map_literal_injective (hm.symm.trans hm')
          rw [hn] at hn'
          cases hn'
          rfl
        · rw [hm] at h
          cases texts <;> simp at h
      · rw [hm] at hi
        cases texts <;> simp at hi
  | inexact hnull htri hlit =>
    refine ⟨by simp [Reference.demands], ?_⟩
    rintro ⟨e', he, hx⟩
    rcases reaches_union_iff.mp he with rfl | ⟨inner, hi, -⟩
    · rcases contributes_union_iff.mp hx with ⟨texts, _, hm, -⟩ | ⟨text, _, hm, htext, -⟩
      · exact absurd hm (hlit texts)
      · have htri' := isTriState_iff.mpr ⟨text, hm, htext⟩
        simp [htri] at htri'
    · exact absurd hi (hnull _)
  | emptyShape =>
    refine ⟨by simp [Reference.demands], ?_⟩
    rintro ⟨e', he, hx⟩
    cases he
    cases hx with
    | shape hne => exact absurd rfl hne
  | shape hne =>
    simp only [Reference.demands, List.mem_singleton, exists_eq_left, Demand.pair?,
      Option.some.injEq]
    constructor
    · rintro rfl
      exact ⟨_, .self _, .shape hne⟩
    · rintro ⟨e', he, hx⟩
      cases he
      cases hx
      rfl
  | map _ _ ihk ihv =>
    simp only [Reference.demands, List.mem_append, or_and_right, exists_or]
    rw [ihk, ihv]
    constructor
    · rintro (⟨e', he, hx⟩ | ⟨e', he, hx⟩)
      · exact ⟨e', .key he, hx⟩
      · exact ⟨e', .value he, hx⟩
    · rintro ⟨e', he, hx⟩
      rcases reaches_map_iff.mp he with rfl | he | he
      · cases hx
      · exact .inl ⟨e', he, hx⟩
      · exact .inr ⟨e', he, hx⟩

end Contributions

/-- The classes in a reference are those that the parts reached name, each written as its
interface if it is declared. -/
theorem Denotes.mem_classes_iff {v : Vocabulary} {owner member name type : String} {e : TypeExpr}
    {r : Reference} (h : Denotes v owner member e r) : (name, type) ∈ r.classes ↔
      Reaches e (.named name) ∧ type = (v.classNames.lookup name).getD name := by
  induction h with
  | primitive =>
    refine ⟨by simp [Reference.classes], ?_⟩
    rintro ⟨he, -⟩
    cases he
  | @named name' =>
    simp only [Reference.classes, List.mem_singleton, Prod.mk.injEq]
    constructor
    · rintro ⟨rfl, rfl⟩
      exact ⟨.self _, rfl⟩
    · rintro ⟨he, rfl⟩
      cases he
      exact ⟨rfl, rfl⟩
  | array _ _ ih =>
    show (name, type) ∈ Reference.classes _ ↔ _
    simp [Reference.classes, ih, reaches_array_iff]
  | nullable _ ih =>
    simp [Reference.classes, ih, reaches_union_iff]
  | triState => simp [Reference.classes, reaches_union_iff]
  | @literals members texts _ hm =>
    have hno : ∀ inner, members ≠ [.primitive "null", inner] := by
      rintro inner rfl
      cases texts <;> simp at hm
    simp [Reference.classes, reaches_union_iff, hno]
  | inexact hnull =>
    simp [Reference.classes, reaches_union_iff, hnull]
  | emptyShape =>
    refine ⟨by simp [Reference.classes], ?_⟩
    rintro ⟨he, -⟩
    cases he
  | shape =>
    refine ⟨by simp [Reference.classes], ?_⟩
    rintro ⟨he, -⟩
    cases he
  | map _ _ ihk ihv =>
    simp [Reference.classes, ihk, ihv, reaches_map_iff, or_and_right]

/-! ### Weight -/

/-- **What a type expression calls for** weighs no more than the expression. -/
theorem Denotes.demandsWeight_le {v : Vocabulary} {owner member : String} {e : TypeExpr}
    {r : Reference} (predefined : List (String × List String)) (h : Denotes v owner member e r) :
    demandsWeight predefined r.demands ≤ e.weight := by
  have hunion : ∀ members : List TypeExpr,
      (TypeExpr.union members).weight = weightOfTypes members + 1 := fun _ => rfl
  induction h with
  | primitive => exact Nat.zero_le _
  | named => exact Nat.zero_le _
  | array _ _ ih => exact ih
  | @nullable inner r _ ih =>
    rw [hunion]
    calc demandsWeight predefined (Reference.nullable r).demands
        = demandsWeight predefined r.demands := rfl
      _ ≤ inner.weight := ih
      _ ≤ weightOfTypes [.primitive "null", inner] + 1 := by
        simp only [weightOfTypes]
        omega
  | triState =>
    rw [hunion, Reference.demands, demandsWeight_singleton]
    show entriesWeight ((predefined.reverse.lookup _).map _).toList ≤ _
    cases predefined.reverse.lookup Lowering.triState <;> simp [Shape.weight]
  | literals =>
    rw [hunion]
    exact Nat.succ_le_succ (Nat.zero_le _)
  | inexact => exact Nat.zero_le _
  | emptyShape => exact Nat.zero_le _
  | shape => exact Nat.le_refl _
  | @map key value k r _ _ ihk ihv =>
    rw [Reference.demands, demandsWeight_append]
    exact Nat.add_le_add ihk ihv

end ApiSurface
