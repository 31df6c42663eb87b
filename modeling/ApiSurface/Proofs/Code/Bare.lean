import ApiSurface.Code.Synthesized
import ApiSurface.Proofs.Lowering.Reference

/-!
# Declarations without documentation

`bare` takes the documentation out of type expressions and members, at any depth, and out of what is
asked for.
-/

namespace ApiSurface

/-! ### Taking documentation out -/

mutual
/-- A type expression without the documentation of the members in it. -/
def TypeExpr.bare : TypeExpr → TypeExpr
  | .primitive name => .primitive name
  | .literal text => .literal text
  | .named name => .named name
  | .array element => .array element.bare
  | .union members => .union (bareTypes members)
  | .shape properties => .shape (bareMembers properties)
  | .map key value => .map key.bare value.bare
termination_by structural e => e
/-- Type expressions without documentation. -/
def bareTypes : List TypeExpr → List TypeExpr
  | [] => []
  | e :: es => e.bare :: bareTypes es
termination_by structural es => es
/-- A member without its documentation and that of the members in it. -/
def Member.bare : Member → Member
  | ⟨kind, name, type, preferredName, isAsync, args, _, deprecated⟩ =>
    ⟨kind, name, type.bare, preferredName, isAsync, bareMembers args, [], deprecated⟩
termination_by structural m => m
/-- Members without documentation. -/
def bareMembers : List Member → List Member
  | [] => []
  | m :: ms => m.bare :: bareMembers ms
termination_by structural ms => ms
end

/-- A class without documentation. -/
def ApiClass.bare (c : ApiClass) : ApiClass := { name := c.name, members := c.members.map .bare }

/-- A shape without documentation. -/
def Shape.bare : Shape → Shape
  | .object properties => .object (properties.map .bare)
  | .enum values => .enum values

/-- What is asked for, without documentation. -/
def Demand.bare : Demand → Demand
  | .shape key content => .shape key content.bare
  | .predefined key => .predefined key

/-- A request for something without documentation. -/
def Request.bare (q : Request) : Request := ⟨q.demand.bare, q.place⟩

/-- A plan that asks for everything without documentation. -/
def Plan.bare {α : Type} (p : Plan α) : Plan α := ⟨p.requests.map .bare, p.outcome⟩

theorem bareTypes_eq_map (es : List TypeExpr) : bareTypes es = es.map .bare := by
  induction es with
  | nil => rfl
  | cons e es ih => rw [bareTypes, ih, List.map_cons]

theorem bareMembers_eq_map (ms : List Member) : bareMembers ms = ms.map .bare := by
  induction ms with
  | nil => rfl
  | cons m ms ih => rw [bareMembers, ih, List.map_cons]

namespace Member

variable (m : Member)

@[simp] theorem bare_kind : m.bare.kind = m.kind := by cases m; rfl

@[simp] theorem bare_name : m.bare.name = m.name := by cases m; rfl

@[simp] theorem bare_type : m.bare.type = m.type.bare := by cases m; rfl

@[simp] theorem bare_preferredName : m.bare.preferredName = m.preferredName := by cases m; rfl

@[simp] theorem bare_isAsync : m.bare.isAsync = m.isAsync := by cases m; rfl

@[simp] theorem bare_args : m.bare.args = m.args.map .bare := by
  cases m
  exact bareMembers_eq_map _

@[simp] theorem bare_doc : m.bare.doc = [] := by cases m; rfl

end Member

namespace TypeExpr

theorem bare_union (es : List TypeExpr) : (union es).bare = .union (es.map .bare) := by
  rw [bare, bareTypes_eq_map]

theorem bare_shape (ms : List Member) : (shape ms).bare = .shape (ms.map .bare) := by
  rw [bare, bareMembers_eq_map]

@[simp] theorem form_bare (e : TypeExpr) : e.bare.form = e.form := by
  cases e <;> rfl

@[simp] theorem isLiteral_bare (e : TypeExpr) : e.bare.isLiteral = e.isLiteral := by
  cases e <;> rfl

theorem bare_eq_primitive_iff {e : TypeExpr} {name : String} :
    e.bare = .primitive name ↔ e = .primitive name := by
  cases e <;> simp [bare]

theorem bare_eq_literal_iff {e : TypeExpr} {text : String} :
    e.bare = .literal text ↔ e = .literal text := by
  cases e <;> simp [bare]

/-- Taking documentation out does not make or hide a union that starts with null. -/
theorem map_bare_eq_null_cons_iff {es rest : List TypeExpr} :
    es.map .bare = .primitive "null" :: rest ↔
      ∃ rest', es = .primitive "null" :: rest' ∧ rest = rest'.map .bare := by
  cases es with
  | nil => simp
  | cons e es => simp [bare_eq_primitive_iff, eq_comm]

theorem nonNull_union_of_ne {es : List TypeExpr} (h : ∀ inner, es ≠ [.primitive "null", inner]) :
    (union es).nonNull = .union es := by
  unfold nonNull
  split
  · rename_i inner heq
    exact absurd (TypeExpr.union.inj heq) (h inner)
  · rfl

theorem nonNull_bare (e : TypeExpr) : e.bare.nonNull = e.nonNull.bare := by
  cases e with
  | union es =>
    rw [bare_union]
    by_cases h : ∃ inner, es = [.primitive "null", inner]
    · obtain ⟨inner, rfl⟩ := h
      rfl
    · have hne : ∀ inner, es.map bare ≠ [primitive "null", inner] := by
        intro inner hmap
        obtain ⟨rest, rfl, hrest⟩ := map_bare_eq_null_cons_iff.mp hmap
        obtain ⟨inner', rfl, -⟩ := List.map_eq_singleton_iff.mp hrest.symm
        exact h ⟨inner', rfl⟩
      rw [nonNull_union_of_ne hne, nonNull_union_of_ne fun inner heq => h ⟨inner, heq⟩, bare_union]
  | _ => rfl

end TypeExpr

namespace Plan

variable {α β : Type}

@[simp] theorem bare_outcome (p : Plan α) : p.bare.outcome = p.outcome := rfl

@[simp] theorem bare_pure (a : α) : (pure a : Plan α).bare = pure a := rfl

@[simp] theorem bare_lift (place : Place) (x : Except Cause α) :
    (lift place x).bare = lift place x := by
  cases x <;> rfl

@[simp] theorem bare_request (place : Place) (d : Demand) :
    (request place d).bare = request place d.bare := rfl

@[simp] theorem bare_bind (p : Plan α) (f : α → Plan β) :
    (p >>= f).bare = p.bare >>= fun a => (f a).bare := by
  cases h : p.outcome with
  | error fault =>
    have hbare : p.bare.outcome = .error fault := h
    rw [bind_of_error h, bind_of_error hbare]
    rfl
  | ok a =>
    have hbare : p.bare.outcome = .ok a := h
    rw [bind_of_ok h, bind_of_ok hbare]
    simp [bare]

end Plan

/-! ### Lowering -/

namespace Lowering

theorem isTriState_bare (es : List TypeExpr) : isTriState (es.map .bare) = isTriState es := by
  rw [Bool.eq_iff_iff, isTriState_iff, isTriState_iff]
  refine exists_congr fun text => and_congr_left fun _ => ?_
  simp [List.map_eq_cons_iff, TypeExpr.bare_eq_primitive_iff, TypeExpr.bare_eq_literal_iff]

theorem literalValues_bare (es : List TypeExpr) :
    literalValues (es.map .bare) = literalValues es := by
  unfold literalValues
  rw [List.filterMap_map]
  congr 1
  funext e
  cases e <;> rfl

variable (v : Vocabulary) (place : Place) (owner : String) (member : Option Member)

theorem enumRef_bare (es : List TypeExpr) :
    enumRef place owner (member.map .bare) (es.map .bare) =
      (enumRef place owner member es).bare := by
  have hname : (member.map Member.bare).map (·.name) = member.map (·.name) := by
    cases member <;> simp
  unfold enumRef
  simp only [hname, literalValues_bare, Plan.bare_bind, Plan.bare_lift, Plan.bare_request,
    Plan.bare_pure]
  rfl

theorem unionRef_bare (es : List TypeExpr) :
    unionRef v place owner (member.map .bare) (es.map .bare) =
      (unionRef v place owner member es).bare := by
  have hliterals : (es.map TypeExpr.bare).all (·.isLiteral) = es.all (·.isLiteral) := by
    simp [List.all_map, Function.comp_def]
  have hforms : (es.map TypeExpr.bare).map (·.form) = es.map (·.form) := by simp
  unfold unionRef
  rw [isTriState_bare, hliterals, hforms, enumRef_bare]
  split_ifs <;> rfl

theorem objectRef_bare (properties : List Member) :
    objectRef place owner (member.map .bare) (properties.map .bare) =
      (objectRef place owner member properties).bare := by
  unfold objectRef
  rw [List.isEmpty_map]
  split_ifs
  · rfl
  · cases member with
    | none => rfl
    | some m =>
      simp only [Option.map_some, Member.bare_name, Plan.bare_bind, Plan.bare_request,
        Plan.bare_pure]
      rfl

/-- **Lowering** without documentation comes to the same, and asks for the same without it. -/
theorem ref_bare (e : TypeExpr) : ref v place owner (member.map .bare) e.bare =
    (ref v place owner member e).bare := by
  induction e using Lowering.ref.induct with
  | case1 inner ih =>
    have hbare : (TypeExpr.union [.primitive "null", inner]).bare =
        .union [.primitive "null", inner.bare] := rfl
    rw [hbare, ref, ref, ih, Plan.bare_bind]
    rfl
  | case2 rest hrest =>
    have hbare : (TypeExpr.union (.primitive "null" :: rest)).bare =
        .union (.primitive "null" :: rest.map .bare) := TypeExpr.bare_union _
    have hrest' : ∀ inner, rest.map TypeExpr.bare = [inner] → False := by
      intro inner hmap
      obtain ⟨inner', rfl, -⟩ := List.map_eq_singleton_iff.mp hmap
      exact hrest inner' rfl
    rw [hbare, ref, ref, List.length_map]
    · rfl
    · exact hrest
    · exact hrest'
  | case3 members hnull =>
    have hnull' : ∀ rest, members.map TypeExpr.bare = .primitive "null" :: rest → False := by
      intro rest hmap
      obtain ⟨rest', rfl, -⟩ := TypeExpr.map_bare_eq_null_cons_iff.mp hmap
      exact hnull rest' rfl
    rw [TypeExpr.bare_union, ref, ref]
    · exact unionRef_bare v place owner member members
    · exact hnull
    · exact hnull'
  | case4 element inner hnested =>
    have hnested' : element.bare.nonNull = .array inner.bare := by
      rw [TypeExpr.nonNull_bare, hnested, TypeExpr.bare]
    rw [TypeExpr.bare, ref, ref, hnested, hnested']
    rfl
  | case5 element hone ih =>
    have hone' : ∀ inner, element.bare.nonNull ≠ .array inner := by
      intro inner h
      rw [TypeExpr.nonNull_bare] at h
      cases hn : element.nonNull with
      | array inner' => exact hone inner' hn
      | _ => simp [hn, TypeExpr.bare] at h
    rw [TypeExpr.bare, ref_array_of_ne v place owner _ hone', ref_array_of_ne v place owner _ hone,
      ih, Plan.bare_bind]
    rfl
  | case6 name type hlook =>
    rw [TypeExpr.bare, ref, ref, hlook]
    rfl
  | case7 name hlook =>
    rw [TypeExpr.bare, ref, ref, hlook]
    rfl
  | case8 text =>
    rw [TypeExpr.bare, ref, ref]
    rfl
  | case9 properties =>
    rw [TypeExpr.bare_shape, ref, ref]
    exact objectRef_bare place owner member properties
  | case10 key value ihk ihv =>
    rw [TypeExpr.bare, ref, ref, ihk, ihv]
    simp only [Plan.bare_bind, Plan.bare_pure]
  | case11 name =>
    rw [TypeExpr.bare, ref, ref]
    rfl

end Lowering

/-! ### Members -/

theorem translate_bare (kind name : String) (m : Member) :
    Identifier.translate kind name (some m.bare) = Identifier.translate kind name (some m) := by
  simp [Identifier.translate, Identifier.translate.assumed]

theorem optionLeaves_union_of_ne {es : List TypeExpr}
    (h : ∀ properties, es ≠ [.primitive "null", .shape properties]) :
    (TypeExpr.union es).optionLeaves = none := by
  unfold TypeExpr.optionLeaves
  split
  · rename_i heq
    cases heq
  · rename_i properties heq
    exact absurd (TypeExpr.union.inj heq) (h properties)
  · rfl

mutual
theorem TypeExpr.optionLeaves_bare :
    ∀ e : TypeExpr, e.bare.optionLeaves = e.optionLeaves.map (·.map .bare)
  | .shape properties => by
    rw [TypeExpr.bare_shape]
    show some (leaves (properties.map .bare)) = some ((leaves properties).map .bare)
    rw [leaves_bare properties]
  | .primitive _ => rfl
  | .literal _ => rfl
  | .named _ => rfl
  | .array _ => rfl
  | .union es => by
    rw [TypeExpr.bare_union]
    by_cases h : ∃ properties, es = [.primitive "null", .shape properties]
    · obtain ⟨properties, rfl⟩ := h
      have hbare : [TypeExpr.primitive "null", .shape properties].map TypeExpr.bare =
          [.primitive "null", .shape (properties.map .bare)] := by
        rw [← bareMembers_eq_map]
        rfl
      rw [hbare]
      show some (leaves (properties.map .bare)) = some ((leaves properties).map .bare)
      rw [leaves_bare properties]
    · have hne : ∀ properties, es.map TypeExpr.bare ≠ [.primitive "null", .shape properties] := by
        intro properties hmap
        obtain ⟨rest, rfl, hrest⟩ := TypeExpr.map_bare_eq_null_cons_iff.mp hmap
        obtain ⟨inner, rfl, hinner⟩ := List.map_eq_singleton_iff.mp hrest.symm
        cases inner with
        | shape properties' => exact h ⟨properties', rfl⟩
        | _ => simp [TypeExpr.bare] at hinner
      rw [optionLeaves_union_of_ne hne, optionLeaves_union_of_ne fun ps heq => h ⟨ps, heq⟩]
      rfl
  | .map _ _ => rfl
theorem Member.leaves_bare : ∀ m : Member, m.bare.leaves = m.leaves.map .bare
  | ⟨kind, name, type, preferredName, isAsync, args, doc, deprecated⟩ => by
    rw [Member.bare, Member.leaves, Member.leaves, TypeExpr.optionLeaves_bare type]
    split_ifs
    · cases type.optionLeaves <;> simp [Member.bare]
    · simp [Member.bare]
/-- **Flattening** options keeps what stands in the members. -/
theorem leaves_bare : ∀ ms : List Member, leaves (ms.map .bare) = (leaves ms).map .bare
  | [] => rfl
  | m :: ms => by
    rw [List.map_cons, leaves, leaves, List.map_append, Member.leaves_bare m, leaves_bare ms]
end

namespace Context

/-! ### Plans -/

variable (cx : Context) (owner : String)

theorem typeOf_bare (m : Member) : cx.typeOf owner m.bare = (cx.typeOf owner m).bare := by
  have hlow : ∀ m, cx.typeOf owner m =
      Lowering.ref cx.vocabulary ⟨owner, m.name, none⟩ owner (some m) m.type := fun _ => rfl
  rw [hlow, hlow, Member.bare_name, Member.bare_type]
  exact Lowering.ref_bare _ _ _ (some m) _

theorem argumentsFrom_bare (place : Place) (method : String) (taken : List String)
    (args : List Member) : cx.argumentsFrom place owner method taken (args.map .bare) =
      (cx.argumentsFrom place owner method taken args).bare := by
  induction args generalizing taken with
  | nil => rfl
  | cons arg args ih =>
    have htype : Lowering.ref cx.vocabulary ⟨owner, method, some arg.name⟩ owner (some arg.bare)
        arg.type.bare = (Lowering.ref cx.vocabulary ⟨owner, method, some arg.name⟩ owner (some arg)
          arg.type).bare := Lowering.ref_bare _ _ _ (some arg) _
    rw [List.map_cons, argumentsFrom, argumentsFrom]
    simp only [Member.bare_name, Member.bare_type, htype, ih, Plan.bare_bind, Plan.bare_lift]
    congr 1
    funext name
    split_ifs
    · rfl
    · simp

/-- **The declaration of a member** without documentation comes to the same, and asks for the same
without it. -/
theorem declaration_bare (m : Member) :
    cx.declaration owner m.bare = (cx.declaration owner m).bare := by
  have hargs : ∀ place, cx.arguments place owner m.bare = (cx.arguments place owner m).bare := by
    intro place
    unfold arguments
    rw [Member.bare_args, leaves_bare, Member.bare_name]
    exact cx.argumentsFrom_bare owner place m.name [] _
  have hasync : ∀ type, Lowering.wrapAsync type m.bare = Lowering.wrapAsync type m := by
    intro type
    unfold Lowering.wrapAsync
    rw [Member.bare_isAsync]
  unfold declaration
  simp only [Member.bare_kind, Member.bare_name, typeOf_bare, translate_bare, hargs, hasync,
    Member.bare_args, List.isEmpty_map]
  split_ifs
  · simp
  · simp
  · simp
  · rfl

end Context

end ApiSurface
