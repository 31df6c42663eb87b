import ApiSurface.Code.Argument
import ApiSurface.Proofs.Registry.Yields
import Mathlib.Logic.Relation

/-!
# Options give way to their properties

An argument called `options` of an object type stands for the properties of that type.
-/

namespace ApiSurface

/-- An argument called `options` of an object type, possibly nullable, with the properties of that
type. -/
def Member.IsOptions (m : Member) (properties : List Member) : Prop :=
  m.name = "options" ∧
    (m.type = .shape properties ∨ m.type = .union [.primitive "null", .shape properties])

/-- One argument called `options`, at any depth, gives way to its properties. -/
inductive Inlines : List Member → List Member → Prop
  | here {m : Member} {properties : List Member} (before after : List Member)
    (h : m.IsOptions properties) : Inlines (before ++ m :: after) (before ++ properties ++ after)
  | inside {m m' : Member} {properties properties' : List Member} (before after : List Member)
    (hm : m.IsOptions properties) (hm' : m'.IsOptions properties')
    (h : Inlines properties properties') : Inlines (before ++ m :: after) (before ++ m' :: after)

/-! ### Leaves -/

theorem optionLeaves_eq_some_iff {e : TypeExpr} {ls : List Member} :
    e.optionLeaves = some ls ↔ ∃ properties,
      (e = .shape properties ∨ e = .union [.primitive "null", .shape properties]) ∧
        ls = leaves properties := by
  constructor
  · intro h
    unfold TypeExpr.optionLeaves at h
    split at h
    · rename_i properties
      exact ⟨properties, .inl rfl, (Option.some.inj h).symm⟩
    · rename_i properties
      exact ⟨properties, .inr rfl, (Option.some.inj h).symm⟩
    · cases h
  · rintro ⟨properties, rfl | rfl, rfl⟩ <;> rfl

theorem Member.leaves_eq (m : Member) :
    m.leaves = if m.name = "options" then m.type.optionLeaves.getD [m] else [m] := by
  obtain ⟨kind, name, type, preferredName, isAsync, args, doc, deprecated⟩ := m
  rw [Member.leaves]

theorem Member.IsOptions.leaves_eq {m : Member} {properties : List Member}
    (h : m.IsOptions properties) : m.leaves = ApiSurface.leaves properties := by
  have hsome : m.type.optionLeaves = some (ApiSurface.leaves properties) :=
    optionLeaves_eq_some_iff.mpr ⟨properties, h.2, rfl⟩
  rw [Member.leaves_eq, if_pos h.1, hsome]
  rfl

theorem Member.leaves_of_not_isOptions {m : Member} (h : ∀ properties, ¬ m.IsOptions properties) :
    m.leaves = [m] := by
  rw [Member.leaves_eq]
  by_cases hname : m.name = "options"
  · rw [if_pos hname]
    cases hls : m.type.optionLeaves with
    | none => rfl
    | some ls =>
      obtain ⟨properties, htype, -⟩ := optionLeaves_eq_some_iff.mp hls
      exact absurd ⟨hname, htype⟩ (h properties)
  · rw [if_neg hname]

theorem leaves_append (ms ms' : List Member) : leaves (ms ++ ms') = leaves ms ++ leaves ms' := by
  induction ms with
  | nil => rfl
  | cons m ms ih => rw [List.cons_append, leaves, leaves, ih, List.append_assoc]

theorem Member.IsOptions.sizeOf_lt {m : Member} {properties : List Member}
    (h : m.IsOptions properties) : sizeOf properties < sizeOf m := by
  obtain ⟨kind, name, type, preferredName, isAsync, args, doc, deprecated⟩ := m
  obtain ⟨-, rfl | rfl⟩ := h
  · simp
    omega
  · simp
    omega

/-- **Induction over arguments**: a leaf in front, or options with properties for which the statement
is known. -/
@[elab_as_elim]
theorem options_induction {P : List Member → Prop} (nil : P [])
    (leaf : ∀ m ms, (∀ properties, ¬ m.IsOptions properties) → P ms → P (m :: ms))
    (options : ∀ m properties ms, m.IsOptions properties → P properties → P ms → P (m :: ms)) :
    ∀ ms, P ms
  | [] => nil
  | m :: ms => by
    have hrest := options_induction nil leaf options ms
    by_cases h : ∃ properties, m.IsOptions properties
    · obtain ⟨properties, hm⟩ := h
      have hlt := hm.sizeOf_lt
      exact options m properties ms hm (options_induction nil leaf options properties) hrest
    · exact leaf m ms (fun properties hm => h ⟨properties, hm⟩) hrest
termination_by ms => sizeOf ms
decreasing_by all_goals simp; try omega

theorem not_isOptions_of_mem_leaves {ms : List Member} :
    ∀ m ∈ leaves ms, ∀ properties, ¬ m.IsOptions properties := by
  induction ms using options_induction with
  | nil => simp [leaves]
  | leaf m ms hm ih =>
    rw [leaves, Member.leaves_of_not_isOptions hm]
    intro m' hm'
    rcases List.mem_cons.mp hm' with rfl | hm'
    · exact hm
    · exact ih m' hm'
  | options m properties ms hm ihin ih =>
    rw [leaves, hm.leaves_eq]
    intro m' hm'
    exact (List.mem_append.mp hm').elim (ihin m') (ih m')

theorem leaves_of_not_isOptions {ms : List Member}
    (h : ∀ m ∈ ms, ∀ properties, ¬ m.IsOptions properties) : leaves ms = ms := by
  induction ms with
  | nil => rfl
  | cons m ms ih =>
    have hfirst := h m List.mem_cons_self
    rw [leaves, Member.leaves_of_not_isOptions hfirst,
      ih fun m' hm' => h m' (List.mem_cons_of_mem m hm'), List.singleton_append]

/-! ### Inlining -/

/-- **Inlining keeps the leaves**, at any depth. -/
theorem Inlines.leaves_eq {ms ms' : List Member} (h : Inlines ms ms') : leaves ms = leaves ms' := by
  induction h with
  | here before after h =>
    rw [leaves_append, leaves_append, leaves_append, leaves, h.leaves_eq, List.append_assoc]
  | inside before after hm hm' _ ih =>
    rw [leaves_append, leaves_append, leaves, leaves, hm.leaves_eq, hm'.leaves_eq, ih]

theorem Inlines.append {ms ms' : List Member} (before after : List Member) (h : Inlines ms ms') :
    Inlines (before ++ ms ++ after) (before ++ ms' ++ after) := by
  cases h with
  | here before' after' h =>
    have hinlines := Inlines.here (before ++ before') (after' ++ after) h
    simpa using hinlines
  | inside before' after' hm hm' h =>
    have hinlines := Inlines.inside (before ++ before') (after' ++ after) hm hm' h
    simpa using hinlines

theorem leaves_eq_of_inlines {ms ms' : List Member} (h : Relation.ReflTransGen Inlines ms ms') :
    leaves ms = leaves ms' := by
  induction h with
  | refl => rfl
  | tail _ hstep ih => rw [ih, hstep.leaves_eq]

/-- Step by step, all options give way to their properties. -/
theorem inlines_leaves (ms : List Member) : Relation.ReflTransGen Inlines ms (leaves ms) := by
  have hcontext : ∀ (before after : List Member) {ms ms' : List Member},
      Relation.ReflTransGen Inlines ms ms' →
        Relation.ReflTransGen Inlines (before ++ ms ++ after) (before ++ ms' ++ after) := by
    intro before after ms ms' h
    exact h.lift (fun ms => before ++ ms ++ after) fun _ _ => Inlines.append before after
  induction ms using options_induction with
  | nil => exact .refl
  | leaf m ms hm ih =>
    rw [leaves, Member.leaves_of_not_isOptions hm]
    simpa using hcontext [m] [] ih
  | options m properties ms hm ihin ih =>
    rw [leaves, hm.leaves_eq]
    have hfirst : Inlines (m :: ms) (properties ++ ms) := by simpa using Inlines.here [] ms hm
    have hin : Relation.ReflTransGen Inlines (properties ++ ms) (leaves properties ++ ms) := by
      simpa using hcontext [] ms ihin
    have hrest : Relation.ReflTransGen Inlines (leaves properties ++ ms)
        (leaves properties ++ leaves ms) := by
      simpa using hcontext (leaves properties) [] ih
    exact (hin.trans hrest).head hfirst

/-- **The leaves** are what inlining ends in: the one list without options that it leads to. -/
theorem eq_leaves_iff {ms ls : List Member} : ls = leaves ms ↔
    Relation.ReflTransGen Inlines ms ls ∧ ∀ m ∈ ls, ∀ properties, ¬ m.IsOptions properties := by
  constructor
  · rintro rfl
    exact ⟨inlines_leaves ms, not_isOptions_of_mem_leaves⟩
  · rintro ⟨hinlines, hplain⟩
    rw [leaves_eq_of_inlines hinlines, leaves_of_not_isOptions hplain]

/-! ### One pass -/

section Pass

variable {M : Type → Type} [Monad M] {σ : Type} (step : σ → Member → M σ)

theorem Member.IsOptions.passOver_eq {m : Member} {properties : List Member}
    (h : m.IsOptions properties) : m.passOver step = ApiSurface.passOver step properties := by
  obtain ⟨kind, name, type, preferredName, isAsync, args, doc, deprecated⟩ := m
  obtain ⟨rfl, rfl | rfl⟩ := h <;> rfl

theorem Member.passOver_of_not_isOptions {m : Member}
    (h : ∀ properties, ¬ m.IsOptions properties) : m.passOver step = (step · m) := by
  obtain ⟨kind, name, type, preferredName, isAsync, args, doc, deprecated⟩ := m
  rw [Member.passOver]
  by_cases hname : name = "options"
  · have hnone : type.passOver? step = none := by
      unfold TypeExpr.passOver?
      split
      · exact absurd ⟨hname, .inl rfl⟩ (h _)
      · exact absurd ⟨hname, .inr rfl⟩ (h _)
      · rfl
    rw [if_pos hname, hnone]
    rfl
  · rw [if_neg hname]

/-- A pass takes one step for each leaf, in order. -/
theorem passOver_eq_foldlM [LawfulMonad M] (ms : List Member) (found : σ) :
    passOver step ms found = (leaves ms).foldlM step found := by
  induction ms using options_induction generalizing found with
  | nil => rfl
  | leaf m ms hm ih =>
    rw [passOver, leaves, Member.leaves_of_not_isOptions hm, Member.passOver_of_not_isOptions step hm]
    simp only [ih, List.singleton_append, List.foldlM_cons]
  | options m properties ms hm ihin ih =>
    rw [passOver, leaves, hm.leaves_eq, hm.passOver_eq]
    simp only [ihin, ih, List.foldlM_append]

end Pass

open Plan in
theorem Plan.lawfulMonad : LawfulMonad Plan := by
  refine LawfulMonad.mk' Plan (fun p => ?_) (fun a f => ?_) (fun p f g => ?_)
  · show p.andThen (fun a => Plan.ok a) = p
    obtain ⟨qs, outcome⟩ := p
    cases outcome <;> simp [Plan.andThen, Plan.ok]
  · exact bind_of_ok (a := a) rfl f
  · cases h : p.outcome with
    | error fault =>
      rw [bind_of_error h, bind_of_error h, bind_of_error rfl]
    | ok a =>
      rw [bind_of_ok h, bind_of_ok h]
      cases h' : (f a).outcome with
      | error fault => rw [bind_of_error h', bind_of_error rfl]
      | ok b => rw [bind_of_ok h', bind_of_ok rfl, List.append_assoc]

namespace Context

variable (cx : Context) (place : Place) (owner method : String)

/-- Declares one more argument behind those found so far. -/
def argumentStep (found : List Argument) (arg : Member) : Plan (List Argument) := do
  let name ← Plan.lift place (Identifier.translate "argument" arg.name none)
  if (found.map (·.name)).contains name then Plan.blame place (.repeatedArgument name)
  else
    let type ← Lowering.ref cx.vocabulary ⟨owner, method, some arg.name⟩ owner (some arg) arg.type
    return found ++ [⟨type, name⟩]

theorem foldlM_argumentStep (args : List Member) (found : List Argument) (taken : List String)
    (htaken : ∀ name, name ∈ taken ↔ name ∈ found.map (·.name)) :
    args.foldlM (cx.argumentStep place owner method) found = do
      let later ← cx.argumentsFrom place owner method taken args
      return found ++ later := by
  have := Plan.lawfulMonad
  induction args generalizing found taken with
  | nil => simp [argumentsFrom]
  | cons arg args ih =>
    have hcontains : ∀ name, (found.map (·.name)).contains name = taken.contains name := by
      intro name
      rw [Bool.eq_iff_iff, List.contains_iff_mem, List.contains_iff_mem]
      exact (htaken name).symm
    rw [List.foldlM_cons, argumentStep, argumentsFrom]
    simp only [bind_assoc, hcontains]
    congr 1
    funext name
    by_cases hused : taken.contains name = true
    · rw [if_pos hused, if_pos hused]
      rfl
    · rw [if_neg hused, if_neg hused]
      simp only [bind_assoc, pure_bind]
      congr 1
      funext type
      have htaken' : ∀ name', name' ∈ name :: taken ↔
          name' ∈ (found ++ [(⟨type, name⟩ : Argument)]).map (·.name) := by
        intro name'
        simp [htaken name', or_comm]
      rw [ih _ (name :: taken) htaken']
      simp only [List.append_assoc, List.singleton_append]

/-- **One pass.**  The arguments of a method are found in one pass, which hands the arguments found so
far on into options and out of them. -/
theorem arguments_eq_passOver (m : Member) :
    cx.arguments place owner m = passOver (cx.argumentStep place owner m.name) m.args [] := by
  have := Plan.lawfulMonad
  have hfold := cx.foldlM_argumentStep place owner m.name (leaves m.args) [] [] fun _ => Iff.rfl
  rw [passOver_eq_foldlM, hfold]
  simp [arguments]

end Context

end ApiSurface
