import Mathlib.Data.List.Forall2

/-!
# Steps that can fail

Rendering and reading are made of steps that come to a result or to a fault, one after the other.
-/

namespace ApiSurface

variable {ε α β : Type}

theorem bind_eq_ok_iff {x : Except ε α} {f : α → Except ε β} {b : β} :
    x >>= f = .ok b ↔ ∃ a, x = .ok a ∧ f a = .ok b := by
  cases x with
  | error e =>
    refine ⟨nofun, ?_⟩
    rintro ⟨a, h, -⟩
    cases h
  | ok a =>
    refine ⟨fun h => ⟨a, rfl, h⟩, ?_⟩
    rintro ⟨a', h, hb⟩
    cases h
    exact hb

theorem bind_eq_error_iff {x : Except ε α} {f : α → Except ε β} {e : ε} :
    x >>= f = .error e ↔ x = .error e ∨ ∃ a, x = .ok a ∧ f a = .error e := by
  cases x with
  | error e' =>
    constructor
    · intro h
      cases h
      exact .inl rfl
    · rintro (h | ⟨a, h, -⟩)
      · cases h
        rfl
      · cases h
  | ok a =>
    refine ⟨fun h => .inr ⟨a, rfl, h⟩, ?_⟩
    rintro (h | ⟨a', h, he⟩)
    · cases h
    · cases h
      exact he

theorem exists_ok_of_bind {x : Except ε α} {f : α → Except ε β} {b : β}
    (h : x >>= f = .ok b) : ∃ a, x = .ok a ∧ f a = .ok b :=
  bind_eq_ok_iff.mp h

theorem map_eq_ok_iff {f : α → β} {x : Except ε α} {b : β} :
    x.map f = .ok b ↔ ∃ a, x = .ok a ∧ f a = b := by
  cases x <;> simp [Except.map]

theorem mapError_eq_ok_iff {ε' : Type} {f : ε → ε'} {x : Except ε α} {a : α} :
    x.mapError f = .ok a ↔ x = .ok a := by
  cases x <;> simp [Except.mapError]

theorem mapM_eq_ok {f : α → Except ε β} {g : α → β} {as : List α}
    (h : ∀ a ∈ as, f a = .ok (g a)) : as.mapM f = .ok (as.map g) := by
  induction as with
  | nil => rfl
  | cons a as ih =>
    have ha := h a List.mem_cons_self
    have has := ih fun b hb => h b (List.mem_cons_of_mem _ hb)
    rw [List.mapM_cons, ha, has]
    rfl

/-- **All steps succeed**: each element has its result. -/
theorem mapM_eq_ok_iff {f : α → Except ε β} {as : List α} {bs : List β} :
    as.mapM f = .ok bs ↔ List.Forall₂ (fun a b => f a = .ok b) as bs := by
  induction as generalizing bs with
  | nil =>
    rw [List.mapM_nil, List.forall₂_nil_left_iff]
    exact ⟨fun h => (Except.ok.inj h).symm, fun h => h ▸ rfl⟩
  | cons a as ih =>
    rw [List.mapM_cons, bind_eq_ok_iff, List.forall₂_cons_left_iff]
    constructor
    · rintro ⟨b, hb, hrest⟩
      obtain ⟨bs', hbs, hret⟩ := exists_ok_of_bind hrest
      exact ⟨b, bs', hb, ih.mp hbs, (Except.ok.inj hret).symm⟩
    · rintro ⟨b, bs', hb, hbs, rfl⟩
      exact ⟨b, hb, bind_eq_ok_iff.mpr ⟨bs', ih.mpr hbs, rfl⟩⟩

theorem mapM_map_eq_ok {f : α → Except ε β} {g : β → α} {bs : List β}
    (h : ∀ b ∈ bs, f (g b) = .ok b) : (bs.map g).mapM f = .ok bs := by
  rw [mapM_eq_ok_iff, List.forall₂_map_left_iff]
  exact List.forall₂_same.mpr h

theorem exists_ok_of_mapM {f : α → Except ε β} {as : List α} {bs : List β}
    (h : as.mapM f = .ok bs) : ∀ a ∈ as, ∃ b, f a = .ok b := by
  have hall := mapM_eq_ok_iff.mp h
  clear h
  induction hall with
  | nil => simp
  | cons hb _ ih => exact List.forall_mem_cons.mpr ⟨⟨_, hb⟩, ih⟩

theorem forall_of_mapM {P : β → Prop} {f : α → Except ε β} {as : List α} {bs : List β}
    (h : as.mapM f = .ok bs) (hstep : ∀ a ∈ as, ∀ b, f a = .ok b → P b) : ∀ b ∈ bs, P b := by
  have hall := mapM_eq_ok_iff.mp h
  clear h
  induction hall with
  | nil => simp
  | cons hb _ ih =>
    refine List.forall_mem_cons.mpr ⟨hstep _ List.mem_cons_self _ hb, ?_⟩
    exact ih fun a ha => hstep a (List.mem_cons_of_mem _ ha)

/-- An element of a list for which all steps before it have succeeded. -/
def Reached (f : α → Except ε β) (as : List α) (a : α) : Prop :=
  ∃ before after bs, as = before ++ a :: after ∧ before.mapM f = .ok bs

theorem Reached.mem {f : α → Except ε β} {as : List α} {a : α} (h : Reached f as a) : a ∈ as := by
  obtain ⟨before, after, -, rfl, -⟩ := h
  simp

/-- **A step fails**: it is the first that does. -/
theorem mapM_eq_error_iff {f : α → Except ε β} {as : List α} {e : ε} :
    as.mapM f = .error e ↔ ∃ a, Reached f as a ∧ f a = .error e := by
  induction as with
  | nil =>
    refine ⟨nofun, ?_⟩
    rintro ⟨a, h, -⟩
    exact absurd h.mem List.not_mem_nil
  | cons a as ih =>
    rw [List.mapM_cons, bind_eq_error_iff]
    constructor
    · rintro (ha | ⟨b, hb, hrest⟩)
      · exact ⟨a, ⟨[], as, [], rfl, rfl⟩, ha⟩
      · rcases bind_eq_error_iff.mp hrest with has | ⟨bs, -, hret⟩
        · obtain ⟨a', ⟨before, after, bs, rfl, hbefore⟩, ha'⟩ := ih.mp has
          refine ⟨a', ⟨a :: before, after, b :: bs, rfl, ?_⟩, ha'⟩
          rw [List.mapM_cons, hb, hbefore]
          rfl
        · cases hret
    · rintro ⟨a', ⟨before, after, bs, hsplit, hbefore⟩, ha'⟩
      cases before with
      | nil =>
        obtain ⟨rfl, rfl⟩ := List.cons.inj hsplit
        exact .inl ha'
      | cons c before =>
        obtain ⟨rfl, rfl⟩ := List.cons.inj hsplit
        rw [List.mapM_cons] at hbefore
        obtain ⟨b, hb, hrest⟩ := exists_ok_of_bind hbefore
        obtain ⟨bs', hbs, -⟩ := exists_ok_of_bind hrest
        exact .inr ⟨b, hb, bind_eq_error_iff.mpr (.inl
          (ih.mpr ⟨a', ⟨before, after, bs', rfl, hbs⟩, ha'⟩))⟩

end ApiSurface
