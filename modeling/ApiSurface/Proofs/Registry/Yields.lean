import ApiSurface.Registry.Plan
import Mathlib.Data.List.Forall2

/-!
# Plans that come to a result

`p.Yields qs a`: the plan `p` makes the requests `qs`, in this order, and its result is `a`.  One
equivalence for each way of making a plan takes such a statement apart.
-/

namespace ApiSurface.Plan

variable {α β : Type}

theorem bind_of_error {p : Plan α} {fault : Fault} (h : p.outcome = .error fault)
    (f : α → Plan β) : p >>= f = ⟨p.requests, .error fault⟩ := by
  show p.andThen f = _
  simp only [andThen, h]

theorem bind_of_ok {p : Plan α} {a : α} (h : p.outcome = .ok a) (f : α → Plan β) :
    p >>= f = ⟨p.requests ++ (f a).requests, (f a).outcome⟩ := by
  show p.andThen f = _
  simp only [andThen, h]

/-- A plan whose result is only changed makes the same requests. -/
theorem bind_pure_eq (p : Plan α) (f : α → β) :
    (p >>= fun a => pure (f a)) = ⟨p.requests, p.outcome.map f⟩ := by
  cases h : p.outcome with
  | error fault =>
    rw [bind_of_error h]
    rfl
  | ok a =>
    rw [bind_of_ok h]
    show (⟨p.requests ++ [], .ok (f a)⟩ : Plan β) = _
    rw [List.append_nil]
    rfl

theorem forEach_cons (f : α → Plan β) (a : α) (as : List α) :
    forEach f (a :: as) = f a >>= fun b => forEach f as >>= fun bs => pure (b :: bs) := rfl

/-- The plan makes these requests, in order, and comes to this result. -/
def Yields (p : Plan α) (qs : List Request) (a : α) : Prop := p.requests = qs ∧ p.outcome = .ok a

@[simp] theorem yields_pure_iff {a b : α} {qs : List Request} :
    (pure a : Plan α).Yields qs b ↔ qs = [] ∧ b = a := by
  show ([] = qs ∧ Except.ok a = Except.ok b) ↔ _
  rw [Except.ok.injEq]
  exact and_congr eq_comm eq_comm

@[simp] theorem not_yields_blame {place : Place} {c : Cause} {qs : List Request} {a : α} :
    ¬ (blame place c : Plan α).Yields qs a := by
  rintro ⟨-, h⟩
  cases h

@[simp] theorem yields_lift_iff {place : Place} {x : Except Cause α} {qs : List Request} {a : α} :
    (lift place x).Yields qs a ↔ qs = [] ∧ x = .ok a := by
  cases x with
  | error c =>
    have h : ¬ (lift place (Except.error c) : Plan α).Yields qs a := not_yields_blame
    simp [h]
  | ok b =>
    show ([] = qs ∧ Except.ok b = Except.ok a) ↔ _
    simp [eq_comm]

@[simp] theorem yields_ofExcept_iff {x : Except Fault α} {qs : List Request} {a : α} :
    (ofExcept x).Yields qs a ↔ qs = [] ∧ x = .ok a := by
  show ([] = qs ∧ x = .ok a) ↔ _
  rw [eq_comm (a := [])]

@[simp] theorem yields_request_iff {place : Place} {d : Demand} {qs : List Request} {u : Unit} :
    (request place d).Yields qs u ↔ qs = [⟨d, place⟩] := by
  show ([⟨d, place⟩] = qs ∧ Except.ok () = Except.ok u) ↔ _
  simp [eq_comm]

theorem yields_bind_iff {p : Plan α} {f : α → Plan β} {qs : List Request} {b : β} :
    (p >>= f).Yields qs b ↔
      ∃ qs₁ a qs₂, p.Yields qs₁ a ∧ (f a).Yields qs₂ b ∧ qs = qs₁ ++ qs₂ := by
  cases h : p.outcome with
  | error fault =>
    have hno : ¬ (p >>= f).Yields qs b := by
      rintro ⟨-, h'⟩
      rw [bind_of_error h] at h'
      cases h'
    refine ⟨fun h' => absurd h' hno, ?_⟩
    rintro ⟨qs₁, a, qs₂, ha, -, -⟩
    rw [ha.2] at h
    cases h
  | ok a =>
    rw [bind_of_ok h]
    constructor
    · rintro ⟨rfl, hb⟩
      exact ⟨_, a, _, ⟨rfl, h⟩, ⟨rfl, hb⟩, rfl⟩
    · rintro ⟨qs₁, a', qs₂, ⟨rfl, ha⟩, ⟨rfl, hb⟩, rfl⟩
      obtain rfl : a = a' := Except.ok.inj (h.symm.trans ha)
      exact ⟨rfl, hb⟩

/-- One plan for each element: each comes to a result, and the requests stand in a row. -/
theorem yields_forEach_iff {f : α → Plan β} {as : List α} {qs : List Request} {bs : List β} :
    (forEach f as).Yields qs bs ↔ ∃ parts : List (List Request × β),
      List.Forall₂ (fun a part => (f a).Yields part.1 part.2) as parts ∧
        qs = parts.flatMap (·.1) ∧ bs = parts.map (·.2) := by
  induction as generalizing qs bs with
  | nil =>
    have hnil : forEach f [] = pure [] := rfl
    rw [hnil, yields_pure_iff]
    constructor
    · rintro ⟨rfl, rfl⟩
      exact ⟨[], .nil, rfl, rfl⟩
    · rintro ⟨parts, hparts, rfl, rfl⟩
      cases hparts
      exact ⟨rfl, rfl⟩
  | cons a as ih =>
    rw [forEach_cons, yields_bind_iff]
    constructor
    · rintro ⟨qs₁, b, qs₂, hb, hrest, rfl⟩
      obtain ⟨qs₃, bs', qs₄, hbs, hret, rfl⟩ := yields_bind_iff.mp hrest
      obtain ⟨rfl, rfl⟩ := yields_pure_iff.mp hret
      obtain ⟨parts, hparts, rfl, rfl⟩ := ih.mp hbs
      exact ⟨(qs₁, b) :: parts, .cons hb hparts, by simp, by simp⟩
    · rintro ⟨parts, hparts, rfl, rfl⟩
      obtain ⟨part, parts', hb, hparts', rfl⟩ := List.forall₂_cons_left_iff.mp hparts
      refine ⟨part.1, part.2, parts'.flatMap (·.1), hb, ?_, by simp⟩
      rw [yields_bind_iff]
      exact ⟨_, _, [], ih.mpr ⟨parts', hparts', rfl, rfl⟩, yields_pure_iff.mpr ⟨rfl, rfl⟩, by simp⟩

/-- What is known of every plan is known of all of them in a row: each result shows an object `c`,
and the demands are those of the objects shown. -/
theorem yields_forEach {γ : Type} {f : α → Plan β} {Shows : α → γ → β → Prop}
    {demands : γ → List Demand}
    (hf : ∀ a qs b, (f a).Yields qs b → ∃ c, Shows a c b ∧ qs.map (·.demand) = demands c)
    {as : List α} {qs : List Request} {bs : List β} (h : (forEach f as).Yields qs bs) :
    ∃ shown : List (γ × β), List.Forall₂ (fun a p => Shows a p.1 p.2) as shown ∧
      bs = shown.map (·.2) ∧ qs.map (·.demand) = shown.flatMap fun p => demands p.1 := by
  obtain ⟨parts, hparts, rfl, rfl⟩ := yields_forEach_iff.mp h
  clear h
  induction hparts with
  | nil => exact ⟨[], .nil, rfl, rfl⟩
  | @cons a part as parts hpart _ ih =>
    obtain ⟨c, hc, hqs⟩ := hf a _ _ hpart
    obtain ⟨shown, hshown, hbs, hqs'⟩ := ih
    exact ⟨(c, part.2) :: shown, .cons hc hshown, by simp [hbs], by simp [hqs, hqs']⟩

end ApiSurface.Plan
