import ApiSurface.Proofs.Code.Faults
import ApiSurface.Proofs.Lowering.Demand
import ApiSurface.Proofs.Lowering.Effect

/-!
# Arrays of arrays

An array of arrays is refused, also if its elements are nullable.  The check takes off one nullable
type: an element that is an array behind two of them or more gets past it.
-/

namespace ApiSurface

open Lowering

/-- A type behind some nullable types, one around the other. -/
def TypeExpr.nullableTimes : Nat → TypeExpr → TypeExpr
  | 0, e => e
  | n + 1, e => .union [.primitive "null", nullableTimes n e]

/-- Lowering comes to an array whose element is an array behind some number of nullable types. -/
def ReachesNested (e : TypeExpr) (n : Nat) : Prop :=
  ∃ inner : TypeExpr, Reaches e (.array (inner.array.nullableTimes n))

/-! ### Faults of lowering -/

section Faults

variable {v : Vocabulary} {owner : String} {member : Option Member} {e : TypeExpr} {r : Registry}

/-- **A fault of lowering** is reported at the owner and the member, unless a predefined enum is
asked for that does not exist. -/
theorem lowering_error_cases {fault : Fault}
    (h : (e.lowering v owner member r).outcome = .error fault) :
    (∃ c, fault = .report ⟨c, owner, (member.map (·.name)).getD ""⟩) ∨
      ∃ key, r.predefined? key = none ∧ fault = .missingKey key := by
  let place : Place := ⟨owner, (member.map (·.name)).getD "", none⟩
  have hallows : Allows (fun q : Request => q.place = place)
      (fun fault => ∃ c, fault = place.blame c) place :=
    ⟨fun c _ => ⟨c, rfl⟩, fun _ _ => rfl, rfl⟩
  have hends := ends_ref hallows v owner member e
  cases hrefused : (r.file (e.lowered v owner member).requests).refused with
  | none =>
    simp only [TypeExpr.lowering, Plan.run, hrefused] at h
    exact .inl (hends.failed fault h)
  | some fault' =>
    simp only [TypeExpr.lowering, Plan.run, hrefused] at h
    obtain rfl : fault' = fault := Except.error.inj h
    obtain ⟨q, hq, ⟨c, rfl⟩ | ⟨key, -, hunknown, rfl⟩⟩ := Registry.refused_cases hrefused
    · exact .inl ⟨c, by rw [hends.asks q hq]; rfl⟩
    · exact .inr ⟨key, hunknown, rfl⟩

end Faults

/-! ### Arrays that are refused -/

/-- The check takes off one nullable type. -/
theorem nonNull_nullableTimes_array {inner : TypeExpr} {n : Nat} (hn : n ≤ 1) :
    (inner.array.nullableTimes n).nonNull = inner.array := by
  have hcases : n = 0 ∨ n = 1 := by omega
  rcases hcases with rfl | rfl <;> rfl

/-- **An array of arrays that the check finds** is refused, wherever it stands in a type. -/
theorem ref_error_of_reaches (v : Vocabulary) (place : Place) (owner : String)
    (member : Option Member) {e element inner : TypeExpr} (h : Reaches e (.array element))
    (hnested : element.nonNull = .array inner) :
    ∃ fault, (ref v place owner member e).outcome = .error fault := by
  generalize hpart : TypeExpr.array element = part at h
  induction h with
  | self e =>
    subst hpart
    refine ⟨place.blame .nestedArray, ?_⟩
    rw [ref, hnested]
    rfl
  | @element outer e _ ih =>
    obtain ⟨fault, hfault⟩ := ih hpart
    by_cases hone : ∃ inner, outer.nonNull = .array inner
    · obtain ⟨inner', hinner⟩ := hone
      refine ⟨place.blame .nestedArray, ?_⟩
      rw [ref, hinner]
      rfl
    · rw [ref_array_of_ne v place owner member fun inner' h' => hone ⟨inner', h'⟩,
        Plan.bind_of_error hfault]
      exact ⟨fault, rfl⟩
  | nullable _ ih =>
    obtain ⟨fault, hfault⟩ := ih hpart
    rw [ref, Plan.bind_of_error hfault]
    exact ⟨fault, rfl⟩
  | key _ ih =>
    obtain ⟨fault, hfault⟩ := ih hpart
    rw [ref, Plan.bind_of_error hfault]
    exact ⟨fault, rfl⟩
  | @value key value e _ ih =>
    obtain ⟨fault, hfault⟩ := ih hpart
    rw [ref]
    cases hkey : (ref v place owner member key).outcome with
    | error fault' =>
      rw [Plan.bind_of_error hkey]
      exact ⟨fault', rfl⟩
    | ok k =>
      rw [Plan.bind_of_ok hkey, Plan.bind_of_error hfault]
      exact ⟨fault, rfl⟩

/-! ### Arrays that get past the check -/

section Accepted

variable (v : Vocabulary) (place : Place) (owner : String) (member : Option Member)

theorem nullable_brackets (s : String) : nullable (s ++ "[]") = s ++ "[]" := by
  have hlast : (s ++ "[]").toList.getLast? = some ']' := by
    rw [String.toList_append]
    simp
  have hne : ∀ t : String, t.toList.getLast? ≠ some ']' → s ++ "[]" ≠ t := by
    rintro t ht rfl
    exact ht hlast
  have hvalue : isValueType (s ++ "[]") = false := by
    simp [isValueType, hne "bool" (by decide), hne "int" (by decide)]
  rw [nullable, hvalue]
  rfl

/-- **A nullable array** is lowered as the array, however often it is made nullable. -/
theorem ref_nullableTimes_array (inner : TypeExpr) (n : Nat) :
    ref v place owner member (inner.array.nullableTimes n) =
      ref v place owner member inner.array := by
  induction n with
  | zero => rfl
  | succ n ih =>
    rw [TypeExpr.nullableTimes, ref, ih, Plan.bind_pure_eq]
    by_cases hone : ∃ inner', inner.nonNull = .array inner'
    · obtain ⟨inner', hinner⟩ := hone
      rw [ref, hinner]
      rfl
    · rw [ref_array_of_ne v place owner member fun inner' h => hone ⟨inner', h⟩, Plan.bind_pure_eq]
      cases (ref v place owner member inner).outcome with
      | error fault => rfl
      | ok s => simp [Except.map, nullable_brackets]

theorem nonNull_nullableTimes_ne (inner : TypeExpr) (n : Nat) (e : TypeExpr) :
    (inner.array.nullableTimes (n + 2)).nonNull ≠ .array e :=
  nofun

/-- **An array of arrays behind two nullable types** is written with brackets behind brackets. -/
theorem lowering_array_nullableTimes (inner : TypeExpr) (n : Nat) (r : Registry) :
    (inner.array.nullableTimes (n + 2)).array.lowering v owner member r =
      ⟨(inner.array.lowering v owner member r).added,
        (inner.array.lowering v owner member r).outcome.map (· ++ "[]"),
        (inner.array.lowering v owner member r).registry⟩ := by
  have hplan : (inner.array.nullableTimes (n + 2)).array.lowered v owner member = do
      return (← inner.array.lowered v owner member) ++ "[]" := by
    unfold TypeExpr.lowered
    rw [ref_array_of_ne v _ owner member (nonNull_nullableTimes_ne inner n),
      ref_nullableTimes_array]
  unfold TypeExpr.lowering
  rw [hplan, Plan.run_bind_pure]

end Accepted

/-- **Arrays of arrays**, in any type at any place and on any registry.

* If lowering comes to an array whose element is an array, plain or behind one nullable type, it
  fails: with a report at the owner and the member, or because a predefined enum that it asks for
  does not exist.
* If it succeeds, it has come to an array of arrays, behind any number of nullable types, if and only
  if it has come to one behind two or more.
* These are accepted: lowering one leaves what lowering the element leaves, and the reference is that
  of the element with brackets behind it. -/
theorem lowering_arrayOfArrays_iff (v : Vocabulary) (owner : String) (member : Option Member)
    (e : TypeExpr) (r : Registry) :
    (∀ n, n ≤ 1 → ReachesNested e n →
      ∃ fault, (e.lowering v owner member r).outcome = .error fault ∧
        ((∃ c, fault = .report ⟨c, owner, (member.map (·.name)).getD ""⟩) ∨
          ∃ key, r.predefined? key = none ∧ fault = .missingKey key)) ∧
    (∀ ref, (e.lowering v owner member r).outcome = .ok ref →
      ((∃ n, ReachesNested e n) ↔ ∃ n, 2 ≤ n ∧ ReachesNested e n)) ∧
    ∀ (inner : TypeExpr) (n : Nat), 2 ≤ n → e = (inner.array.nullableTimes n).array →
      e.lowering v owner member r =
        ⟨(inner.array.lowering v owner member r).added,
          (inner.array.lowering v owner member r).outcome.map (· ++ "[]"),
          (inner.array.lowering v owner member r).registry⟩ := by
  have hrefused : ∀ n, n ≤ 1 → ReachesNested e n →
      ∃ fault, (e.lowering v owner member r).outcome = .error fault := by
    rintro n hn ⟨inner, hreach⟩
    obtain ⟨fault, hfault⟩ := ref_error_of_reaches v
      ⟨owner, (member.map (·.name)).getD "", none⟩ owner member hreach
      (nonNull_nullableTimes_array hn)
    cases hout : (e.lowering v owner member r).outcome with
    | error fault' => exact ⟨fault', rfl⟩
    | ok ref =>
      have hok : (e.lowered v owner member).outcome = .ok ref := (Plan.run_ok_iff.mp hout).2
      rw [show (e.lowered v owner member).outcome = .error fault from hfault] at hok
      cases hok
  refine ⟨fun n hn hnested => ?_, fun ref hok => ⟨?_, ?_⟩, ?_⟩
  · obtain ⟨fault, hfault⟩ := hrefused n hn hnested
    exact ⟨fault, hfault, lowering_error_cases hfault⟩
  · rintro ⟨n, hnested⟩
    refine ⟨n, ?_, hnested⟩
    by_contra hfew
    obtain ⟨fault, hfault⟩ := hrefused n (by omega) hnested
    rw [hok] at hfault
    cases hfault
  · rintro ⟨n, -, hnested⟩
    exact ⟨n, hnested⟩
  · rintro inner n hn rfl
    obtain ⟨k, rfl⟩ := Nat.exists_eq_add_of_le hn
    rw [Nat.add_comm 2 k]
    exact lowering_array_nullableTimes v owner member inner k r

/-- Rows of texts, where a row is nullable twice over. -/
def rowsMember : Member :=
  { kind := "property", name := "rows"
    type := ((TypeExpr.primitive "string").array.nullableTimes 2).array }

/-- Numbers by texts, where the numbers are rows behind one nullable type. -/
def cellsMember : Member :=
  { kind := "property", name := "cells"
    type := .map (.primitive "string") ((TypeExpr.primitive "number").array.nullableTimes 1).array }

theorem reachesNested_cellsMember : ReachesNested cellsMember.type 1 :=
  ⟨.primitive "number", .value (.self _)⟩

/-- Not every array of arrays is refused. -/
theorem lowering_rowsMember :
    ReachesNested rowsMember.type 2 ∧
      (rowsMember.type.lowering {} "Grid" (some rowsMember) (.empty [])).outcome =
        .ok "string[][]" :=
  ⟨⟨.primitive "string", .self _⟩, by rfl⟩

theorem lowering_cellsMember :
    (cellsMember.type.lowering {} "Grid" (some cellsMember) (.empty [])).outcome =
        .error (.report ⟨.nestedArray, "Grid", "cells"⟩) ∧
      (∃ fault, (cellsMember.type.lowering {} "Grid" (some cellsMember) (.empty [])).outcome =
        .error fault) ∧
      (∃ n, 2 ≤ n ∧ ReachesNested rowsMember.type n) ∧
      rowsMember.type.lowering {} "Grid" (some rowsMember) (.empty []) =
        ⟨[], .ok "string[][]", .empty []⟩ := by
  have hcells := lowering_arrayOfArrays_iff {} "Grid" (some cellsMember) cellsMember.type (.empty [])
  have hrows := lowering_arrayOfArrays_iff {} "Grid" (some rowsMember) rowsMember.type (.empty [])
  refine ⟨by rfl, ?_, ?_, ?_⟩
  · obtain ⟨fault, hfault, -⟩ := hcells.1 1 (by decide) reachesNested_cellsMember
    exact ⟨fault, hfault⟩
  · exact (hrows.2.1 "string[][]" rfl).mp ⟨2, .primitive "string", .self _⟩
  · exact hrows.2.2 (.primitive "string") 2 (by decide) rfl

end ApiSurface
