import ApiSurface.Text.Runs

/-!
# The stretches of a list

A list is its stretches, in order, with gaps around them.
-/

namespace ApiSurface.Text

variable {α β : Type} {p : α → Bool}

/-! ### One stretch -/

theorem mem_consRun {run r : List α} {later : List (List α)} (h : r ∈ consRun run later) :
    r = run ∨ r ∈ later := by
  unfold consRun at h
  split at h
  · exact .inr h
  · exact List.mem_cons.mp h

theorem consRun_of_ne_nil {run : List α} (h : run ≠ []) (later : List (List α)) :
    consRun run later = run :: later := by
  simp [consRun, h]

theorem map_consRun (f : α → β) (run : List α) (later : List (List α)) :
    (consRun run later).map (·.map f) = consRun (run.map f) (later.map (·.map f)) := by
  cases run <;> simp [consRun]

theorem consRun_ne_nil {run : List α} {later : List (List α)} (h : ∀ r ∈ later, r ≠ []) :
    ∀ r ∈ consRun run later, r ≠ [] := by
  intro r hr
  unfold consRun at hr
  split at hr
  · exact h r hr
  · next hrun =>
    rcases List.mem_cons.mp hr with rfl | hr
    · simpa using hrun
    · exact h r hr

theorem ne_nil_of_mem_runs {xs run : List α} (h : run ∈ runs p xs) : run ≠ [] := by
  have hlater : ∀ r ∈ (runsFrom p xs).2, r ≠ [] := by
    clear h
    induction xs with
    | nil => nofun
    | cons x xs ih =>
      rw [runsFrom]
      by_cases hx : p x = true
      · simpa only [hx, if_true] using ih
      · simpa only [hx, Bool.false_eq_true, if_false] using consRun_ne_nil ih
  exact consRun_ne_nil hlater run h

theorem runs_of_all {xs : List α} (h : ∀ x ∈ xs, p x = true) (hne : xs ≠ []) :
    runs p xs = [xs] := by
  have hfrom : runsFrom p xs = (xs, []) := by
    clear hne
    induction xs with
    | nil => rfl
    | cons x xs ih =>
      rw [runsFrom, ih fun y hy => h y (List.mem_cons_of_mem _ hy)]
      simp [h x List.mem_cons_self]
  unfold runs
  rw [hfrom]
  simp [consRun, hne]

theorem forall_of_mem_runs {xs run : List α} (h : run ∈ runs p xs) :
    ∀ x ∈ run, x ∈ xs ∧ p x = true := by
  have hfrom : (∀ x ∈ (runsFrom p xs).1, x ∈ xs ∧ p x = true) ∧
      ∀ r ∈ (runsFrom p xs).2, ∀ x ∈ r, x ∈ xs ∧ p x = true := by
    clear h
    induction xs with
    | nil => exact ⟨nofun, nofun⟩
    | cons y ys ih =>
      obtain ⟨hrun, hlater⟩ := ih
      have hrun' : ∀ x ∈ (runsFrom p ys).1, x ∈ y :: ys ∧ p x = true :=
        fun x hx => ⟨List.mem_cons_of_mem _ (hrun x hx).1, (hrun x hx).2⟩
      have hlater' : ∀ r ∈ (runsFrom p ys).2, ∀ x ∈ r, x ∈ y :: ys ∧ p x = true :=
        fun r hr x hx => ⟨List.mem_cons_of_mem _ (hlater r hr x hx).1, (hlater r hr x hx).2⟩
      rw [runsFrom]
      by_cases hy : p y = true
      · simp only [hy, if_true]
        refine ⟨?_, hlater'⟩
        intro x hx
        rcases List.mem_cons.mp hx with rfl | hx
        · exact ⟨List.mem_cons_self, hy⟩
        · exact hrun' x hx
      · simp only [hy, Bool.false_eq_true, if_false]
        refine ⟨nofun, ?_⟩
        intro r hr
        rcases mem_consRun hr with rfl | hr
        · exact hrun'
        · exact hlater' r hr
  rcases mem_consRun h with rfl | h
  · exact hfrom.1
  · exact hfrom.2 run h

/-! ### Gaps -/

/-- **Parts of a list**, with gaps around them: one in front of the first part, and one behind each
part. Only the gaps at the two ends may be empty. -/
structure CutAt (isGap : α → Prop) (xs : List α) (parts : List (List α)) (front : List α)
    (gaps : List (List α)) : Prop where
  whole : xs = front ++ (List.zipWith (· ++ ·) parts gaps).flatten
  length_eq : gaps.length = parts.length
  isGap : ∀ gap ∈ front :: gaps, ∀ x ∈ gap, isGap x
  apart : [] ∉ gaps.dropLast

namespace CutAt

variable {isGap : α → Prop} {xs front : List α} {parts gaps : List (List α)}

theorem nil : CutAt isGap [] [] [] [] :=
  ⟨rfl, rfl, by simp, List.not_mem_nil⟩

theorem gap {x : α} (hx : isGap x) (h : CutAt isGap xs parts front gaps) :
    CutAt isGap (x :: xs) parts (x :: front) gaps := by
  have hgaps := List.forall_mem_cons.mp h.isGap
  refine ⟨by rw [h.whole]; rfl, h.length_eq, ?_, h.apart⟩
  exact List.forall_mem_cons.mpr ⟨List.forall_mem_cons.mpr ⟨hx, hgaps.1⟩, hgaps.2⟩

/-- One more part in front, unless it would touch the next one. -/
theorem part (gap part : List α) (hgap : ∀ x ∈ gap, isGap x)
    (h : CutAt isGap xs parts front gaps) (hapart : parts ≠ [] → front ≠ []) :
    CutAt isGap (gap ++ part ++ xs) (part :: parts) gap (front :: gaps) := by
  refine ⟨?_, by simp [h.length_eq], List.forall_mem_cons.mpr ⟨hgap, h.isGap⟩, ?_⟩
  · rw [h.whole]
    simp
  · cases gaps with
    | nil => exact List.not_mem_nil
    | cons gap gaps =>
      have hparts : parts ≠ [] := by
        rintro rfl
        have hlength := h.length_eq
        cases hlength
      rw [List.dropLast_cons_cons, List.mem_cons, not_or]
      exact ⟨Ne.symm (hapart hparts), h.apart⟩

theorem map {isGap' : β → Prop} (f : α → β) (hgap : ∀ x, isGap x → isGap' (f x))
    (h : CutAt isGap xs parts front gaps) :
    CutAt isGap' (xs.map f) (parts.map (·.map f)) (front.map f) (gaps.map (·.map f)) := by
  have hzip : List.zipWith (· ++ ·) (parts.map (·.map f)) (gaps.map (·.map f)) =
      (List.zipWith (· ++ ·) parts gaps).map (·.map f) := by
    rw [List.zipWith_map, List.map_zipWith]
    simp only [List.map_append]
  refine ⟨?_, by simp [h.length_eq], ?_, ?_⟩
  · rw [hzip, ← List.map_flatten, ← List.map_append, ← h.whole]
  · have hmapped : ∀ gap ∈ front :: gaps, ∀ y ∈ gap.map f, isGap' y := by
      intro gap hmem
      exact List.forall_mem_map.mpr fun x hx => hgap x (h.isGap gap hmem x hx)
    have hgaps := List.forall_mem_cons.mp hmapped
    exact List.forall_mem_cons.mpr ⟨hgaps.1, List.forall_mem_map.mpr hgaps.2⟩
  · intro hnil
    rw [← List.map_dropLast] at hnil
    obtain ⟨gap, hmem, hempty⟩ := List.mem_map.mp hnil
    rw [List.map_eq_nil_iff.mp hempty] at hmem
    exact h.apart hmem

end CutAt

/-- **A list is its stretches**, in order, with gaps around them. -/
theorem exists_cutAt_runs {isGap : α → Prop} {xs : List α}
    (h : ∀ x ∈ xs, p x = false → isGap x) :
    ∃ front gaps, CutAt isGap xs (runs p xs) front gaps := by
  -- behind the first stretch a gap comes before the next
  have hfrom : ∃ rest front gaps, xs = (runsFrom p xs).1 ++ rest ∧
      CutAt isGap rest (runsFrom p xs).2 front gaps ∧ ((runsFrom p xs).2 ≠ [] → front ≠ []) := by
    induction xs with
    | nil => exact ⟨[], [], [], rfl, .nil, fun h => absurd rfl h⟩
    | cons x xs ih =>
      obtain ⟨rest, front, gaps, hxs, hcut, hapart⟩ :=
        ih fun y hy => h y (List.mem_cons_of_mem _ hy)
      rw [runsFrom]
      by_cases hx : p x = true
      · simp only [hx, if_true]
        exact ⟨rest, front, gaps, congrArg (x :: ·) hxs, hcut, hapart⟩
      · have hx : p x = false := by simpa using hx
        have hgap : isGap x := h x List.mem_cons_self hx
        simp only [hx, Bool.false_eq_true, if_false]
        by_cases hrun : (runsFrom p xs).1 = []
        · rw [hrun, List.nil_append] at hxs
          subst hxs
          rw [hrun]
          exact ⟨x :: xs, x :: front, gaps, rfl, hcut.gap hgap, fun _ => List.cons_ne_nil _ _⟩
        · have hcut' := hcut.part [x] (runsFrom p xs).1 (by simpa using hgap) hapart
          rw [List.append_assoc, ← hxs] at hcut'
          rw [consRun_of_ne_nil hrun]
          exact ⟨x :: xs, [x], front :: gaps, rfl, hcut', fun _ => List.cons_ne_nil _ _⟩
  obtain ⟨rest, front, gaps, hxs, hcut, hapart⟩ := hfrom
  unfold runs
  by_cases hrun : (runsFrom p xs).1 = []
  · rw [hrun, List.nil_append] at hxs
    subst hxs
    rw [hrun]
    exact ⟨front, gaps, hcut⟩
  · have hcut' := hcut.part [] (runsFrom p xs).1 nofun hapart
    rw [List.nil_append, ← hxs] at hcut'
    rw [consRun_of_ne_nil hrun]
    exact ⟨[], front :: gaps, hcut'⟩

theorem runs_eq_nil_iff {xs : List α} : runs p xs = [] ↔ ∀ x ∈ xs, p x = false := by
  constructor
  · intro h
    have hruns : ∃ front gaps, CutAt (fun x => p x = false) xs (runs p xs) front gaps :=
      exists_cutAt_runs fun _ _ hx => hx
    rw [h] at hruns
    obtain ⟨front, gaps, hcut⟩ := hruns
    have hfront : xs = front := by simpa using hcut.whole
    rw [hfront]
    exact hcut.isGap front List.mem_cons_self
  · intro h
    refine List.eq_nil_iff_forall_not_mem.mpr fun run hrun => ?_
    obtain ⟨x, hx⟩ := List.exists_mem_of_ne_nil _ (ne_nil_of_mem_runs hrun)
    obtain ⟨hmem, htrue⟩ := forall_of_mem_runs hrun x hx
    rw [h x hmem] at htrue
    cases htrue

end ApiSurface.Text
