/-!
# Looking up in tables

A table is a list of pairs, and looking a key up finds the first value that it is paired with.
-/

namespace ApiSurface

variable {α β : Type} [BEq α] [LawfulBEq α] {es : List (α × β)} {key : α} {b : β}

theorem lookup_eq_none_iff_not_mem : es.lookup key = none ↔ key ∉ es.map (·.1) := by
  rw [List.lookup_eq_none_iff]
  constructor
  · intro h hmem
    obtain ⟨e, he, rfl⟩ := List.mem_map.mp hmem
    simpa using h e he
  · intro h e he
    have hne : key ≠ e.1 := by
      rintro rfl
      exact h (List.mem_map_of_mem he)
    simpa using hne

theorem mem_of_lookup (h : es.lookup key = some b) : (key, b) ∈ es := by
  obtain ⟨before, after, rfl, -⟩ := List.lookup_eq_some_iff.mp h
  exact List.mem_append_right before List.mem_cons_self

/-- In a table without repeated names, looking a name up finds the entry with it. -/
theorem lookup_eq_some_iff_mem (hnd : (es.map (·.1)).Nodup) :
    es.lookup key = some b ↔ (key, b) ∈ es := by
  refine ⟨mem_of_lookup, fun hmem => ?_⟩
  induction es with
  | nil => cases hmem
  | cons e es ih =>
    rw [List.map_cons, List.nodup_cons] at hnd
    rcases List.mem_cons.mp hmem with rfl | hmem
    · exact List.lookup_cons_self
    · have hne : key ≠ e.1 := by
        rintro rfl
        exact hnd.1 (List.mem_map.mpr ⟨_, hmem, rfl⟩)
      have hb : (key == e.1) = false := by simpa using hne
      rw [List.lookup_cons, hb]
      exact ih hnd.2 hmem

theorem lookup_singleton {β : Type} (e : String × β) (key : String) :
    [e].lookup key = if key = e.1 then some e.2 else none := by
  obtain ⟨name, b⟩ := e
  rw [List.lookup_cons, List.lookup_nil]
  by_cases hkey : key = name
  · simp [hkey]
  · have hb : (key == name) = false := by simpa using hkey
    rw [hb, if_neg hkey]

end ApiSurface
