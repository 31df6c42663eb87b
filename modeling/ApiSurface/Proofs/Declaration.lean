import ApiSurface.Declaration
import Mathlib.Data.List.Basic

/-!
# The lines of a declaration
-/

namespace ApiSurface.Declaration

theorem indentLine_empty (unit : String) : indentLine unit "" = "" := rfl

theorem toList_indentLine (unit : String) {line : String} (h : line ≠ "") :
    (indentLine unit line).toList = unit.toList ++ line.toList := by
  rw [indentLine, if_neg h, String.toList_append]

theorem indentLine_ne_empty (unit : String) {line : String} (h : line ≠ "") :
    indentLine unit line ≠ "" := by
  intro hempty
  have hlist := toList_indentLine unit h
  rw [hempty] at hlist
  have hnil := (List.append_eq_nil_iff.mp hlist.symm).2
  exact h (String.toList_eq_nil_iff.mp hnil)

theorem separated_cons (block : List String) (blocks : List (List String)) :
    separated (block :: blocks) =
      block ++ if blocks = [] then [] else "" :: separated blocks := by
  cases blocks with
  | nil => simp [separated]
  | cons second blocks =>
    rw [separated]
    · simp
    · exact List.cons_ne_nil second blocks

theorem mem_separated {blocks : List (List String)} {block : List String} (hblock : block ∈ blocks)
    {line : String} (hline : line ∈ block) : line ∈ separated blocks := by
  induction blocks with
  | nil => cases hblock
  | cons first rest ih =>
    rw [separated_cons, List.mem_append]
    rcases List.mem_cons.mp hblock with rfl | hblock
    · exact .inl hline
    · rw [if_neg (List.ne_nil_of_mem hblock)]
      exact .inr (List.mem_cons_of_mem _ (ih hblock))

/-- **The lines of separated blocks** are those of the blocks, and empty ones. -/
theorem exists_block_of_mem_separated {blocks : List (List String)} {line : String}
    (h : line ∈ separated blocks) : line = "" ∨ ∃ block ∈ blocks, line ∈ block := by
  induction blocks with
  | nil => cases h
  | cons first rest ih =>
    rw [separated_cons, List.mem_append] at h
    rcases h with h | h
    · exact .inr ⟨first, List.mem_cons_self, h⟩
    · split at h
      · cases h
      · rcases List.mem_cons.mp h with rfl | h
        · exact .inl rfl
        · exact (ih h).imp_right fun ⟨block, hblock, hline⟩ =>
            ⟨block, List.mem_cons_of_mem first hblock, hline⟩

end ApiSurface.Declaration
