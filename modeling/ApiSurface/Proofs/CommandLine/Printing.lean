import ApiSurface.CommandLine.Run
import ApiSurface.Proofs.Text.Held

/-!
# Printing

What is printed goes out piece by piece, so a piece with a half of a character ends the program after
the pieces in front of it are out.
-/

namespace ApiSurface.CommandLine

/-- All pieces are printed, and make up a text. -/
def PrintsAll (pieces : List String) (text : String) : Prop :=
  ∃ texts, pieces.mapM Text.release = .ok texts ∧ text = String.join texts

/-- The pieces up to one that cannot be encoded are printed, and make up a text. -/
def PrintsUpTo (pieces : List String) (text : String) (fault : CodingFault) : Prop :=
  ∃ before piece after, pieces = before ++ piece :: after ∧ PrintsAll before text ∧
    Text.release piece = .error fault

variable {piece text : String} {pieces : List String}

theorem join_cons (s : String) (ss : List String) : String.join (s :: ss) = s ++ String.join ss := by
  rw [← String.toList_inj]
  simp [String.toList_join]

theorem PrintsAll.nil : PrintsAll [] "" := ⟨[], rfl, rfl⟩

theorem PrintsAll.cons {first : String} (hfirst : Text.release piece = .ok first)
    (h : PrintsAll pieces text) : PrintsAll (piece :: pieces) (first ++ text) := by
  obtain ⟨texts, htexts, rfl⟩ := h
  refine ⟨first :: texts, ?_, (join_cons _ _).symm⟩
  rw [List.mapM_cons, hfirst, htexts]
  rfl

/-- **What comes of printing**: everything is printed, or the pieces up to the first that cannot be
encoded. -/
theorem printPieces_cases (pieces : List String) :
    ((printPieces pieces).fault = none ∧ PrintsAll pieces (printPieces pieces).text) ∨
      ∃ fault, (printPieces pieces).fault = some fault ∧
        PrintsUpTo pieces (printPieces pieces).text fault := by
  induction pieces with
  | nil => exact .inl ⟨rfl, .nil⟩
  | cons piece pieces ih =>
    rw [printPieces]
    cases hfirst : Text.release piece with
    | error fault => exact .inr ⟨fault, rfl, [], piece, pieces, rfl, .nil, hfirst⟩
    | ok first =>
      rcases ih with ⟨hnone, hall⟩ | ⟨fault, hfault, before, stuck, after, rfl, hbefore, hstuck⟩
      · exact .inl ⟨hnone, hall.cons hfirst⟩
      · exact .inr ⟨fault, hfault, piece :: before, stuck, after, rfl, hbefore.cons hfirst, hstuck⟩

/-- **Printing fails** if and only if one of the pieces holds a half of a character. -/
theorem printPieces_fault_eq_none_iff :
    (printPieces pieces).fault = none ↔ ∀ piece ∈ pieces, ¬ Text.HoldsHalf piece := by
  induction pieces with
  | nil => simp [printPieces]
  | cons piece pieces ih =>
    rw [printPieces, List.forall_mem_cons, ← Text.exists_release_iff]
    cases hfirst : Text.release piece with
    | error fault => simp
    | ok first => simpa using ih

/-- Something is printed if and only if the first piece can be encoded, unless that is empty. -/
theorem printPieces_text_ne_empty_iff (hpiece : piece ≠ "") :
    (printPieces (piece :: pieces)).text ≠ "" ↔ ¬ Text.HoldsHalf piece := by
  rw [printPieces, ← Text.exists_release_iff]
  cases hfirst : Text.release piece with
  | error fault => simp
  | ok first =>
    have hne := Text.release_ne_empty hpiece hfirst
    simp [hne]

end ApiSurface.CommandLine
