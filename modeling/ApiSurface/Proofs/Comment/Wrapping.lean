import ApiSurface.Proofs.Comment.Prose

/-!
# The fewest lines

A line takes words as long as they fit, without looking at the words to come.  No division of the
words into lines of the width gets by with fewer lines: from a shorter line no more lines are made than
from a longer one, and from any line at most one more than from another.
-/

namespace ApiSurface

namespace Comment

variable {width : Int}

theorem length_wrapFrom_cons_of_fits {c w : String} (ws : List String)
    (h : (c.length : Int) + 1 + w.length ≤ width) :
    (wrapFrom width c (w :: ws)).length = (wrapFrom width (c ++ " " ++ w) ws).length := by
  rw [wrapFrom, if_pos h]

theorem length_wrapFrom_cons_of_not_fits {c w : String} (ws : List String)
    (h : ¬ (c.length : Int) + 1 + w.length ≤ width) :
    (wrapFrom width c (w :: ws)).length = (wrapFrom width (lead ++ w) ws).length + 1 := by
  rw [wrapFrom, if_neg h, List.length_cons]

theorem length_append_word (c w : String) : (c ++ " " ++ w).length = c.length + 1 + w.length := by
  rw [String.length_append, String.length_append]
  rfl

/-- **Two begun lines**, before the same words: the shorter one makes no more lines than the longer,
and neither makes more than one line more than the other. -/
theorem length_wrapFrom_compare (ws : List String) (c c' : String)
    (hc' : lead.length ≤ c'.length) :
    (c.length ≤ c'.length → (wrapFrom width c ws).length ≤ (wrapFrom width c' ws).length) ∧
      (wrapFrom width c ws).length ≤ (wrapFrom width c' ws).length + 1 := by
  induction ws generalizing c c' with
  | nil => exact ⟨fun _ => Nat.le_refl 1, Nat.le_succ 1⟩
  | cons w ws ih =>
    have hlead : lead.length ≤ (lead ++ w).length := by
      rw [String.length_append]
      exact Nat.le_add_right _ _
    have hlong : lead.length ≤ (c' ++ " " ++ w).length := by
      rw [length_append_word]
      omega
    by_cases hfits : (c.length : Int) + 1 + w.length ≤ width
    · rw [length_wrapFrom_cons_of_fits ws hfits]
      by_cases hfits' : (c'.length : Int) + 1 + w.length ≤ width
      · -- both lines take the word
        rw [length_wrapFrom_cons_of_fits ws hfits']
        obtain ⟨hmono, hlag⟩ := ih (c ++ " " ++ w) (c' ++ " " ++ w) hlong
        refine ⟨fun hle => hmono ?_, hlag⟩
        rw [length_append_word, length_append_word]
        omega
      · -- the second line starts anew, so it may be one behind
        rw [length_wrapFrom_cons_of_not_fits ws hfits']
        obtain ⟨-, hlag⟩ := ih (c ++ " " ++ w) (lead ++ w) hlead
        exact ⟨fun _ => hlag, Nat.le_succ_of_le hlag⟩
    · rw [length_wrapFrom_cons_of_not_fits ws hfits]
      by_cases hfits' : (c'.length : Int) + 1 + w.length ≤ width
      · -- the first line starts anew, and is then no longer than the second
        rw [length_wrapFrom_cons_of_fits ws hfits']
        obtain ⟨hmono, -⟩ := ih (lead ++ w) (c' ++ " " ++ w) hlong
        have hshort : (lead ++ w).length ≤ (c' ++ " " ++ w).length := by
          rw [length_append_word, String.length_append]
          omega
        refine ⟨fun hle => ?_, Nat.succ_le_succ (hmono hshort)⟩
        exact absurd (show (c.length : Int) + 1 + w.length ≤ width by omega) hfits
      · rw [length_wrapFrom_cons_of_not_fits ws hfits']
        exact ⟨fun _ => Nat.le_refl _, Nat.le_succ _⟩

/-- A line that has been begun costs no more than one line of its own. -/
theorem length_wrapFrom_le (c : String) (ws : List String) :
    (wrapFrom width c ws).length ≤ (wrapWords width ws).length + 1 := by
  cases ws with
  | nil => exact Nat.le_refl 1
  | cons w ws =>
    have hlead : lead.length ≤ (lead ++ w).length := by
      rw [String.length_append]
      exact Nat.le_add_right _ _
    by_cases hfits : (c.length : Int) + 1 + w.length ≤ width
    · rw [length_wrapFrom_cons_of_fits ws hfits]
      exact (length_wrapFrom_compare ws (c ++ " " ++ w) (lead ++ w) hlead).2
    · rw [length_wrapFrom_cons_of_not_fits ws hfits]
      exact Nat.le_refl _

theorem length_lineOf_le_append {g : List String} (hg : g ≠ []) (more : List String) :
    (lineOf g).length ≤ (lineOf (g ++ more)).length := by
  cases more with
  | nil => exact Nat.le_of_eq (by rw [List.append_nil])
  | cons w more =>
    rw [lineOf_append hg (List.cons_ne_nil w more), length_append_word]
    omega

/-- **Words that fit together** stand on one line. -/
theorem wrapFrom_append {g more : List String} (hg : g ≠ []) (ws : List String)
    (hfits : ((lineOf (g ++ more)).length : Int) ≤ width) :
    wrapFrom width (lineOf g) (more ++ ws) = wrapFrom width (lineOf (g ++ more)) ws := by
  induction more generalizing g with
  | nil => rw [List.nil_append, List.append_nil]
  | cons w more ih =>
    have hsplit : g ++ w :: more = (g ++ [w]) ++ more := by simp
    rw [hsplit] at hfits ⊢
    have hle := length_lineOf_le_append (g := g ++ [w]) (by simp) more
    have hword : ((lineOf g).length : Int) + 1 + w.length ≤ width := by
      rw [length_lineOf_concat hg] at hle
      omega
    rw [List.cons_append, wrapFrom, if_pos hword, ← lineOf_concat hg]
    exact ih (by simp) hfits

/-- **The fewest lines**: any division of the words that keeps to the width has as many or more. -/
theorem length_wrapWords_le {groups : List (List String)} (hwithin : Within width groups) :
    (wrapWords width groups.flatten).length ≤ groups.length := by
  induction groups with
  | nil => exact Nat.le_refl 0
  | cons g groups ih =>
    have hlater := ih fun g' hg' => hwithin g' (List.mem_cons_of_mem _ hg')
    rw [List.flatten_cons, List.length_cons]
    cases g with
    | nil => exact Nat.le_succ_of_le hlater
    | cons w more =>
      -- the first line holds at least the words of the first group
      have hfirst : wrapWords width (w :: more ++ groups.flatten) =
          wrapFrom width (lineOf (w :: more)) groups.flatten := by
        rw [List.cons_append, wrapWords, ← lineOf_singleton]
        cases more with
        | nil => rfl
        | cons w' more =>
          have hfits := hwithin (w :: w' :: more) List.mem_cons_self (by simp)
          exact wrapFrom_append (List.cons_ne_nil w []) groups.flatten hfits
      rw [hfirst]
      have hcost : (wrapFrom width (lineOf (w :: more)) groups.flatten).length ≤
          (wrapWords width groups.flatten).length + 1 := length_wrapFrom_le _ _
      omega

/-- **Prose on the fewest lines.**  If a link of the prose cannot be answered, that is the fault.
Otherwise let `ws` be the words that its tokens become, in order.

* The lines hold the words behind the lead, one blank between two of them: a division of `ws` into
  groups that are not empty, with nothing lost or moved; no lines for no words.
* A line of several words keeps to the width.
* The first word of a line would have made the line before it wider than that.
* No division of `ws` into groups that keep to the width has fewer lines. -/
theorem wrap_fewest_lines (links : LinkResolver) (width : Int) (text : String) :
    (∀ c, wrap links width text = .error c ↔ words links text = .error c) ∧
    ∀ ws, words links text = .ok ws → ∃ groups,
      wrap links width text = .ok (groups.map lineOf) ∧ Packed width ws groups ∧
        ∀ others, others.flatten = ws → Within width others → groups.length ≤ others.length := by
  have hwrap : wrap links width text = (words links text).map (wrapWords width) := rfl
  rw [hwrap]
  refine ⟨fun c => ?_, fun ws hws => ?_⟩
  · cases words links text <;> simp [Except.map]
  · obtain ⟨groups, hlines, hpacked⟩ := packed_wrapWords width ws
    refine ⟨groups, by rw [hws, ← hlines]; rfl, hpacked, ?_⟩
    rintro others rfl hwithin
    have hle := length_wrapWords_le hwithin
    rwa [hlines, List.length_map] at hle

/-- The answers to two links: one to a markup that is wider than a line, the other to nothing. -/
def wideLinks : LinkResolver := fun target =>
  .ok (if target = "Page" then some "<see cref=\"IPage\"/>" else if target = "gone" then some ""
    else none)

theorem wrap_wideLinks :
    words wideLinks "Opens a [Page] or [gone] a < b." =
      .ok ["Opens", "a", "<see cref=\"IPage\"/>", "or", "", "a", "&lt;", "b."] ∧
    wrap wideLinks 20 "Opens a [Page] or [gone] a < b." =
      .ok ["/// Opens a", "/// <see cref=\"IPage\"/>", "/// or  a &lt; b."] ∧
    ∀ others, others.flatten = ["Opens", "a", "<see cref=\"IPage\"/>", "or", "", "a", "&lt;", "b."] →
      Within 20 others → 3 ≤ others.length := by
  have hwords : words wideLinks "Opens a [Page] or [gone] a < b." =
      .ok ["Opens", "a", "<see cref=\"IPage\"/>", "or", "", "a", "&lt;", "b."] := by
    decide +kernel
  have hlines : wrap wideLinks 20 "Opens a [Page] or [gone] a < b." =
      .ok ["/// Opens a", "/// <see cref=\"IPage\"/>", "/// or  a &lt; b."] := by
    decide +kernel
  refine ⟨hwords, hlines, fun others hflat hwithin => ?_⟩
  obtain ⟨groups, hgroups, -, hfewest⟩ := (wrap_fewest_lines wideLinks 20 _).2 _ hwords
  have hthree : groups.length = 3 := by
    rw [hlines] at hgroups
    have hlength := congrArg List.length (Except.ok.inj hgroups)
    rw [List.length_map] at hlength
    exact hlength.symm
  rw [← hthree]
  exact hfewest others hflat hwithin

end Comment

end ApiSurface
