import ApiSurface.Text.Encoding

/-!
# Held codes

The characters of a text hold its codes without a loss, halves among them, and a text leaves the
program if and only if it holds no half.
-/

namespace ApiSurface.Text

/-! ### Holding and reading back -/

theorem toNat_ofNat {n : Nat} (h : n.isValidChar) : (Char.ofNat n).toNat = n := by
  unfold Char.ofNat
  rw [dif_pos h]
  rfl

theorem isHalf_eq_true_iff {n : Nat} : isHalf n = true ↔ 0xD800 ≤ n ∧ n < 0xE000 := by
  simp [isHalf]

theorem isHalf_toNat (c : Char) : isHalf c.toNat = false := by
  have hvalid : c.toNat.isValidChar := c.valid
  rw [Bool.eq_false_iff, ne_eq, isHalf_eq_true_iff]
  rcases hvalid with h | h <;> omega

theorem toNat_mark : mark.toNat = 0x10F7FF := by decide

theorem codes_cons {c : Char} (h : c ≠ mark) (cs : List Char) :
    codes (c :: cs) = heldCode c :: codes cs := by
  cases cs with
  | nil => rfl
  | cons c' cs => rw [codes, if_neg h]

theorem codes_mark_cons (c : Char) (cs : List Char) :
    codes (mark :: c :: cs) = c.toNat :: codes cs := by
  rw [codes, if_pos rfl]

theorem codes_eq_nil_iff {cs : List Char} : codes cs = [] ↔ cs = [] := by
  match cs with
  | [] => simp [codes]
  | [c] => simp [codes]
  | c :: c' :: cs =>
    rw [codes]
    split <;> simp

/-- What holds a code is read back as this code, whatever follows. -/
theorem codes_hold_append {n : Nat} (h : n < 0x110000) (cs : List Char) :
    codes (hold n ++ cs) = n :: codes cs := by
  have hne : ∀ {m : Nat}, m.isValidChar → m ≠ 0x10F7FF → Char.ofNat m ≠ mark := by
    intro m hm hne heq
    rw [← toNat_ofNat hm, heq, toNat_mark] at hne
    exact hne rfl
  unfold hold
  split
  · next hhalf =>
    rw [isHalf_eq_true_iff] at hhalf
    have hvalid : (n + heldOffset).isValidChar := by
      unfold heldOffset
      exact .inr (by omega)
    rw [List.singleton_append, codes_cons (hne hvalid (by unfold heldOffset; omega)), heldCode,
      toNat_ofNat hvalid, toNat_mark, if_pos (by unfold heldOffset; omega), Nat.add_sub_cancel]
  · next hhalf =>
    rw [isHalf_eq_true_iff] at hhalf
    have hvalid : n.isValidChar := by
      unfold Nat.isValidChar
      omega
    split
    · next hlt =>
      rw [toNat_mark] at hlt
      rw [List.singleton_append, codes_cons (hne hvalid (by omega)), heldCode, toNat_ofNat hvalid,
        toNat_mark, if_neg (by omega)]
    · rw [List.cons_append, List.singleton_append, codes_mark_cons, toNat_ofNat hvalid]

/-- **The characters of a text hold its codes** without a loss. -/
theorem codes_ofCodes {ns : List Nat} (h : ∀ n ∈ ns, n < 0x110000) :
    codes (ofCodes ns).toList = ns := by
  unfold ofCodes
  rw [String.toList_ofList]
  induction ns with
  | nil => rfl
  | cons n ns ih =>
    rw [List.flatMap_cons, codes_hold_append (h n List.mem_cons_self),
      ih fun m hm => h m (List.mem_cons_of_mem _ hm)]

/-! ### Encoding -/

theorem codingFault?_eq_none_iff {passesOver : Nat → Bool} {place : Nat} {ns : List Nat} :
    codingFault? passesOver place ns = none ↔
      ∀ n ∈ ns, isHalf n = true → passesOver n = true := by
  induction ns generalizing place with
  | nil => simp [codingFault?]
  | cons n ns ih =>
    rw [codingFault?, List.forall_mem_cons]
    split
    · next h =>
      simp only [Bool.and_eq_true, Bool.not_eq_true'] at h
      simp [h.1, h.2]
    · next h =>
      rw [ih]
      have hn : isHalf n = true → passesOver n = true := by simpa using h
      exact ⟨fun hrest => ⟨hn, hrest⟩, And.right⟩

/-- A text holds a half of a character. -/
def HoldsHalf (s : String) : Prop := ∃ n ∈ codes s.toList, isHalf n = true

/-- **A text is encoded** if and only if it holds no half. -/
theorem exists_release_iff {s : String} : (∃ t, release s = .ok t) ↔ ¬ HoldsHalf s := by
  have hnone : codingFault? (fun _ => false) 0 (codes s.toList) = none ↔ ¬ HoldsHalf s := by
    rw [codingFault?_eq_none_iff]
    simp [HoldsHalf]
  rw [← hnone]
  unfold release
  cases hfault : codingFault? (fun _ => false) 0 (codes s.toList) with
  | none => simp [hfault]
  | some fault => simp [hfault]

theorem release_ne_empty {s t : String} (hs : s ≠ "") (h : release s = .ok t) : t ≠ "" := by
  have hcodes : codes s.toList ≠ [] := by
    intro hnil
    rw [codes_eq_nil_iff] at hnil
    exact hs (String.toList_eq_nil_iff.mp hnil)
  unfold release at h
  cases hfault : codingFault? (fun _ => false) 0 (codes s.toList) with
  | some fault => simp [hfault] at h
  | none =>
    simp only [hfault] at h
    obtain rfl := Except.ok.inj h
    simpa using hcodes

theorem release_ofChars (cs : List Char) : release (ofChars cs) = .ok (String.ofList cs) := by
  have hcodes : codes (ofChars cs).toList = codesOfChars cs := by
    refine codes_ofCodes fun n hn => ?_
    obtain ⟨c, -, rfl⟩ := List.mem_map.mp hn
    rcases c.valid with h | h
    · exact Nat.lt_trans h (by decide)
    · exact h.2
  have hnone : codingFault? (fun _ => false) 0 (codesOfChars cs) = none := by
    refine codingFault?_eq_none_iff.mpr fun n hn hhalf => ?_
    obtain ⟨c, -, rfl⟩ := List.mem_map.mp hn
    rw [isHalf_toNat] at hhalf
    cases hhalf
  have hchars : (codesOfChars cs).map Char.ofNat = cs := by
    simp [codesOfChars, Function.comp_def]
  unfold release
  simp only [hcodes, hnone, hchars]

end ApiSurface.Text
