import ApiSurface.Proofs.Lookup
import ApiSurface.Text.Case

/-!
# Raised characters
-/

namespace ApiSurface.Text

theorem upper_ne_nil (c : Char) : upper c ≠ [] := by
  have htable : ∀ e ∈ longCapitals, e.2 ≠ [] := by decide +kernel
  unfold upper
  split
  · exact List.cons_ne_nil _ _
  · unfold upperBeyondAscii
    split
    · next codes hcodes =>
      have hne := htable _ (mem_of_lookup hcodes)
      simpa using hne
    · split <;> exact List.cons_ne_nil _ _

theorem capitalize_eq_nil_iff {cs : List Char} : capitalize cs = [] ↔ cs = [] := by
  cases cs with
  | nil => exact Iff.rfl
  | cons c cs => simp [capitalize, upper_ne_nil]

theorem capitalize_ascii {c : Char} (h : c.toNat < 128) (cs : List Char) :
    capitalize (c :: cs) = c.toUpper :: cs := by
  rw [capitalize, upper, if_pos h, List.singleton_append]

theorem forall_mem_of_all {P : Char → Prop} [DecidablePred P] {cs : List Char}
    (h : (cs.all fun c => decide (P c)) = true) : ∀ c ∈ cs, P c :=
  fun c hc => of_decide_eq_true (List.all_eq_true.mp h c hc)

theorem forall_ascii {P : Char → Prop} (h : ∀ n < 128, P (Char.ofNat n)) {c : Char}
    (hc : c.toNat < 128) : P c := by
  have hcode := h c.toNat hc
  rwa [Char.ofNat_toNat] at hcode

/-- **Raising the first character** of a text leads out of no class of ASCII characters that holds
the capitals of its letters. -/
theorem forall_mem_capitalize {P : Char → Prop} (hascii : ∀ c, P c → c.toNat < 128)
    (hupper : ∀ c, P c → P c.toUpper) {cs : List Char} (h : ∀ c ∈ cs, P c) :
    ∀ c ∈ capitalize cs, P c := by
  cases cs with
  | nil => exact h
  | cons c cs =>
    obtain ⟨hc, hcs⟩ := List.forall_mem_cons.mp h
    rw [capitalize_ascii (hascii c hc)]
    exact List.forall_mem_cons.mpr ⟨hupper c hc, hcs⟩

end ApiSurface.Text
