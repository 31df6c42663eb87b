import ApiSurface.Text.Blank
import ApiSurface.Text.Escape
import Mathlib.Data.List.Induction

/-!
# Escaping, one character at a time

The passes of an escaping go over the whole text one after the other. Together they put a fixed
text in place of each character, so what is escaped in parts is escaped as a whole.
-/

namespace ApiSurface.Text

theorem toList_between (front value back : String) :
    (front ++ value ++ back).toList = front.toList ++ (value.toList ++ back.toList) := by
  rw [String.toList_append, String.toList_append, List.append_assoc]

/-! ### Passes -/

theorem replaceChar_append (old : Char) (new cs ds : List Char) :
    replaceChar old new (cs ++ ds) = replaceChar old new cs ++ replaceChar old new ds :=
  List.flatMap_append

theorem replacePasses_append (passes : List (Char × List Char)) (cs ds : List Char) :
    replacePasses passes (cs ++ ds) = replacePasses passes cs ++ replacePasses passes ds := by
  induction passes generalizing cs ds with
  | nil => rfl
  | cons pass passes ih =>
    have hcons : ∀ es, replacePasses (pass :: passes) es =
        replacePasses passes (replaceChar pass.1 pass.2 es) := fun _ => rfl
    rw [hcons, hcons, hcons, replaceChar_append, ih]

theorem replacePasses_nil (passes : List (Char × List Char)) : replacePasses passes [] = [] := by
  induction passes with
  | nil => rfl
  | cons pass passes ih => exact ih

/-- **Passes act as one encoding**: each character is replaced by what the passes make of it
alone. -/
theorem replacePasses_eq_flatMap (passes : List (Char × List Char)) (cs : List Char) :
    replacePasses passes cs = cs.flatMap fun c => replacePasses passes [c] := by
  induction cs with
  | nil => exact replacePasses_nil passes
  | cons c cs ih =>
    rw [List.flatMap_cons, ← ih, ← replacePasses_append, List.singleton_append]

/-- **A character of an encoded text** stands in what is written for one of the characters. -/
theorem exists_of_flatMap_eq {f : Char → List Char} {cs before after : List Char} {d : Char}
    (h : cs.flatMap f = before ++ d :: after) : ∃ front c back left right,
      cs = front ++ c :: back ∧ f c = left ++ d :: right ∧ before = front.flatMap f ++ left ∧
      after = right ++ back.flatMap f := by
  induction cs generalizing before with
  | nil => simp at h
  | cons c cs ih =>
    rw [List.flatMap_cons] at h
    -- it stands behind what is written for the first character, or in it
    rcases List.append_eq_append_iff.mp h with ⟨gap, rfl, hrest⟩ | ⟨gap, hchar, hafter⟩
    · obtain ⟨front, c', back, left, right, rfl, hc, rfl, rfl⟩ := ih hrest
      exact ⟨c :: front, c', back, left, right, rfl, hc, by simp, rfl⟩
    · cases gap with
      | nil =>
        have hrest : cs.flatMap f = [] ++ d :: after := hafter.symm
        obtain ⟨front, c', back, left, right, rfl, hc, hempty, rfl⟩ := ih hrest
        refine ⟨c :: front, c', back, left, right, rfl, hc, ?_, rfl⟩
        rw [List.flatMap_cons, List.append_assoc, ← hempty, hchar, List.append_nil, List.append_nil]
      | cons d' gap =>
        obtain ⟨rfl, rfl⟩ := List.cons.inj hafter
        exact ⟨[], c, cs, before, gap, rfl, hchar, rfl, rfl⟩

/-! ### Markup -/

/-- What stands for a character in markup. -/
def markupChar (c : Char) : List Char :=
  if c = '&' then ['&', 'a', 'm', 'p', ';']
  else if c = '<' then ['&', 'l', 't', ';']
  else if c = '>' then ['&', 'g', 't', ';']
  else [c]

theorem replacePasses_markup_singleton (c : Char) :
    replacePasses markupPasses [c] = markupChar c := by
  unfold markupChar
  by_cases hamp : c = '&'
  · subst hamp
    decide
  by_cases hlt : c = '<'
  · subst hlt
    decide
  by_cases hgt : c = '>'
  · subst hgt
    decide
  simp [replacePasses, markupPasses, replaceChar, hamp, hlt, hgt]

/-- **Escaping for markup** replaces each character by itself. -/
theorem toList_escapeMarkup (s : String) :
    (escapeMarkup s).toList = s.toList.flatMap markupChar := by
  unfold escapeMarkup
  rw [String.toList_ofList, replacePasses_eq_flatMap]
  simp only [replacePasses_markup_singleton]

theorem escapeMarkup_append (s t : String) :
    escapeMarkup (s ++ t) = escapeMarkup s ++ escapeMarkup t := by
  apply String.toList_injective
  simp [toList_escapeMarkup]

theorem ne_of_mem_markupChar {c d : Char} (h : d ∈ markupChar c) : d ≠ '<' ∧ d ≠ '>' := by
  have hall : ∀ cs : List Char, cs.all (fun d => d ≠ '<' && d ≠ '>') = true → d ∈ cs →
      d ≠ '<' ∧ d ≠ '>' := by
    intro cs hcs hd
    simpa using List.all_eq_true.mp hcs d hd
  unfold markupChar at h
  by_cases hamp : c = '&'
  · rw [if_pos hamp] at h
    exact hall _ (by decide) h
  rw [if_neg hamp] at h
  by_cases hlt : c = '<'
  · rw [if_pos hlt] at h
    exact hall _ (by decide) h
  rw [if_neg hlt] at h
  by_cases hgt : c = '>'
  · rw [if_pos hgt] at h
    exact hall _ (by decide) h
  rw [if_neg hgt] at h
  obtain rfl := List.mem_singleton.mp h
  exact ⟨hlt, hgt⟩

/-- **Escaped text holds no tag**, and no part of one. -/
theorem not_mem_escapeMarkup (s : String) :
    '<' ∉ (escapeMarkup s).toList ∧ '>' ∉ (escapeMarkup s).toList := by
  rw [toList_escapeMarkup]
  constructor
  · intro h
    obtain ⟨c, -, hc⟩ := List.mem_flatMap.mp h
    exact (ne_of_mem_markupChar hc).1 rfl
  · intro h
    obtain ⟨c, -, hc⟩ := List.mem_flatMap.mp h
    exact (ne_of_mem_markupChar hc).2 rfl

/-! ### Blanks -/

theorem markupChar_of_blank {c : Char} (h : isBlank c = true) : markupChar c = [c] := by
  have hne : c ≠ '&' ∧ c ≠ '<' ∧ c ≠ '>' := by
    refine ⟨?_, ?_, ?_⟩ <;> rintro rfl <;> revert h <;> decide
  simp [markupChar, hne]

theorem exists_markupChar_concat {c : Char} (h : isBlank c = false) :
    ∃ cs d, markupChar c = cs ++ [d] ∧ isBlank d = false ∧ cs.all (!isBlank ·) = true := by
  unfold markupChar
  split
  · exact ⟨['&', 'a', 'm', 'p'], ';', rfl, by decide, by decide⟩
  split
  · exact ⟨['&', 'l', 't'], ';', rfl, by decide, by decide⟩
  split
  · exact ⟨['&', 'g', 't'], ';', rfl, by decide, by decide⟩
  · exact ⟨[], c, rfl, h, rfl⟩

theorem blank_mem_markupChar_iff {b c : Char} (hb : isBlank b = true) :
    b ∈ markupChar c ↔ b = c := by
  by_cases hc : isBlank c = true
  · rw [markupChar_of_blank hc, List.mem_singleton]
  · have hc : isBlank c = false := by simpa using hc
    obtain ⟨cs, d, heq, hd, hcs⟩ := exists_markupChar_concat hc
    have hno : b ∉ markupChar c := by
      rw [heq, List.mem_append, List.mem_singleton]
      rintro (h | rfl)
      · have hno := List.all_eq_true.mp hcs b h
        simp [hb] at hno
      · simp [hd] at hb
    refine iff_of_false hno ?_
    rintro rfl
    simp [hc] at hb

/-- **The blanks of escaped text** are those of the text. -/
theorem blank_mem_escapeMarkup_iff {b : Char} (hb : isBlank b = true) (s : String) :
    b ∈ (escapeMarkup s).toList ↔ b ∈ s.toList := by
  rw [toList_escapeMarkup, List.mem_flatMap]
  simp only [blank_mem_markupChar_iff hb, exists_eq_right']

/-- Blanks at the end of two texts in a row: those of the second, and if it holds nothing else also
those of the first. -/
theorem stripEnd_append (cs ds : List Char) :
    stripEnd (cs ++ ds) = if stripEnd ds = [] then stripEnd cs else cs ++ stripEnd ds := by
  unfold stripEnd
  rw [List.reverse_append, List.dropWhile_append]
  by_cases h : ds.reverse.dropWhile isBlank = []
  · simp [h]
  · simp [h]

theorem stripEnd_concat (cs : List Char) (c : Char) :
    stripEnd (cs ++ [c]) = if isBlank c then stripEnd cs else cs ++ [c] := by
  rw [stripEnd_append]
  by_cases h : isBlank c = true
  · simp [stripEnd, h]
  · simp [stripEnd, h]

/-- **Blanks at the end** of escaped text are those at the end of the text. -/
theorem stripEnd_flatMap_markupChar (cs : List Char) :
    stripEnd (cs.flatMap markupChar) = (stripEnd cs).flatMap markupChar := by
  induction cs using List.reverseRecOn with
  | nil => rfl
  | append_singleton cs c ih =>
    rw [List.flatMap_append, List.flatMap_singleton, stripEnd_concat]
    by_cases h : isBlank c = true
    · rw [if_pos h, markupChar_of_blank h, stripEnd_concat, if_pos h, ih]
    · have h : isBlank c = false := by simpa using h
      obtain ⟨es, d, heq, hd, -⟩ := exists_markupChar_concat h
      rw [if_neg (by simp [h]), List.flatMap_append, List.flatMap_singleton, heq,
        ← List.append_assoc, stripEnd_concat, if_neg (by simp [hd])]

end ApiSurface.Text
