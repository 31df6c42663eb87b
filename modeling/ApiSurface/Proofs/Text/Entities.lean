import ApiSurface.Proofs.Text.Escape

/-!
# Escaped markup, read back

Escaping for markup writes entities, and only where a character would be markup.  Read back, each entity
is one character again, also in a text that held entities before it was escaped.
-/

namespace ApiSurface.Text

/-- Text with its entities replaced by what they stand for. -/
def decodeMarkup : List Char → List Char
  | '&' :: 'a' :: 'm' :: 'p' :: ';' :: cs => '&' :: decodeMarkup cs
  | '&' :: 'l' :: 't' :: ';' :: cs => '<' :: decodeMarkup cs
  | '&' :: 'g' :: 't' :: ';' :: cs => '>' :: decodeMarkup cs
  | c :: cs => c :: decodeMarkup cs
  | [] => []

/-- What comes behind an `&` is the rest of an entity, and more. -/
def StartsEntity (after : List Char) : Prop :=
  ∃ name ∈ ["amp", "lt", "gt"], name.toList ++ [';'] <+: after

theorem decodeMarkup_markupChar (c : Char) (cs : List Char) :
    decodeMarkup (markupChar c ++ cs) = c :: decodeMarkup cs := by
  by_cases hamp : c = '&'
  · subst hamp
    rfl
  by_cases hlt : c = '<'
  · subst hlt
    rfl
  by_cases hgt : c = '>'
  · subst hgt
    rfl
  simp [markupChar, decodeMarkup, hamp, hlt, hgt]

/-- **An escaped text is read back**, whatever it holds. -/
theorem decodeMarkup_escapeMarkup (s : String) : decodeMarkup (escapeMarkup s).toList = s.toList := by
  rw [toList_escapeMarkup]
  induction s.toList with
  | nil => rfl
  | cons c cs ih => rw [List.flatMap_cons, decodeMarkup_markupChar, ih]

/-- An `&` in what stands for a character is its first character, and the rest of an entity follows. -/
theorem startsEntity_of_markupChar {c : Char} {before after : List Char}
    (h : markupChar c = before ++ '&' :: after) : before = [] ∧ StartsEntity after := by
  have hno : ∀ name ∈ ["amp", "lt", "gt"], '&' ∉ name.toList ++ [';'] := by decide
  have hentity : ∀ name ∈ ["amp", "lt", "gt"], '&' :: (name.toList ++ [';']) = before ++ '&' :: after →
      before = [] ∧ StartsEntity after := by
    intro name hname heq
    cases before with
    | nil =>
      obtain ⟨-, rfl⟩ := List.cons.inj heq
      exact ⟨rfl, name, hname, List.prefix_refl _⟩
    | cons b before =>
      have hmem : '&' ∈ name.toList ++ [';'] := by
        rw [(List.cons.inj heq).2]
        simp
      exact absurd hmem (hno name hname)
  unfold markupChar at h
  split at h
  · exact hentity "amp" (by simp) h
  split at h
  · exact hentity "lt" (by simp) h
  split at h
  · exact hentity "gt" (by simp) h
  · next hamp _ _ =>
    have hmem : '&' ∈ [c] := by
      rw [h]
      simp
    exact absurd (List.mem_singleton.mp hmem).symm hamp

/-- **Every `&` of an escaped text** starts an entity. -/
theorem startsEntity_of_ampersand {s : String} {before after : List Char}
    (h : (escapeMarkup s).toList = before ++ '&' :: after) : StartsEntity after := by
  rw [toList_escapeMarkup] at h
  obtain ⟨front, c, back, left, right, -, hchar, -, rfl⟩ := exists_of_flatMap_eq h
  obtain ⟨-, name, hname, hstart⟩ := startsEntity_of_markupChar hchar
  exact ⟨name, hname, hstart.trans (List.prefix_append right _)⟩

end ApiSurface.Text
