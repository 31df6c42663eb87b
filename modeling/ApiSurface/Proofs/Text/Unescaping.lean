import ApiSurface.Proofs.Text.Literal

/-!
# Escaped literals, taken back

The passes that escape a text for a literal put one or two characters in place of each one, and a later
pass leaves alone what an earlier one wrote.  So the text is taken back from the left, without a
closing quote to look for.
-/

namespace ApiSurface.Text

/-- Takes back escapes.  A quote needs one, and a backslash that starts none is refused. -/
def unescape? : List Char → Option (List Char)
  | '\\' :: '\\' :: cs => (unescape? cs).map ('\\' :: ·)
  | '\\' :: '"' :: cs => (unescape? cs).map ('"' :: ·)
  | '\\' :: 'n' :: cs => (unescape? cs).map ('\n' :: ·)
  | '\\' :: 't' :: cs => (unescape? cs).map ('\t' :: ·)
  | '\\' :: 'r' :: cs => (unescape? cs).map ('\r' :: ·)
  | '\\' :: '0' :: cs => (unescape? cs).map ('\x00' :: ·)
  | c :: cs => if c = '\\' || c = '"' then none else (unescape? cs).map (c :: ·)
  | [] => some []

/-- Whether a text that is read from the left ends behind a backslash that escapes what comes next.  The
flag says whether it starts behind one. -/
def endsInEscapeFrom : (escaped : Bool) → List Char → Bool :=
  List.foldl fun escaped c => !escaped && c = '\\'

/-- Whether a text ends behind a backslash that escapes what comes next. -/
def endsInEscape (cs : List Char) : Bool := endsInEscapeFrom false cs

/-- What is written for a character is the character, or a backslash and the character of an escape. -/
theorem literalChar_cases (c : Char) :
    ((c ≠ '"' ∧ c ≠ '\\') ∧ literalChar c = [c]) ∨ ∃ e, literalChar c = ['\\', e] := by
  unfold literalChar
  cases hlookup : literalPasses.lookup c with
  | some written =>
    obtain ⟨e, -, rfl, -⟩ := exists_escape_of_lookup hlookup
    exact .inr ⟨e.1, rfl⟩
  | none => exact .inl ⟨plain_of_lookup hlookup, rfl⟩

/-! ### Escapes from the left -/

theorem endsInEscape_append (cs ds : List Char) :
    endsInEscape (cs ++ ds) = endsInEscapeFrom (endsInEscape cs) ds :=
  List.foldl_append

theorem endsInEscape_literalChar (c : Char) : endsInEscape (literalChar c) = false := by
  rcases literalChar_cases c with ⟨⟨-, hbackslash⟩, heq⟩ | ⟨e, heq⟩
  · rw [heq]
    simp [endsInEscape, endsInEscapeFrom, hbackslash]
  · rw [heq]
    rfl

theorem endsInEscape_flatMap (cs : List Char) :
    endsInEscape (cs.flatMap literalChar) = false := by
  induction cs with
  | nil => rfl
  | cons c cs ih =>
    rw [List.flatMap_cons, endsInEscape_append, endsInEscape_literalChar]
    exact ih

theorem endsInEscape_of_literalChar {c : Char} {before after : List Char}
    (h : literalChar c = before ++ '"' :: after) : endsInEscape before = true := by
  rcases literalChar_cases c with ⟨⟨hquote, -⟩, heq⟩ | ⟨e, heq⟩
  · have hmem : '"' ∈ [c] := by
      rw [← heq, h]
      simp
    exact absurd (List.mem_singleton.mp hmem).symm hquote
  · rw [heq] at h
    match before with
    | [] => cases h
    | [b] =>
      obtain ⟨rfl, -⟩ := List.cons.inj h
      rfl
    | b :: b' :: before => simp at h

/-- **A quote of an escaped text** stands behind the backslash that escapes it. -/
theorem endsInEscape_of_quote {s : String} {before after : List Char}
    (h : (escapeLiteral s).toList = before ++ '"' :: after) : endsInEscape before = true := by
  rw [toList_escapeLiteral] at h
  obtain ⟨front, c, back, left, right, -, hchar, rfl, -⟩ := exists_of_flatMap_eq h
  rw [endsInEscape_append, endsInEscape_flatMap]
  exact endsInEscape_of_literalChar hchar

/-- **An escaped text does not end** inside an escape. -/
theorem endsInEscape_escapeLiteral (s : String) :
    endsInEscape (escapeLiteral s).toList = false := by
  rw [toList_escapeLiteral]
  exact endsInEscape_flatMap s.toList

/-! ### Taking back -/

theorem unescape?_literalChar (c : Char) (cs : List Char) :
    unescape? (literalChar c ++ cs) = (unescape? cs).map (c :: ·) := by
  cases hlookup : literalPasses.lookup c with
  | some written =>
    have hmem : c ∈ literalPasses.map (·.1) := List.mem_map_of_mem (mem_of_lookup hlookup)
    simp only [literalPasses, List.map_cons, List.map_nil, List.mem_cons, List.not_mem_nil,
      or_false] at hmem
    rcases hmem with rfl | rfl | rfl | rfl | rfl | rfl <;> rfl
  | none =>
    obtain ⟨hquote, hbackslash⟩ := plain_of_lookup hlookup
    have hchar : literalChar c = [c] := by
      rw [literalChar, hlookup]
      rfl
    rw [hchar, List.singleton_append]
    simp [unescape?, hquote, hbackslash]

/-- **An escaped text is taken back.** -/
theorem unescape?_escapeLiteral (s : String) :
    unescape? (escapeLiteral s).toList = some s.toList := by
  rw [toList_escapeLiteral]
  induction s.toList with
  | nil => rfl
  | cons c cs ih =>
    rw [List.flatMap_cons, unescape?_literalChar, ih]
    rfl

/-- **Escaping for a literal** is an encoding of characters that can be taken back.

* The passes together put in place of each character what its own pass puts there, or leave it.
* No line end, tab or null character is left, and a quote is left only behind the backslash that escapes
  it.
* The escaped text does not end inside an escape, and reading the escapes from the left gives the text
  back, so different texts are written differently. -/
theorem escapeLiteral_invertible :
    Function.Injective escapeLiteral ∧ ∀ s : String,
      (escapeLiteral s).toList =
        s.toList.flatMap (fun c => (literalPasses.lookup c).getD [c]) ∧
      (∀ c ∈ ['\n', '\t', '\r', '\x00'], c ∉ (escapeLiteral s).toList) ∧
      (∀ before after, (escapeLiteral s).toList = before ++ '"' :: after →
        endsInEscape before = true) ∧
      endsInEscape (escapeLiteral s).toList = false ∧
      unescape? (escapeLiteral s).toList = some s.toList := by
  constructor
  · intro s t h
    have hread := unescape?_escapeLiteral s
    rw [h, unescape?_escapeLiteral] at hread
    exact String.toList_injective (Option.some.inj hread).symm
  · intro s
    exact ⟨toList_escapeLiteral s, fun c hc => not_mem_escapeLiteral s hc,
      fun before after => endsInEscape_of_quote, endsInEscape_escapeLiteral s,
      unescape?_escapeLiteral s⟩

/-- A backslash in front of a quote: the quote stands behind a third backslash, which is its own. -/
theorem escapeLiteral_invertible_quote :
    escapeLiteral "\\\"n" = "\\\\\\\"n" ∧ endsInEscape "\\\\\\".toList = true ∧
      unescape? "\\\\\\\"n".toList = some "\\\"n".toList := by
  have hescaped : escapeLiteral "\\\"n" = "\\\\\\\"n" := by decide +kernel
  obtain ⟨-, -, hquote, -, hread⟩ := escapeLiteral_invertible.2 "\\\"n"
  rw [hescaped] at hquote hread
  exact ⟨hescaped, hquote "\\\\\\".toList ['n'] (by decide +kernel), hread⟩

end ApiSurface.Text
