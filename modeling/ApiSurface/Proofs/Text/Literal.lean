import ApiSurface.Proofs.Lookup
import ApiSurface.Proofs.Text.Escape
import Mathlib.Data.List.Basic

/-!
# String literals, read back

A regular C# string literal is read from behind its opening quote to the quote that closes it.
-/

namespace ApiSurface.Text

/-! ### Writing -/

/-- What stands for a character in a literal. -/
def literalChar (c : Char) : List Char := (literalPasses.lookup c).getD [c]

theorem replacePasses_literal_singleton (c : Char) :
    replacePasses literalPasses [c] = literalChar c := by
  by_cases hmem : c ∈ literalPasses.map (·.1)
  · have hall : ∀ p ∈ literalPasses,
        replacePasses literalPasses [p.1] = literalChar p.1 := by decide
    obtain ⟨p, hp, rfl⟩ := List.mem_map.mp hmem
    exact hall p hp
  · have hlookup : literalPasses.lookup c = none := lookup_eq_none_iff_not_mem.mpr hmem
    simp only [literalPasses, List.map_cons, List.map_nil, List.mem_cons, List.not_mem_nil,
      or_false, not_or] at hmem
    rw [literalChar, hlookup]
    simp [replacePasses, literalPasses, replaceChar, hmem]

/-- **Escaping for a literal** replaces each character by itself. -/
theorem toList_escapeLiteral (s : String) :
    (escapeLiteral s).toList = s.toList.flatMap literalChar := by
  unfold escapeLiteral
  rw [String.toList_ofList, replacePasses_eq_flatMap]
  simp only [replacePasses_literal_singleton]

/-! ### Reading -/

/-- The simple escapes of C#: what a character stands for behind a backslash. -/
def simpleEscapes : List (Char × Char) :=
  [('\\', '\\'), ('"', '"'), ('\'', '\''), ('0', '\x00'), ('a', '\x07'), ('b', '\x08'),
    ('f', '\x0c'), ('n', '\n'), ('r', '\r'), ('t', '\t'), ('v', '\x0b')]

/-- Reads the rest of a literal, which may start behind a backslash: what it stands for, and what is
behind the closing quote. -/
def readLiteralFrom? : (escaped : Bool) → List Char → Option (List Char × List Char)
  | _, [] => none
  | true, e :: cs =>
    match simpleEscapes.lookup e with
    | none => none
    | some c => (readLiteralFrom? false cs).map fun r => (c :: r.1, r.2)
  | false, c :: cs =>
    if c = '"' then some ([], cs)
    else if c = '\\' then readLiteralFrom? true cs
    else (readLiteralFrom? false cs).map fun r => (c :: r.1, r.2)

/-- Reads a literal from behind its opening quote: its value, and what is behind its closing
quote. -/
def readLiteral? (cs : List Char) : Option (List Char × List Char) := readLiteralFrom? false cs

theorem readLiteral?_quote (cs : List Char) : readLiteral? ('"' :: cs) = some ([], cs) := rfl

theorem readLiteral?_escape {e c : Char} (h : simpleEscapes.lookup e = some c) (cs : List Char) :
    readLiteral? ('\\' :: e :: cs) = (readLiteral? cs).map fun r => (c :: r.1, r.2) := by
  unfold readLiteral?
  rw [readLiteralFrom?, if_neg (by decide), if_pos rfl, readLiteralFrom?]
  simp only [h]

theorem readLiteral?_plain {c : Char} (hquote : c ≠ '"') (hbackslash : c ≠ '\\')
    (cs : List Char) :
    readLiteral? (c :: cs) = (readLiteral? cs).map fun r => (c :: r.1, r.2) := by
  unfold readLiteral?
  rw [readLiteralFrom?, if_neg hquote, if_neg hbackslash]

theorem exists_escape_of_lookup {c : Char} {written : List Char}
    (h : literalPasses.lookup c = some written) :
    ∃ e ∈ simpleEscapes, written = ['\\', e.1] ∧ simpleEscapes.lookup e.1 = some c := by
  have hall : ∀ p ∈ literalPasses, ∃ e ∈ simpleEscapes,
      p.2 = ['\\', e.1] ∧ simpleEscapes.lookup e.1 = some p.1 := by decide
  exact hall _ (mem_of_lookup h)

/-- A character that is written as it is does not end or escape anything. -/
theorem plain_of_lookup {c : Char} (h : literalPasses.lookup c = none) : c ≠ '"' ∧ c ≠ '\\' := by
  have hmem := lookup_eq_none_iff_not_mem.mp h
  simp only [literalPasses, List.map_cons, List.mem_cons, not_or] at hmem
  exact ⟨hmem.2.1, hmem.1⟩

theorem readLiteral?_literalChar (c : Char) (cs : List Char) :
    readLiteral? (literalChar c ++ cs) = (readLiteral? cs).map fun r => (c :: r.1, r.2) := by
  unfold literalChar
  cases hlookup : literalPasses.lookup c with
  | some written =>
    obtain ⟨e, -, rfl, he⟩ := exists_escape_of_lookup hlookup
    exact readLiteral?_escape he cs
  | none =>
    obtain ⟨hquote, hbackslash⟩ := plain_of_lookup hlookup
    exact readLiteral?_plain hquote hbackslash cs

/-- **An escaped text is read back**, whatever comes behind its closing quote. -/
theorem readLiteral?_escapeLiteral (s : String) (rest : List Char) :
    readLiteral? ((escapeLiteral s).toList ++ '"' :: rest) = some (s.toList, rest) := by
  rw [toList_escapeLiteral]
  induction s.toList with
  | nil => exact readLiteral?_quote rest
  | cons c cs ih =>
    rw [List.flatMap_cons, List.append_assoc, readLiteral?_literalChar, ih]
    rfl

/-- **An escaped text stays in its line**: no character that ends one, and no other control character
that has an escape, is written as it is. -/
theorem not_mem_escapeLiteral (s : String) {c : Char} (h : c ∈ ['\n', '\t', '\r', '\x00']) :
    c ∉ (escapeLiteral s).toList := by
  have hescapes : ∀ e ∈ simpleEscapes, e.1 ∉ ['\n', '\t', '\r', '\x00'] := by decide
  have hbackslash : '\\' ∉ ['\n', '\t', '\r', '\x00'] := by decide
  have hwritten : ['\n', '\t', '\r', '\x00'].all fun c => (literalPasses.lookup c).isSome := by decide
  rw [toList_escapeLiteral]
  intro hmem
  obtain ⟨d, -, hd⟩ := List.mem_flatMap.mp hmem
  unfold literalChar at hd
  cases hlookup : literalPasses.lookup d with
  | some written =>
    obtain ⟨e, he, rfl, -⟩ := exists_escape_of_lookup hlookup
    rw [hlookup, Option.getD_some, List.mem_cons, List.mem_singleton] at hd
    rcases hd with rfl | rfl
    · exact hbackslash h
    · exact hescapes e he h
  | none =>
    rw [hlookup] at hd
    obtain rfl := List.mem_singleton.mp hd
    have hsome := List.all_eq_true.mp hwritten c h
    rw [hlookup] at hsome
    cases hsome

/-! ### Texts that are not escaped -/

theorem map_cons_eq_some_iff {x : Option (List Char × List Char)} {c : Char}
    {value rest : List Char} : (x.map fun r => (c :: r.1, r.2)) = some (value, rest) ↔
      ∃ tail, x = some (tail, rest) ∧ c :: tail = value := by
  simp [Option.map_eq_some_iff]

/-- Reading takes a character for each one of the value, and the closing quote. -/
theorem length_lt_of_readLiteralFrom? {escaped : Bool} {cs value rest : List Char}
    (h : readLiteralFrom? escaped cs = some (value, rest)) :
    value.length + rest.length < cs.length := by
  induction cs generalizing escaped value with
  | nil => cases escaped <;> cases h
  | cons c cs ih =>
    rw [List.length_cons]
    cases escaped with
    | true =>
      rw [readLiteralFrom?] at h
      split at h
      · cases h
      obtain ⟨tail, htail, rfl⟩ := map_cons_eq_some_iff.mp h
      have hlt := ih htail
      rw [List.length_cons]
      omega
    | false =>
      rw [readLiteralFrom?] at h
      split at h
      · cases h
        simp
      split at h
      · exact Nat.lt_succ_of_lt (ih h)
      obtain ⟨tail, htail, rfl⟩ := map_cons_eq_some_iff.mp h
      have hlt := ih htail
      rw [List.length_cons]
      omega

/-- If reading takes no more than that, there is no escape in the literal. -/
theorem not_mem_of_readLiteral? {cs value rest : List Char}
    (h : readLiteral? cs = some (value, rest)) (hlen : cs.length = value.length + rest.length + 1) :
    '"' ∉ value ∧ '\\' ∉ value := by
  unfold readLiteral? at h
  induction cs generalizing value with
  | nil => cases h
  | cons c cs ih =>
    rw [readLiteralFrom?] at h
    rw [List.length_cons] at hlen
    split at h
    · cases h
      simp
    split at h
    · have hlt := length_lt_of_readLiteralFrom? h
      omega
    · next hquote hbackslash =>
      obtain ⟨tail, htail, rfl⟩ := map_cons_eq_some_iff.mp h
      rw [List.length_cons] at hlen
      have hrest := ih htail (by omega)
      simp only [List.mem_cons, not_or]
      exact ⟨⟨Ne.symm hquote, hrest.1⟩, ⟨Ne.symm hbackslash, hrest.2⟩⟩

/-- **A text that is not escaped** is read back if and only if it holds no quote and no
backslash. -/
theorem readLiteral?_raw_iff {cs rest : List Char} :
    readLiteral? (cs ++ '"' :: rest) = some (cs, rest) ↔ '"' ∉ cs ∧ '\\' ∉ cs := by
  constructor
  · intro h
    refine not_mem_of_readLiteral? h ?_
    rw [List.length_append, List.length_cons, Nat.add_assoc]
  · rintro ⟨hquote, hbackslash⟩
    induction cs with
    | nil => exact readLiteral?_quote rest
    | cons c cs ih =>
      simp only [List.mem_cons, not_or] at hquote hbackslash
      rw [List.cons_append, readLiteral?_plain (Ne.symm hquote.1) (Ne.symm hbackslash.1),
        ih hquote.2 hbackslash.2]
      rfl

/-! ### A literal in a line -/

/-- Reads a line that consists of an opening, which ends in a quote, the literal behind that quote,
and a closing. -/
def readLiteralIn? (opening closing line : List Char) : Option (List Char) :=
  (line.dropPrefix? opening).bind fun cs =>
    (readLiteral? cs).bind fun r => if r.2 = closing then some r.1 else none

theorem toList_attribute (opening body : String) :
    (opening ++ body ++ "\")]").toList = opening.toList ++ (body.toList ++ '"' :: ")]".toList) :=
  toList_between opening body "\")]"

theorem readLiteralIn?_eq_some_iff {opening closing cs value : List Char} :
    readLiteralIn? opening closing (opening ++ cs) = some value ↔
      readLiteral? cs = some (value, closing) := by
  unfold readLiteralIn?
  rw [List.dropPrefix?_append_of_beq cs (BEq.refl opening), Option.bind_some,
    Option.bind_eq_some_iff]
  simp only [Option.ite_none_right_eq_some, Option.some.injEq]
  constructor
  · rintro ⟨⟨value', rest⟩, hread, rfl, rfl⟩
    exact hread
  · intro hread
    exact ⟨(value, closing), hread, rfl, rfl⟩

end ApiSurface.Text
