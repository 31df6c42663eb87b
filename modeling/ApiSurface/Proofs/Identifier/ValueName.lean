import ApiSurface.Identifier
import ApiSurface.Proofs.Text.Case
import ApiSurface.Proofs.Text.Runs

/-!
# Names of enum values

The name of a value is made of the ASCII letters and digits of its literal, or it is one of the
special names.
-/

namespace ApiSurface.Identifier

/-- **The words of a literal**, joined, are empty only if there are none. -/
theorem joinWords_eq_nil_iff {literal : List Char} :
    joinWords literal = [] ↔ Text.runs isWordChar literal = [] := by
  unfold joinWords
  rw [List.flatten_eq_nil_iff]
  constructor
  · intro h
    refine List.eq_nil_iff_forall_not_mem.mpr fun run hrun => ?_
    have hempty := h _ (List.mem_map_of_mem hrun)
    exact Text.ne_nil_of_mem_runs hrun (Text.capitalize_eq_nil_iff.mp hempty)
  · intro h
    rw [h]
    nofun

/-- **A literal has no name** if and only if it has no word and is none of the special ones.  Of
every other the first character decides on the name, and there is one. -/
theorem valueName_error_iff {literal : String} {c : Cause} :
    valueName literal = .error c ↔ specialValues.lookup literal = none ∧
      Text.runs isWordChar literal.toList = [] ∧ c = .namelessLiteral literal := by
  rw [← joinWords_eq_nil_iff]
  unfold valueName
  cases specialValues.lookup literal with
  | some name => simp
  | none =>
    cases joinWords literal.toList with
    | nil => simp [eq_comm]
    | cons c' cs => simp

/-- A literal that has a name: one with a letter or digit of ASCII, or a special one. -/
def IsNameable (literal : String) : Prop :=
  (∃ c ∈ literal.toList, isWordChar c = true) ∨ literal ∈ specialValues.map (·.1)

theorem valueName_eq_error_iff {literal : String} {c : Cause} :
    valueName literal = .error c ↔ ¬ IsNameable literal ∧ c = .namelessLiteral literal := by
  have hruns : Text.runs isWordChar literal.toList = [] ↔
      ¬ ∃ c ∈ literal.toList, isWordChar c = true := by
    rw [Text.runs_eq_nil_iff]
    simp
  unfold IsNameable
  rw [valueName_error_iff, lookup_eq_none_iff_not_mem, hruns, not_or, and_assoc, and_left_comm]

/-- **A literal has a name** if it has a letter or digit, or is special. -/
theorem exists_valueName_iff {literal : String} :
    (∃ name, valueName literal = .ok name) ↔ IsNameable literal := by
  cases h : valueName literal with
  | error c =>
    have hno := (valueName_eq_error_iff.mp h).1
    simp [hno]
  | ok name =>
    refine iff_of_true ⟨name, rfl⟩ ?_
    refine Classical.byContradiction fun hno => ?_
    have herror := valueName_eq_error_iff.mpr ⟨hno, rfl⟩
    rw [h] at herror
    cases herror

theorem ascii_of_isWordChar {c : Char} (h : isWordChar c = true) : c.toNat < 128 := by
  have hlast : c ≤ 'z' := by
    simp only [isWordChar, Text.isAsciiDigit, Text.isAsciiLetter, Bool.or_eq_true,
      Bool.and_eq_true, decide_eq_true_eq] at h
    rcases h with ⟨-, h⟩ | ⟨-, h⟩ | ⟨-, h⟩
    · exact Char.le_trans h (by decide)
    · exact Char.le_trans h (by decide)
    · exact h
  have hcode : c.toNat ≤ 'z'.toNat := hlast
  exact Nat.lt_of_le_of_lt hcode (by decide)

theorem isWordChar_toUpper {c : Char} (h : isWordChar c = true) : isWordChar c.toUpper = true := by
  have hall : ∀ n < 128, isWordChar (Char.ofNat n) = true →
      isWordChar (Char.ofNat n).toUpper = true := by decide +kernel
  have hascii : isWordChar c = true → isWordChar c.toUpper = true :=
    Text.forall_ascii (P := fun c => isWordChar c = true → isWordChar c.toUpper = true) hall
      (ascii_of_isWordChar h)
  exact hascii h

theorem isWordChar_of_mem_joinWords {literal : List Char} {c : Char} (h : c ∈ joinWords literal) :
    isWordChar c = true := by
  obtain ⟨part, hpart, hc⟩ := List.mem_flatten.mp h
  obtain ⟨run, hrun, rfl⟩ := List.mem_map.mp hpart
  have hword : ∀ c ∈ run, isWordChar c = true :=
    fun c hc => (Text.forall_of_mem_runs hrun c hc).2
  exact Text.forall_mem_capitalize (fun _ => ascii_of_isWordChar) (fun _ => isWordChar_toUpper)
    hword c hc

/-- Whether a text is a word: a letter of ASCII with letters and digits behind it. -/
def isWord : List Char → Bool
  | [] => false
  | c :: cs => Text.isAsciiLetter c && cs.all isWordChar

theorem all_isWordChar {cs : List Char} (h : isWord cs = true) : cs.all isWordChar = true := by
  cases cs with
  | nil => rfl
  | cons c cs =>
    simp only [isWord, Bool.and_eq_true] at h
    simp [isWordChar, h]

theorem isWord_append {cs ds : List Char} (h : isWord cs = true) (hds : ds.all isWordChar = true) :
    isWord (cs ++ ds) = true := by
  cases cs with
  | nil => cases h
  | cons c cs =>
    simp only [isWord, Bool.and_eq_true] at h
    simp [isWord, h, List.all_append, hds]

/-- **The name of a value** is special, or it consists of the words of the literal, behind `Value` if
they start with a digit. -/
theorem valueName_cases {literal name : String} (h : valueName literal = .ok name) :
    (literal, name) ∈ specialValues ∨ literal ∉ specialValues.map (·.1) ∧
      ∃ c cs, joinWords literal.toList = c :: cs ∧
        name.toList = if Text.isAsciiDigit c then "Value".toList ++ c :: cs else c :: cs := by
  unfold valueName at h
  split at h
  · next special hlookup =>
    obtain rfl := Except.ok.inj h
    exact .inl (mem_of_lookup hlookup)
  · next hplain =>
    split at h
    · cases h
    · next c cs hjoined =>
      obtain rfl := Except.ok.inj h
      refine .inr ⟨lookup_eq_none_iff_not_mem.mp hplain, c, cs, hjoined, ?_⟩
      split
      · simp only [String.toList_append, String.toList_ofList]
      · rw [String.toList_ofList]

/-- **The name of a value** is a word. -/
theorem isWord_of_valueName {literal name : String} (h : valueName literal = .ok name) :
    isWord name.toList = true := by
  have hspecial : ∀ p ∈ specialValues, isWord p.2.toList = true := by decide
  rcases valueName_cases h with hmem | ⟨-, c, cs, hjoined, hname⟩
  · exact hspecial _ hmem
  · have hword : (c :: cs).all isWordChar = true := by
      rw [← hjoined, List.all_eq_true]
      exact fun d hd => isWordChar_of_mem_joinWords hd
    rw [hname]
    split
    · exact isWord_append (by decide) hword
    · next hdigit => simpa [isWordChar, isWord, hdigit] using hword

end ApiSurface.Identifier
