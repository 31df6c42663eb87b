import ApiSurface.Proofs.Identifier.ValueName
import Mathlib

/-!
# Capital words

Names of enum values are in a normal form: they are capital words, and a capital word is its own name.
No reserved word is a capital word, so a name needs no `@` in front.
-/

namespace ApiSurface.Identifier

/-- Whether a text is a capital word: a capital letter of ASCII with letters and digits behind it. -/
def isCapitalWord : List Char → Bool
  | [] => false
  | c :: cs => c.isUpper && cs.all Char.isAlphanum

/-- The letters and digits of a literal, raised where a word starts: in front, and behind every other
character.  The flag says whether a word starts in front. -/
def raised : (starts : Bool) → List Char → List Char
  | _, [] => []
  | starts, c :: cs =>
    if c.isAlphanum then (if starts then c.toUpper else c) :: raised false cs
    else raised true cs

/-- **The name of a literal.**  Unless it is special, it consists of the letters and digits of the
literal, behind `Value` if it would start with a digit. -/
inductive IsNameOf (literal name : String) : Prop
  | special (h : (literal, name) ∈ specialValues)
  | word {c : Char} {cs : List Char} (hplain : literal ∉ specialValues.map (·.1))
    (hraised : raised true literal.toList = c :: cs) (hletter : c.isDigit = false)
    (hname : name.toList = c :: cs)
  | numeral {c : Char} {cs : List Char} (hplain : literal ∉ specialValues.map (·.1))
    (hraised : raised true literal.toList = c :: cs) (hdigit : c.isDigit = true)
    (hname : name.toList = "Value".toList ++ c :: cs)

/-! ### Letters and digits of ASCII -/

theorem isAsciiDigit_eq_isDigit (c : Char) : Text.isAsciiDigit c = c.isDigit := rfl

theorem isAsciiLetter_eq_isAlpha (c : Char) : Text.isAsciiLetter c = c.isAlpha := by
  rw [Char.isAlpha, Char.isUpper, Bool.decide_and]
  rfl

theorem isWordChar_eq_isAlphanum (c : Char) : isWordChar c = c.isAlphanum := by
  rw [isWordChar, isAsciiDigit_eq_isDigit, isAsciiLetter_eq_isAlpha, Bool.or_comm]
  rfl

theorem isUpper_iff {c : Char} : c.isUpper = true ↔ c.isAlpha = true ∧ c.isLower = false := by
  have hnot : c.isUpper = true → c.isLower = false := by
    simpa using Char.not_isLower_of_isUpper
  rw [Char.isAlpha, Bool.or_eq_true]
  constructor
  · intro h
    exact ⟨.inl h, hnot h⟩
  · rintro ⟨h | h, hlower⟩
    · exact h
    · rw [h] at hlower
      cases hlower

theorem isDigit_of_isUpper {c : Char} (h : c.isUpper = true) : c.isDigit = false := by
  have hfirst : 'A' ≤ c := (of_decide_eq_true h).1
  have hlast : ¬ c ≤ '9' := fun hle => absurd (Char.le_trans hfirst hle) (by decide)
  simp [← isAsciiDigit_eq_isDigit, Text.isAsciiDigit, hlast]

theorem isCapitalWord_iff {cs : List Char} :
    isCapitalWord cs = true ↔ isWord cs = true ∧ ∀ c ∈ cs.head?, c.isLower = false := by
  have hwordChar : isWordChar = Char.isAlphanum := funext isWordChar_eq_isAlphanum
  cases cs with
  | nil => simp [isCapitalWord, isWord]
  | cons c cs =>
    simp only [isCapitalWord, isWord, Bool.and_eq_true, isUpper_iff, isAsciiLetter_eq_isAlpha,
      hwordChar, List.head?_cons, Option.mem_some_iff, forall_eq']
    exact and_right_comm

/-- A literal has a name if it has a letter or digit: the special ones have letters, or a zero. -/
theorem isNameable_iff {literal : String} :
    IsNameable literal ↔ ∃ c ∈ literal.toList, c.isAlphanum = true := by
  have hspecial : ∀ special ∈ specialValues.map (·.1),
      special.toList.any Char.isAlphanum = true := by decide
  simp only [IsNameable, isWordChar_eq_isAlphanum]
  refine or_iff_left_of_imp fun hmem => ?_
  exact List.any_eq_true.mp (hspecial literal hmem)

/-! ### One pass over a literal -/

theorem flatten_capitalize_consRun (run : List Char) (later : List (List Char)) :
    ((Text.consRun run later).map Text.capitalize).flatten =
      Text.capitalize run ++ (later.map Text.capitalize).flatten := by
  cases run <;> rfl

/-- What the pass makes of a literal: its first stretch, raised if a word starts in front, and the
later ones, each raised. -/
theorem raised_eq (cs : List Char) :
    raised true cs = Text.capitalize (Text.runsFrom isWordChar cs).1 ++
        ((Text.runsFrom isWordChar cs).2.map Text.capitalize).flatten ∧
      raised false cs = (Text.runsFrom isWordChar cs).1 ++
        ((Text.runsFrom isWordChar cs).2.map Text.capitalize).flatten := by
  -- both states of the flag at once: a letter leads into a word, and a gap leads out of it
  induction cs with
  | nil => exact ⟨rfl, rfl⟩
  | cons c cs ih =>
    obtain ⟨hstart, hinside⟩ := ih
    rw [Text.runsFrom, raised, raised, ← isWordChar_eq_isAlphanum]
    by_cases hc : isWordChar c = true
    · simp only [hc, if_true, Bool.false_eq_true, if_false, hinside,
        Text.capitalize_ascii (ascii_of_isWordChar hc), List.cons_append, and_self]
    · simp only [hc, if_false, hstart, flatten_capitalize_consRun, Text.capitalize,
        List.nil_append, and_self, Bool.false_eq_true]

/-- **The words of a literal**, joined, are made in one pass. -/
theorem joinWords_eq (cs : List Char) : joinWords cs = raised true cs := by
  rw [joinWords, Text.runs, flatten_capitalize_consRun, (raised_eq cs).1]

/-- What is made in one pass starts with a raised character. -/
theorem exists_toUpper_of_raised {literal cs : List Char} {c : Char}
    (h : raised true literal = c :: cs) : ∃ d : Char, c = d.toUpper := by
  induction literal with
  | nil => cases h
  | cons d ds ih =>
    rw [raised] at h
    split at h
    · exact ⟨d, (List.cons.inj h).1.symm⟩
    · exact ih h

theorem raised_of_all {cs : List Char} (h : ∀ c ∈ cs, c.isAlphanum = true) :
    raised false cs = cs := by
  induction cs with
  | nil => rfl
  | cons c cs ih =>
    obtain ⟨hc, hcs⟩ := List.forall_mem_cons.mp h
    rw [raised, if_pos hc, ih hcs]
    rfl

/-! ### Names are capital words -/

/-- **A name is made by the rules.** -/
theorem isNameOf_of_valueName {literal name : String} (h : valueName literal = .ok name) :
    IsNameOf literal name := by
  rcases valueName_cases h with hmem | ⟨hplain, c, cs, hjoined, hname⟩
  · exact .special hmem
  · rw [joinWords_eq] at hjoined
    rw [isAsciiDigit_eq_isDigit] at hname
    cases hdigit : c.isDigit with
    | true => exact .numeral hplain hjoined hdigit (by rw [hname, if_pos hdigit])
    | false => exact .word hplain hjoined hdigit (by rw [hname, hdigit, if_neg Bool.false_ne_true])

/-- **A name starts with no small letter.** -/
theorem IsNameOf.isLower {literal name : String} (h : IsNameOf literal name) :
    ∀ c ∈ name.toList.head?, c.isLower = false := by
  cases h with
  | special hmem =>
    have hspecial : ∀ p ∈ specialValues, isCapitalWord p.2.toList = true := by decide
    exact (isCapitalWord_iff.mp (hspecial _ hmem)).2
  | word _ hraised _ hname =>
    obtain ⟨d, rfl⟩ := exists_toUpper_of_raised hraised
    rw [hname]
    simp
  | numeral _ _ _ hname =>
    rw [hname]
    simp

/-- **A name is a capital word.** -/
theorem isCapitalWord_of_valueName {literal name : String} (h : valueName literal = .ok name) :
    isCapitalWord name.toList = true :=
  isCapitalWord_iff.mpr ⟨isWord_of_valueName h, (isNameOf_of_valueName h).isLower⟩

theorem not_mem_reservedWords {name : String} (h : isCapitalWord name.toList = true) :
    name ∉ reservedWords := by
  have hreserved : ∀ word ∈ reservedWords, isCapitalWord word.toList = false := by decide +kernel
  intro hmem
  rw [hreserved name hmem] at h
  cases h

/-! ### Capital words are names -/

/-- **A capital word is its own name.**  It is no special literal, it has no gaps, and raising its
front changes nothing. -/
theorem valueName_of_isCapitalWord {name : String} (h : isCapitalWord name.toList = true) :
    valueName name = .ok name := by
  have hlookup : specialValues.lookup name = none := by
    have hspecial : ∀ special ∈ specialValues.map (·.1),
        isCapitalWord special.toList = false := by decide
    rw [lookup_eq_none_iff_not_mem]
    intro hmem
    rw [hspecial name hmem] at h
    cases h
  cases hname : name.toList with
  | nil =>
    rw [hname] at h
    cases h
  | cons c cs =>
    rw [hname, isCapitalWord, Bool.and_eq_true] at h
    obtain ⟨hupper, hrest⟩ := h
    have hfront : c.isAlphanum = true := by
      simp [Char.isAlphanum, (isUpper_iff.mp hupper).1]
    have hraised : c.toUpper = c :=
      Char.toUpper_eq_of_not_isLower (Char.not_isLower_of_isUpper hupper)
    have hjoined : joinWords (c :: cs) = c :: cs := by
      rw [joinWords_eq, raised, if_pos hfront, if_pos rfl, hraised,
        raised_of_all (List.all_eq_true.mp hrest)]
    have hself : String.ofList (c :: cs) = name := by rw [← hname, String.ofList_toList]
    rw [valueName, hlookup, hname, hjoined]
    simp [isAsciiDigit_eq_isDigit, isDigit_of_isUpper hupper, hself]

/-- **The names of enum values** are in normal form.

* A literal has no name if and only if it has no letter and no digit of ASCII.
* Every other literal has a name, which is made by the rules.  It is a capital word, no reserved word,
  and its own name.
* The literals that are their own names are the capital words. -/
theorem valueName_normalForm (literal : String) :
    (∀ cause, valueName literal = .error cause ↔
      (∀ c ∈ literal.toList, c.isAlphanum = false) ∧ cause = .namelessLiteral literal ∧
        cause.category = .emptyName) ∧
    ((∃ c ∈ literal.toList, c.isAlphanum = true) → ∃ name, valueName literal = .ok name ∧
      IsNameOf literal name ∧ isCapitalWord name.toList = true ∧ name ∉ reservedWords ∧
        valueName name = .ok name) ∧
    (valueName literal = .ok literal ↔ isCapitalWord literal.toList = true) := by
  refine ⟨fun cause => ?_, fun hsome => ?_, isCapitalWord_of_valueName, valueName_of_isCapitalWord⟩
  · have hcategory : cause = .namelessLiteral literal → cause.category = .emptyName := by
      rintro rfl
      rfl
    rw [valueName_eq_error_iff, isNameable_iff, and_iff_left_of_imp hcategory]
    simp
  · obtain ⟨name, hname⟩ := exists_valueName_iff.mpr (isNameable_iff.mpr hsome)
    have hcapital := isCapitalWord_of_valueName hname
    exact ⟨name, hname, isNameOf_of_valueName hname, hcapital, not_mem_reservedWords hcapital,
      valueName_of_isCapitalWord hcapital⟩

/-- A literal that starts with a digit and has letters beyond ASCII, which stand between words. -/
theorem valueName_normalForm_summer :
    (∃ c ∈ "2nd-été".toList, c.isAlphanum = true) ∧ valueName "2nd-été" = .ok "Value2ndT" ∧
      valueName "Value2ndT" = .ok "Value2ndT" := by
  have hsome : ∃ c ∈ "2nd-été".toList, c.isAlphanum = true := ⟨'2', by decide, rfl⟩
  have hname : valueName "2nd-été" = .ok "Value2ndT" := by decide +kernel
  obtain ⟨name, hname', -, -, -, hself⟩ := (valueName_normalForm "2nd-été").2.1 hsome
  obtain rfl := Except.ok.inj (hname'.symm.trans hname)
  exact ⟨hsome, hname, hself⟩

end ApiSurface.Identifier
