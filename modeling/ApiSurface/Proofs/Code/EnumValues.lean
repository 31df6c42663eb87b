import ApiSurface.Proofs.Code.Outline
import ApiSurface.Proofs.Declaration
import ApiSurface.Proofs.Identifier.ValueName
import ApiSurface.Proofs.Text.Literal
import Mathlib.Data.List.Induction
import Mathlib.Data.List.Nodup

/-!
# The values of an enum

An enum has a value for each of its literals. The name of the value can merge many literals, so the
literal stands in an attribute above it.
-/

namespace ApiSurface

open Identifier

/-! ### The literals of an enum -/

/-- Literals that one enum can have: each has a name, and no two have the same. -/
structure Declarable (literals : List String) : Prop where
  nameable : ∀ literal ∈ literals, IsNameable literal
  distinct : (literals.map valueName).Nodup

/-- What is wrong with a literal behind some others. -/
inductive EnumFault (key : String) (before : List String) (literal : String) : Report → Prop
  /-- It has no name. -/
  | nameless (h : ¬ IsNameable literal) :
    EnumFault key before literal ⟨.namelessLiteral literal, key, ""⟩
  /-- Its name is that of an earlier one. -/
  | repeated {first name : String} (hfirst : first ∈ before) (hname : valueName first = .ok name)
    (h : valueName literal = .ok name) :
    EnumFault key before literal ⟨.repeatedValue first literal name, key, ""⟩

theorem declarable_nil : Declarable [] := ⟨by simp, List.nodup_nil⟩

theorem declarable_concat_iff {before : List String} {literal : String} :
    Declarable (before ++ [literal]) ↔
      Declarable before ∧ IsNameable literal ∧ valueName literal ∉ before.map valueName := by
  have hnodup : ((before ++ [literal]).map valueName).Nodup ↔
      (before.map valueName).Nodup ∧ valueName literal ∉ before.map valueName := by
    rw [List.map_append, List.map_singleton, List.nodup_append_comm, List.singleton_append,
      List.nodup_cons]
    exact and_comm
  constructor
  · intro h
    obtain ⟨hdistinct, hnew⟩ := hnodup.mp h.distinct
    obtain ⟨hbefore, hlast⟩ := List.forall_mem_append.mp h.nameable
    exact ⟨⟨hbefore, hdistinct⟩, hlast literal List.mem_cons_self, hnew⟩
  · rintro ⟨h, hlast, hnew⟩
    refine ⟨List.forall_mem_append.mpr ⟨h.nameable, ?_⟩, hnodup.mpr ⟨h.distinct, hnew⟩⟩
    simpa using hlast

theorem Declarable.of_append {before after : List String} (h : Declarable (before ++ after)) :
    Declarable before := by
  constructor
  · exact (List.forall_mem_append.mp h.nameable).1
  · have hdistinct := h.distinct
    rw [List.map_append] at hdistinct
    exact List.Nodup.of_append_left hdistinct

theorem Declarable.concat_or_fault (key : String) {before : List String} (h : Declarable before)
    (literal : String) :
    Declarable (before ++ [literal]) ∨ ∃ report, EnumFault key before literal report := by
  rw [declarable_concat_iff]
  by_cases hnameable : IsNameable literal
  · by_cases hnew : valueName literal ∈ before.map valueName
    · obtain ⟨name, hname⟩ := exists_valueName_iff.mpr hnameable
      obtain ⟨first, hfirst, hsame⟩ := List.mem_map.mp hnew
      exact .inr ⟨_, .repeated hfirst (hsame.trans hname) hname⟩
    · exact .inl ⟨h, hnameable, hnew⟩
  · exact .inr ⟨_, .nameless hnameable⟩

/-- **An enum can have some literals**, or there is a first one with which something is wrong. -/
theorem declarable_or_exists_fault (key : String) (literals : List String) :
    Declarable literals ∨ ∃ before literal after report, literals = before ++ literal :: after ∧
      Declarable before ∧ EnumFault key before literal report := by
  induction literals using List.reverseRecOn with
  | nil => exact .inl declarable_nil
  | append_singleton literals last ih =>
    rcases ih with h | ⟨before, literal, after, report, rfl, hbefore, hfault⟩
    · refine (h.concat_or_fault key last).imp_right ?_
      rintro ⟨report, hfault⟩
      exact ⟨literals, last, [], report, rfl, h, hfault⟩
    · refine .inr ⟨before, literal, after ++ [last], report, ?_, hbefore, hfault⟩
      rw [List.append_assoc, List.cons_append]

/-! ### Declaring the values -/

/-- A table that lists the names of some literals, each with its literal. -/
def Takes (taken : List (String × String)) (before : List String) : Prop :=
  ∀ name first, taken.lookup name = some first ↔ first ∈ before ∧ valueName first = .ok name

variable {key : String} {taken : List (String × String)} {before : List String} {literal : String}

theorem takes_nil : Takes [] [] := by
  intro name first
  simp

theorem Takes.cons {name : String} (htaken : Takes taken before)
    (hother : ∀ first ∈ before, valueName first ≠ .ok name) (hname : valueName literal = .ok name) :
    Takes ((name, literal) :: taken) (before ++ [literal]) := by
  intro name' first
  rw [List.mem_append, List.mem_singleton]
  by_cases hsame : name' = name
  · subst hsame
    rw [List.lookup_cons_self]
    constructor
    · intro heq
      obtain rfl := Option.some.inj heq
      exact ⟨.inr rfl, hname⟩
    · rintro ⟨hmem | rfl, hfirst⟩
      · exact absurd hfirst (hother first hmem)
      · rfl
  · have hbeq : (name' == name) = false := beq_false_of_ne hsame
    have hlookup : ((name, literal) :: taken).lookup name' = taken.lookup name' := by
      rw [List.lookup_cons, hbeq]
    rw [hlookup, htaken name' first]
    constructor
    · exact fun hfirst => ⟨.inl hfirst.1, hfirst.2⟩
    · rintro ⟨hmem | rfl, hfirst⟩
      · exact ⟨hmem, hfirst⟩
      · rw [hname] at hfirst
        exact absurd (Except.ok.inj hfirst).symm hsame

/-- **A literal with a new name** has a value, and the table lists it from then on. -/
theorem enumValuesFrom_new (htaken : Takes taken before) (h : Declarable (before ++ [literal])) :
    ∃ name, Takes ((name, literal) :: taken) (before ++ [literal]) ∧ ∀ after,
      enumValuesFrom key taken (literal :: after) =
        (enumValuesFrom key ((name, literal) :: taken) after).map
          (enumValueLines literal name :: ·) := by
  obtain ⟨-, hnameable, hnew⟩ := declarable_concat_iff.mp h
  obtain ⟨name, hname⟩ := exists_valueName_iff.mpr hnameable
  have hother : ∀ first ∈ before, valueName first ≠ .ok name := by
    intro first hfirst hsame
    exact hnew (List.mem_map.mpr ⟨first, hfirst, hsame.trans hname.symm⟩)
  have hlookup : taken.lookup name = none := by
    rw [Option.eq_none_iff_forall_ne_some]
    intro first hfirst
    obtain ⟨hmem, hsame⟩ := (htaken name first).mp hfirst
    exact hother first hmem hsame
  refine ⟨name, htaken.cons hother hname, fun after => ?_⟩
  rw [enumValuesFrom]
  simp only [hname, hlookup]
  cases enumValuesFrom key ((name, literal) :: taken) after <;> rfl

/-- **A run of literals** that an enum can have goes through, whatever is behind them. -/
theorem enumValuesFrom_run (key : String) (htaken : Takes taken before) {literals : List String}
    (h : Declarable (before ++ literals)) :
    ∃ taken' blocks, Takes taken' (before ++ literals) ∧ ∀ after,
      enumValuesFrom key taken (literals ++ after) =
        (enumValuesFrom key taken' after).map (blocks ++ ·) := by
  induction literals generalizing taken before with
  | nil =>
    refine ⟨taken, [], by rwa [List.append_nil], fun after => ?_⟩
    rw [List.nil_append]
    cases enumValuesFrom key taken after <;> rfl
  | cons literal literals ih =>
    rw [List.append_cons] at h ⊢
    obtain ⟨name, htaken', hnew⟩ := enumValuesFrom_new htaken h.of_append
    obtain ⟨taken'', blocks, htaken'', hrun⟩ := ih htaken' h
    refine ⟨taken'', enumValueLines literal name :: blocks, htaken'', fun after => ?_⟩
    rw [List.cons_append, hnew, hrun]
    cases enumValuesFrom key taken'' after <;> rfl

/-- **A literal with which something is wrong** ends the run. -/
theorem enumValuesFrom_fault (htaken : Takes taken before) {report : Report}
    (h : EnumFault key before literal report) (after : List String) :
    enumValuesFrom key taken (literal :: after) = .error report := by
  cases h with
  | nameless hno =>
    have hname := valueName_eq_error_iff.mpr ⟨hno, rfl⟩
    rw [enumValuesFrom]
    simp only [hname]
  | @repeated first name hfirst hsame hname =>
    have hlookup := (htaken name first).mpr ⟨hfirst, hsame⟩
    rw [enumValuesFrom]
    simp only [hname, hlookup]

/-- **An enum can be declared** if it can have its literals. -/
theorem Declarable.exists_enumDeclaration {literals : List String} (h : Declarable literals)
    (indent key : String) : ∃ d, enumDeclaration indent key literals = .ok d := by
  obtain ⟨taken, blocks, -, hrun⟩ := enumValuesFrom_run key takes_nil h
  have hvalues := hrun []
  rw [List.append_nil] at hvalues
  refine ⟨_, bind_eq_ok_iff.mpr ⟨_, hvalues, rfl⟩⟩

/-- **The first literal with which something is wrong** is reported. -/
theorem EnumFault.enumDeclaration_error {report : Report} (h : EnumFault key before literal report)
    (hbefore : Declarable before) (indent : String) (after : List String) :
    enumDeclaration indent key (before ++ literal :: after) = .error report := by
  obtain ⟨taken, blocks, htaken, hrun⟩ := enumValuesFrom_run key takes_nil hbefore
  refine bind_eq_error_iff.mpr (.inl ?_)
  rw [hrun, enumValuesFrom_fault htaken h]
  rfl

/-- **A report** is about the first literal with which something is wrong. -/
theorem exists_enumFault {indent : String} {literals : List String} {report : Report}
    (h : enumDeclaration indent key literals = .error report) :
    ∃ before literal after, literals = before ++ literal :: after ∧ Declarable before ∧
      EnumFault key before literal report := by
  rcases declarable_or_exists_fault key literals with
    hall | ⟨before, literal, after, report', rfl, hbefore, hfault⟩
  · obtain ⟨d, hd⟩ := hall.exists_enumDeclaration indent key
    rw [hd] at h
    cases h
  · have hreported := hfault.enumDeclaration_error hbefore indent after
    cases hreported.symm.trans h
    exact ⟨before, literal, after, rfl, hbefore, hfault⟩

/-! ### Reading the values back -/

/-- Reads a line that consists of an indentation, a word and a comma. -/
def readName? (indent line : List Char) : Option (List Char) :=
  (line.dropPrefix? indent).bind fun cs =>
    let word := cs.takeWhile isWordChar
    if isWord word = true ∧ cs.dropWhile isWordChar = [','] then some word else none

/-- Reads the two lines of a value: the attribute with its literal, and its name. -/
def readValue? (indent first second : String) : Option (String × String) :=
  (Text.readLiteralIn? (indent.toList ++ "[EnumMember(Value = \"".toList) ")]".toList
      first.toList).bind fun literal =>
    (readName? indent.toList second.toList).map fun name =>
      (String.ofList literal, String.ofList name)

/-- Reads the lines between the braces of an enum. Nothing may stand there but values and empty
lines. -/
def readValues? (indent : String) : List String → Option (List (String × String))
  | [] => some []
  | [line] => if line = "" then some [] else none
  | line :: next :: lines =>
    if line = "" then readValues? indent (next :: lines)
    else
      (readValue? indent line next).bind fun value =>
        (readValues? indent lines).map (value :: ·)

theorem readName?_word (indent : List Char) {word : List Char} (h : isWord word = true) :
    readName? indent (indent ++ (word ++ [','])) = some word := by
  have hall : ∀ c ∈ word, isWordChar c = true := List.all_eq_true.mp (all_isWordChar h)
  have htake : (word ++ [',']).takeWhile isWordChar = word := by
    rw [List.takeWhile_append_of_pos hall]
    simp [isWordChar, Text.isAsciiDigit, Text.isAsciiLetter]
  have hdrop : (word ++ [',']).dropWhile isWordChar = [','] := by
    rw [List.dropWhile_append_of_pos hall]
    rfl
  unfold readName?
  rw [List.dropPrefix?_append_of_beq _ (BEq.refl indent), Option.bind_some]
  simp only [htake, hdrop, h, and_self, if_true]

theorem readValues?_blank (indent : String) (lines : List String) :
    readValues? indent ("" :: lines) = readValues? indent lines := by
  cases lines with
  | nil => rfl
  | cons line lines => rw [readValues?, if_pos rfl]

/-- **The two lines of a value** read as its literal and its name. -/
theorem readValue?_lines {name : String} (hname : valueName literal = .ok name) (indent : String) :
    ∃ first second, enumValueLines literal name = [first, second] ∧ first ≠ "" ∧
      readValue? indent (Declaration.indentLine indent first)
        (Declaration.indentLine indent second) = some (literal, name) := by
  have hfirst : "[EnumMember(Value = \"" ++ Text.escapeLiteral literal ++ "\")]" ≠ "" :=
    ne_of_apply_ne String.toList (by simp)
  have hsecond : name ++ "," ≠ "" := ne_of_apply_ne String.toList (by simp)
  refine ⟨_, _, rfl, hfirst, ?_⟩
  have hliteral : Text.readLiteral? ((Text.escapeLiteral literal).toList ++ '"' :: ")]".toList) =
      some (literal.toList, ")]".toList) := Text.readLiteral?_escapeLiteral literal _
  have hword : (name ++ ",").toList = name.toList ++ [','] := by
    rw [String.toList_append]
    rfl
  unfold readValue?
  rw [Declaration.toList_indentLine indent hfirst, Text.toList_attribute, ← List.append_assoc,
    Text.readLiteralIn?_eq_some_iff.mpr hliteral, Option.bind_some,
    Declaration.toList_indentLine indent hsecond, hword,
    readName?_word _ (isWord_of_valueName hname), Option.map_some, String.ofList_toList,
    String.ofList_toList]

theorem readValues?_value {name : String} (hname : valueName literal = .ok name) (indent : String)
    (lines : List String) :
    readValues? indent
        ((enumValueLines literal name).map (Declaration.indentLine indent) ++ lines) =
      (readValues? indent lines).map ((literal, name) :: ·) := by
  obtain ⟨first, second, hlines, hfirst, hread⟩ := readValue?_lines hname indent
  rw [hlines, List.map_cons, List.map_singleton, List.cons_append, List.singleton_append,
    readValues?, if_neg (Declaration.indentLine_ne_empty indent hfirst), hread]
  rfl

/-- **The values of an enum** read as its literals with their names. -/
theorem readValues?_separated {literals names : List String}
    (h : List.Forall₂ (fun literal name => valueName literal = .ok name) literals names)
    (indent : String) :
    readValues? indent ((Declaration.separated (List.zipWith enumValueLines literals names)).map
      (Declaration.indentLine indent)) = some (literals.zip names) := by
  induction h with
  | nil => rfl
  | @cons literal name literals names hname _ ih =>
    rw [List.zipWith_cons_cons, List.zip_cons_cons, Declaration.separated_cons, List.map_append,
      readValues?_value hname]
    split
    · next hnil =>
      rw [hnil] at ih
      have hrest : [] = literals.zip names := Option.some.inj ih
      rw [← hrest]
      rfl
    · rw [List.map_cons, Declaration.indentLine_empty, readValues?_blank, ih]
      rfl

/-- No line of a value goes on in the next line of a file. -/
theorem unbroken_of_mem_enumValueLines {name : String} (hname : valueName literal = .ok name)
    {line : String} (hline : line ∈ enumValueLines literal name) {c : Char}
    (hc : c ∈ line.toList) : ¬ (c = '\n' ∨ c = '\r') := by
  intro hbreak
  have hescaped : c ∉ (Text.escapeLiteral literal).toList :=
    Text.not_mem_escapeLiteral literal (by rcases hbreak with rfl | rfl <;> decide)
  have hword : c ∉ name.toList := by
    intro hmem
    have hwordChar := List.all_eq_true.mp (all_isWordChar (isWord_of_valueName hname)) c hmem
    rcases hbreak with rfl | rfl <;> exact absurd hwordChar (by decide)
  have hfixed : c ∉ "[EnumMember(Value = \"".toList ∧ c ∉ "\")]".toList ∧ c ∉ ",".toList := by
    rcases hbreak with rfl | rfl <;> decide
  unfold enumValueLines at hline
  rcases List.mem_cons.mp hline with rfl | hline
  · simp only [String.toList_append, List.mem_append] at hc
    rcases hc with (hc | hc) | hc
    · exact hfixed.1 hc
    · exact hescaped hc
    · exact hfixed.2.1 hc
  · obtain rfl := List.mem_singleton.mp hline
    rw [String.toList_append, List.mem_append] at hc
    rcases hc with hc | hc
    · exact hword hc
    · exact hfixed.2.2 hc

/-- Between the braces a line ends within itself only where the indentation does. -/
theorem mem_indent_of_mem_values {literals names : List String}
    (h : List.Forall₂ (fun literal name => valueName literal = .ok name) literals names)
    {indent line : String} (hline : line ∈ (Declaration.separated
      (List.zipWith enumValueLines literals names)).map (Declaration.indentLine indent))
    {c : Char} (hc : c ∈ line.toList) (hbreak : c = '\n' ∨ c = '\r') : c ∈ indent.toList := by
  obtain ⟨written, hwritten, rfl⟩ := List.mem_map.mp hline
  by_cases hempty : written = ""
  · subst hempty
    cases hc
  · rw [Declaration.toList_indentLine indent hempty, List.mem_append] at hc
    refine hc.resolve_right fun hc => ?_
    obtain ⟨block, hblock, hmem⟩ :=
      (Declaration.exists_block_of_mem_separated hwritten).resolve_left hempty
    rw [← List.map_uncurry_zip_eq_zipWith] at hblock
    obtain ⟨⟨literal, name⟩, hpair, rfl⟩ := List.mem_map.mp hblock
    have hname := (List.forall₂_iff_zip.mp h).2 hpair
    exact unbroken_of_mem_enumValueLines hname hmem hc hbreak

/-! ### Enums -/

/-- **Enums are lossless, and no two of their values collide.**

* An enum is declared if and only if each of its literals has a name, by a letter or digit of ASCII
  or as a special one, and no two literals have the same name.
* What is between the braces then reads as the literals, in order, each with its name.  No line is
  broken by a literal.
* Otherwise the first literal with which something is wrong is reported under the name of the enum:
  it has no name, or its name is that of an earlier one. -/
theorem enumDeclaration_lossless (indent key : String) (literals : List String) :
    ((∃ d, enumDeclaration indent key literals = .ok d) ↔ Declarable literals) ∧
    (∀ d, enumDeclaration indent key literals = .ok d → ∃ names body,
      d = ⟨key, .enumType, ["public enum " ++ key, "\x7b"] ++ body ++ ["\x7d"]⟩ ∧
      List.Forall₂ (fun literal name => valueName literal = .ok name) literals names ∧
      readValues? indent body = some (literals.zip names) ∧
      ∀ line ∈ body, ∀ c ∈ line.toList, c = '\n' ∨ c = '\r' → c ∈ indent.toList) ∧
    ∀ report, enumDeclaration indent key literals = .error report ↔
      ∃ before literal after, literals = before ++ literal :: after ∧ Declarable before ∧
        EnumFault key before literal report := by
  refine ⟨⟨?_, fun h => h.exists_enumDeclaration indent key⟩, ?_,
    fun report => ⟨exists_enumFault, ?_⟩⟩
  · rintro ⟨d, hd⟩
    refine (declarable_or_exists_fault key literals).resolve_right ?_
    rintro ⟨before, literal, after, report, rfl, hbefore, hfault⟩
    rw [hfault.enumDeclaration_error hbefore] at hd
    cases hd
  · intro d hd
    obtain ⟨names, hnames, rfl⟩ := enumDeclaration_ok hd
    refine ⟨names, _, ?_, hnames, readValues?_separated hnames indent, ?_⟩
    · rfl
    · intro line hline c hc hbreak
      exact mem_indent_of_mem_values hnames hline hc hbreak
  · rintro ⟨before, literal, after, rfl, hbefore, hfault⟩
    exact hfault.enumDeclaration_error hbefore indent after

/-- A literal of which only a letter is left has the name of that letter. -/
example : enumDeclaration "" "Key" ["+", "a\n", "-A"] = .error ⟨.namelessLiteral "+", "Key", ""⟩ ∧
    enumDeclaration "" "Key" ["a\n", "-A"] =
      .error ⟨.repeatedValue "a\n" "-A" "A", "Key", ""⟩ := by decide

end ApiSurface
