import ApiSurface.Proofs.CommandLine.Arguments
import Mathlib.Data.Nat.Digits.Defs

/-!
# Groups of arguments

Arguments come in groups: an option with its value, a switch, or the name of an input file.  The groups
may stand in any order, and a value may look like an option, since it is never looked at by itself.
-/

namespace ApiSurface

namespace CommandLine

/-! ### Groups -/

/-- Decimal digits that ask for a width: few enough to be read, and for a number that is large
enough. -/
structure WidthNumeral where
  /-- The digits, the most significant first; there may be zeros in front. -/
  digits : List (Fin 10)
  short : digits.length ≤ Numeral.maxDigits
  wide : minWidth ≤ Nat.ofDigits 10 (digits.reverse.map Fin.val)

namespace WidthNumeral

/-- The digits as they are written. -/
def text (w : WidthNumeral) : String := String.ofList (w.digits.map fun (d : Fin 10) => Nat.digitChar d.val)

/-- The number that they stand for. -/
def value (w : WidthNumeral) : Nat := Nat.ofDigits 10 (w.digits.reverse.map Fin.val)

end WidthNumeral

/-- **A group of arguments.** -/
inductive Group where
  | mode (m : Mode)
  /-- A folder, behind the short or the long name of its option. -/
  | output (short : Bool) (folder : String)
  | width (numeral : WidthNumeral)
  | namespaceName (name : String)
  | template (file : String)
  | strictUnions
  | verbose
  /-- The name of an input file, which does not look like an option. -/
  | input (arg : String) (h : arg.startsWith "-" = false)

namespace Group

/-- The arguments of a group. -/
def words : Group → List String
  | .mode m => ["--mode", m.label]
  | .output short folder => [if short then "-o" else "--output", folder]
  | .width numeral => ["--width", numeral.text]
  | .namespaceName name => ["--namespace", name]
  | .template file => ["--template", file]
  | .strictUnions => ["--strict-unions"]
  | .verbose => ["--verbose"]
  | .input arg _ => [arg]

/-- The options with what a group sets. -/
def apply (o : Options) : Group → Options
  | .mode m => { o with mode := m }
  | .output _ folder => { o with outputFolder := some folder }
  | .width numeral => { o with width := some numeral.value }
  | .namespaceName name => { o with namespaceName := some name }
  | .template file => { o with templateFile := some file }
  | .strictUnions => { o with strictUnions := true }
  | .verbose => { o with verbose := true }
  | .input arg _ => { o with inputFile := some arg }

/-! What a group sets, if it is of a kind. -/

def mode? : Group → Option Mode
  | .mode m => some m
  | _ => none

def output? : Group → Option String
  | .output _ folder => some folder
  | _ => none

def width? : Group → Option Nat
  | .width numeral => some numeral.value
  | _ => none

def namespaceName? : Group → Option String
  | .namespaceName name => some name
  | _ => none

def template? : Group → Option String
  | .template file => some file
  | _ => none

def input? : Group → Option String
  | .input arg _ => some arg
  | _ => none

end Group

/-- What the last group of a kind sets. -/
def last {α : Type} (kind : Group → Option α) (gs : List Group) : Option α :=
  (gs.filterMap kind).getLast?

/-- **The options that groups ask for**: of each kind the last group counts. -/
structure Chosen (gs : List Group) (o : Options) : Prop where
  mode : o.mode = (last Group.mode? gs).getD .api
  inputFile : o.inputFile = last Group.input? gs
  outputFolder : o.outputFolder = last Group.output? gs
  width : o.width = last Group.width? gs
  strictUnions : o.strictUnions = true ↔ .strictUnions ∈ gs
  namespaceName : o.namespaceName = last Group.namespaceName? gs
  templateFile : o.templateFile = last Group.template? gs
  verbose : o.verbose = true ↔ .verbose ∈ gs

/-! ### Numbers -/

theorem decimalValue?_digitChar (d : Fin 10) : Text.decimalValue? (Nat.digitChar d) = some d.val := by
  revert d
  decide

theorem ofValues_eq_ofDigits (values : List Nat) :
    Numeral.ofValues 10 values = Nat.ofDigits 10 values.reverse := by
  rw [Nat.ofDigits_eq_foldr, List.foldr_reverse]
  simp only [Numeral.ofValues, Nat.cast_id, Nat.mul_comm, Nat.add_comm]

/-- **Decimal digits**, if there are any and not too many, are read as the number that they stand
for. -/
theorem anyScript?_digits {ds : List (Fin 10)} (hne : ds ≠ [])
    (hshort : ds.length ≤ Numeral.maxDigits) :
    Numeral.anyScript? (String.ofList (ds.map fun (d : Fin 10) => Nat.digitChar d.val)) =
      .ok (Nat.ofDigits 10 (ds.reverse.map Fin.val)) := by
  have hvalues : ((ds.map fun (d : Fin 10) => Nat.digitChar d.val).map
      Text.decimalValue?).takeWhile (·.isSome) =
      (ds.map Fin.val).map some := by
    have hmap : (ds.map fun (d : Fin 10) => Nat.digitChar d.val).map Text.decimalValue? =
        (ds.map Fin.val).map some := by
      simp only [List.map_map, Function.comp_def, decimalValue?_digitChar]
    rw [hmap, List.takeWhile_eq_self_iff]
    simp
  unfold Numeral.anyScript?
  simp only [String.toList_ofList, hvalues, List.length_map, String.length_ofList]
  rw [if_neg (Nat.not_lt.mpr hshort), if_neg (by simp [hne])]
  simp [ofValues_eq_ofDigits, Function.comp_def]

theorem WidthNumeral.digits_ne_nil (w : WidthNumeral) : w.digits ≠ [] := by
  intro h
  have hwide := w.wide
  rw [h] at hwide
  exact absurd hwide (by decide)

variable {o o' : Options}

/-- **A width** is set to the number that its digits stand for. -/
theorem setWidth_text (o : Options) (w : WidthNumeral) :
    o.setWidth w.text = .ok { o with width := some w.value } := by
  have hne : w.text ≠ "" := by
    simpa [WidthNumeral.text] using w.digits_ne_nil
  have hdigits : ∀ c ∈ w.text.toList, Text.isDigit c = true := by
    intro c hc
    rw [WidthNumeral.text, String.toList_ofList, List.mem_map] at hc
    obtain ⟨d, -, rfl⟩ := hc
    simp [Text.isDigit, decimalValue?_digitChar]
  have hread : Numeral.anyScript? w.text = .ok w.value := anyScript?_digits w.digits_ne_nil w.short
  unfold Options.setWidth
  rw [if_neg (by simpa [hne] using hdigits), hread]
  exact if_neg (Nat.not_lt.mpr w.wide)

/-! ### One group -/

theorem setInput_eq (o : Options) {arg : String} (h : arg.startsWith "-" = false) :
    o.setInput arg = if o.inputFile.isSome
      then .error (.refused ("unexpected argument '" ++ arg ++ "'"))
      else .ok { o with inputFile := some arg } := by
  unfold Options.setInput
  exact if_neg (by simp [h])

theorem not_mem_of_startsWith {arg : String} (h : arg.startsWith "-" = false) :
    arg ∉ valueOptions ++ switches :=
  not_mem_of_setInput (o := {}) (setInput_eq {} h)

/-- **A group is read** as what it sets, unless it is one input file too many. -/
theorem reads_words (o : Options) {g : Group} (h : g.input? = none ∨ o.inputFile = none) :
    Reads o g.words (g.apply o) := by
  cases g with
  | mode m =>
    refine .value (by decide) ?_ .nil
    cases m <;> rfl
  | output short folder =>
    cases short <;> exact .value (by decide) rfl .nil
  | width numeral => exact .value (by decide) (setWidth_text o numeral) .nil
  | namespaceName name => exact .value (by decide) rfl .nil
  | template file => exact .value (by decide) rfl .nil
  | strictUnions => exact .strictUnions .nil
  | verbose => exact .verbose .nil
  | input arg harg =>
    have hnone : o.inputFile = none := h.resolve_left nofun
    exact .input ((setInput_eq o harg).trans (if_neg (by simp [hnone]))) .nil

theorem inputFile_apply (g : Group) (o : Options) :
    (g.apply o).inputFile = g.input?.or o.inputFile := by
  cases g <;> rfl

/-! ### All groups -/

/-- **Groups in any order** are read one after the other.  The first input file is taken, and the second
is refused. -/
theorem parseFrom_words (o : Options) (gs : List Group) :
    o.parseFrom (gs.flatMap Group.words) =
      match o.inputFile.toList ++ gs.filterMap Group.input? with
      | [] => .refused "missing input file"
      | [_] => .run (gs.foldl Group.apply o)
      | _ :: second :: _ => .refused ("unexpected argument '" ++ second ++ "'") := by
  induction gs generalizing o with
  | nil =>
    cases hinput : o.inputFile with
    | none => exact Ends.parseFrom_eq (.missing hinput)
    | some file => exact Ends.parseFrom_eq (.run (by rw [hinput]; rfl))
  | cons g gs ih =>
    rw [List.flatMap_cons, List.filterMap_cons, List.foldl_cons]
    cases hg : g.input? with
    | none =>
      rw [(reads_words o (.inl hg)).parseFrom_append, ih, inputFile_apply, hg, Option.none_or]
    | some arg =>
      cases hinput : o.inputFile with
      | none =>
        rw [(reads_words o (.inr hinput)).parseFrom_append, ih, inputFile_apply, hg]
        rfl
      | some first =>
        cases g with
        | input arg' harg =>
          obtain rfl := Option.some.inj hg
          refine Ends.parseFrom_eq (.input (not_mem_of_startsWith harg) ?_)
          exact (setInput_eq o harg).trans (if_pos (by rw [hinput]; rfl))
        | _ => cases hg

theorem last_cons {α : Type} (kind : Group → Option α) (g : Group) (gs : List Group) :
    last kind (g :: gs) = (last kind gs).or (kind g) := by
  unfold last
  rw [List.filterMap_cons]
  cases kind g with
  | none => rw [Option.or_none]
  | some a =>
    rw [List.getLast?_cons]
    cases (gs.filterMap kind).getLast? <;> rfl

section Last

variable {α : Type} (get : Options → Option α) (kind : Group → Option α)

/-- **What groups set** is what the last of a kind sets, if only groups of the kind set it. -/
theorem last_or_foldl (h : ∀ g o, get (Group.apply o g) = (kind g).or (get o)) (gs : List Group)
    (o : Options) : get (gs.foldl Group.apply o) = (last kind gs).or (get o) := by
  induction gs generalizing o with
  | nil => rfl
  | cons g gs ih => rw [List.foldl_cons, ih, h, last_cons, Option.or_assoc]

/-- What has no default is set by the last group of its kind only. -/
theorem last_foldl (h : ∀ g o, get (Group.apply o g) = (kind g).or (get o)) (hnone : get {} = none)
    (gs : List Group) : get (gs.foldl Group.apply {}) = last kind gs := by
  rw [last_or_foldl get kind h, hnone, Option.or_none]

end Last

/-- **A switch** is set if it is among the groups. -/
theorem mem_or_foldl (get : Options → Bool) (switch : Group)
    (h : ∀ g o, get (Group.apply o g) = true ↔ g = switch ∨ get o = true) (gs : List Group)
    (o : Options) : get (gs.foldl Group.apply o) = true ↔ switch ∈ gs ∨ get o = true := by
  induction gs generalizing o with
  | nil => simp
  | cons g gs ih =>
    rw [List.foldl_cons, ih, h, List.mem_cons, eq_comm (a := switch), or_left_comm, or_assoc]

/-- **The options after some groups** are those of the last group of each kind. -/
theorem chosen_foldl (gs : List Group) : Chosen gs (gs.foldl Group.apply {}) where
  mode := by
    have hmode : some (gs.foldl Group.apply {}).mode = (last Group.mode? gs).or (some .api) :=
      last_or_foldl (fun o => some o.mode) Group.mode? (fun g o => by cases g <;> rfl) gs {}
    rw [← Option.some.injEq, hmode]
    cases last Group.mode? gs <;> rfl
  inputFile := last_foldl (·.inputFile) Group.input? inputFile_apply rfl gs
  outputFolder := last_foldl (·.outputFolder) Group.output? (fun g o => by cases g <;> rfl) rfl gs
  width := last_foldl (·.width) Group.width? (fun g o => by cases g <;> rfl) rfl gs
  strictUnions := by
    rw [mem_or_foldl (·.strictUnions) .strictUnions fun g o => by cases g <;> simp [Group.apply]]
    simp
  namespaceName :=
    last_foldl (·.namespaceName) Group.namespaceName? (fun g o => by cases g <;> rfl) rfl gs
  templateFile := last_foldl (·.templateFile) Group.template? (fun g o => by cases g <;> rfl) rfl gs
  verbose := by
    rw [mem_or_foldl (·.verbose) .verbose fun g o => by cases g <;> simp [Group.apply]]
    simp

/-- **Groups of arguments in any order.**  With one input file among them there are options: each is set
by the last group of its kind, or has its default if there is none.  With no input file, or with more
than one, there are no options, and the program ends with code 2 and a message. -/
theorem parse_groups (gs : List Group) :
    (∀ file, gs.filterMap Group.input? = [file] →
      ∃ o, Options.parse (gs.flatMap Group.words) = .run o ∧ o.inputFile = some file ∧ Chosen gs o) ∧
    ((gs.filterMap Group.input?).length ≠ 1 →
      ∃ message, Options.parse (gs.flatMap Group.words) = .refused message ∧
        ∀ yaml tree, run yaml (gs.flatMap Group.words) tree =
          ⟨.code 2, "", ["error: " ++ message], tree⟩) := by
  have hparse : Options.parse (gs.flatMap Group.words) = _ := parseFrom_words {} gs
  rw [show ({} : Options).inputFile.toList = [] from rfl, List.nil_append] at hparse
  constructor
  · intro file hfile
    have hchosen := chosen_foldl gs
    rw [hfile] at hparse
    refine ⟨_, hparse, ?_, hchosen⟩
    rw [hchosen.inputFile, last, hfile]
    rfl
  · intro hcount
    have hrefused : ∃ message, Options.parse (gs.flatMap Group.words) = .refused message := by
      cases hinputs : gs.filterMap Group.input? with
      | nil => exact ⟨_, by rw [hparse, hinputs]⟩
      | cons first inputs =>
        cases inputs with
        | nil => exact absurd (by rw [hinputs]; rfl) hcount
        | cons second later => exact ⟨_, by rw [hparse, hinputs]⟩
    obtain ⟨message, hmessage⟩ := hrefused
    exact ⟨message, hmessage, fun _ tree => by rw [run, hmessage]⟩

/-- Groups with two folders, the first of which looks like an option, and a width with a zero in
front. -/
def folderGroups : List Group :=
  [.output true "--verbose", .width ⟨[0, 8, 0], by decide, by decide⟩, .strictUnions,
    .output false "out"]

theorem parse_groups_folderGroups :
    (∃ o, Options.parse (["-o", "--verbose", "--width", "080", "--strict-unions", "--output", "out"] ++
        ["p.yml"]) = .run o ∧ o.inputFile = some "p.yml" ∧ o.outputFolder = some "out" ∧
      o.width = some 80 ∧ o.strictUnions = true ∧ o.mode = .api ∧ ¬ o.verbose = true) ∧
    ∃ message, Options.parse ["-o", "--verbose", "--width", "080", "--strict-unions", "--output",
      "out"] = .refused message := by
  have hfile : "p.yml".startsWith "-" = false := by decide +kernel
  obtain ⟨o, hparse, hinput, hchosen⟩ :=
    (parse_groups (folderGroups ++ [.input "p.yml" hfile])).1 "p.yml" rfl
  obtain ⟨message, hrefused, -⟩ := (parse_groups folderGroups).2 (by decide)
  have hverbose : .verbose ∉ folderGroups ++ [.input "p.yml" hfile] := by simp [folderGroups]
  have hstrict : .strictUnions ∈ folderGroups ++ [.input "p.yml" hfile] := by simp [folderGroups]
  refine ⟨⟨o, hparse, hinput, hchosen.outputFolder, hchosen.width, hchosen.strictUnions.mpr hstrict,
    hchosen.mode, mt hchosen.verbose.mp hverbose⟩, message, hrefused⟩

end CommandLine

end ApiSurface
