import ApiSurface.CommandLine.Run
import Mathlib.Data.List.TakeWhile

/-!
# Reading the arguments

The arguments are read from left to right, an option or the name of the input file at a time, until
there are no more or one of them ends the reading.
-/

namespace ApiSurface.CommandLine

/-! ### Widths -/

/-- How many decimal digits, of any script, a text begins with. -/
def leadingDecimals (s : String) : Nat :=
  (s.toList.takeWhile fun c => (Text.decimalValue? c).isSome).length

/-- **Digits that make no number**, with the fault that they end reading in: there are more decimal
digits than are read, or one of them, such as a superscript, is no decimal digit. -/
inductive Misread (value : String) : NumeralFault → Prop
  | tooLong (hdigits : ∀ c ∈ value.toList, Text.isDigit c = true)
    (h : Numeral.maxDigits < leadingDecimals value) :
    Misread value (.tooLong (leadingDecimals value))
  | notDecimal {c : Char} (hdigits : ∀ c ∈ value.toList, Text.isDigit c = true)
    (h : leadingDecimals value ≤ Numeral.maxDigits) (hc : c ∈ value.toList)
    (hother : Text.decimalValue? c = none) : Misread value (.notANumeral 10 value)

theorem leadingDecimals_lt_iff {s : String} :
    leadingDecimals s < s.length ↔ ∃ c ∈ s.toList, Text.decimalValue? c = none := by
  have hleading := List.takeWhile_prefix (l := s.toList) fun c => (Text.decimalValue? c).isSome
  have hall : leadingDecimals s = s.length ↔ ∀ c ∈ s.toList, (Text.decimalValue? c).isSome := by
    rw [← List.takeWhile_eq_self_iff, ← String.length_toList]
    exact ⟨hleading.eq_of_length, congrArg List.length⟩
  have hle : leadingDecimals s ≤ s.length := hleading.length_le
  rw [Nat.lt_iff_le_and_ne, ne_eq, hall]
  simp [hle]

/-- **A text is no number** if it begins with too many decimal digits, or else holds something that is
none. -/
theorem anyScript?_eq_error_iff {s : String} (hs : s ≠ "") {fault : NumeralFault} :
    Numeral.anyScript? s = .error fault ↔
      (Numeral.maxDigits < leadingDecimals s ∧ fault = .tooLong (leadingDecimals s)) ∨
      (leadingDecimals s ≤ Numeral.maxDigits ∧ leadingDecimals s < s.length ∧
        fault = .notANumeral 10 s) := by
  have hlength : ((s.toList.map Text.decimalValue?).takeWhile (·.isSome)).length =
      leadingDecimals s := by
    rw [List.takeWhile_map, List.length_map]
    rfl
  have hempty : ((s.toList.map Text.decimalValue?).takeWhile (·.isSome)).isEmpty = true →
      leadingDecimals s < s.length := by
    intro h
    rw [← hlength, List.isEmpty_iff.mp h]
    exact Nat.pos_of_ne_zero (mt String.length_eq_zero_iff.mp hs)
  unfold Numeral.anyScript?
  simp only [hlength, Bool.or_eq_true, decide_eq_true_eq, or_iff_right_of_imp hempty]
  by_cases hlong : Numeral.maxDigits < leadingDecimals s
  · rw [if_pos hlong]
    simp [hlong, Nat.not_le.mpr hlong, eq_comm]
  · rw [if_neg hlong]
    by_cases hother : leadingDecimals s < s.length
    · rw [if_pos hother]
      simp [hlong, Nat.not_lt.mp hlong, hother, eq_comm]
    · rw [if_neg hother]
      simp [hlong, hother]

/-- The message on a value that is no width. -/
def widthMessage : String := "--width needs a number of at least 20"

variable {o o' : Options} {value : String}

/-- **The value of a width** makes no number, or it is refused, or it is wide enough. -/
theorem setWidth_cases (o : Options) (value : String) :
    (∃ fault, Misread value fault ∧ o.setWidth value = .error (.unreadable fault)) ∨
    o.setWidth value = .error (.refused widthMessage) ∨
    ∃ n, minWidth ≤ n ∧ o.setWidth value = .ok { o with width := some n } := by
  unfold Options.setWidth
  by_cases hdigits : value = "" ∨ ¬ ∀ c ∈ value.toList, Text.isDigit c = true
  · rw [if_pos (by simpa using hdigits)]
    exact .inr (.inl rfl)
  rw [if_neg (by simpa using hdigits)]
  rw [not_or, not_not] at hdigits
  cases hread : Numeral.anyScript? value with
  | error fault =>
    refine .inl ⟨fault, ?_, rfl⟩
    rcases (anyScript?_eq_error_iff hdigits.1).mp hread with ⟨hlong, rfl⟩ | ⟨hshort, hother, rfl⟩
    · exact .tooLong hdigits.2 hlong
    · obtain ⟨c, hc, hnone⟩ := leadingDecimals_lt_iff.mp hother
      exact .notDecimal hdigits.2 hshort hc hnone
  | ok n =>
    by_cases hn : n < minWidth
    · exact .inr (.inl (if_pos hn))
    · exact .inr (.inr ⟨n, Nat.not_lt.mp hn, if_neg hn⟩)

theorem Misread.ne_empty {fault : NumeralFault} (h : Misread value fault) : value ≠ "" := by
  rintro rfl
  cases h with
  | tooLong _ h => exact absurd h (by decide)
  | notDecimal _ _ hc => cases hc

/-- **A value that cannot be read** is one of digits that make no number. -/
theorem setWidth_unreadable_iff {fault : NumeralFault} :
    o.setWidth value = .error (.unreadable fault) ↔ Misread value fault := by
  constructor
  · intro h
    rcases setWidth_cases o value with ⟨fault', hmisread, heq⟩ | heq | ⟨n, -, heq⟩
    · rw [heq] at h
      cases h
      exact hmisread
    · rw [heq] at h
      cases h
    · rw [heq] at h
      cases h
  · intro h
    have hread : Numeral.anyScript? value = .error fault := by
      rw [anyScript?_eq_error_iff h.ne_empty]
      cases h with
      | tooLong _ h => exact .inl ⟨h, rfl⟩
      | notDecimal _ h hc hother =>
        exact .inr ⟨h, leadingDecimals_lt_iff.mpr ⟨_, hc, hother⟩, rfl⟩
    have hdigits : ∀ c ∈ value.toList, Text.isDigit c = true := by
      cases h <;> assumption
    unfold Options.setWidth
    rw [if_neg (by simpa [h.ne_empty] using hdigits), hread]

/-! ### Arguments -/

/-- **Arguments that are read** without a mistake, with the options before and after them. -/
inductive Reads : Options → List String → Options → Prop
  | nil {o : Options} : Reads o [] o
  | value {o o₁ o₂ : Options} {name value : String} {args : List String}
    (hname : name ∈ valueOptions) (hset : o.set name value = .ok o₁) (h : Reads o₁ args o₂) :
    Reads o (name :: value :: args) o₂
  | strictUnions {o o₂ : Options} {args : List String}
    (h : Reads { o with strictUnions := true } args o₂) : Reads o ("--strict-unions" :: args) o₂
  | verbose {o o₂ : Options} {args : List String} (h : Reads { o with verbose := true } args o₂) :
    Reads o ("--verbose" :: args) o₂
  | input {o o₁ o₂ : Options} {arg : String} {args : List String} (hset : o.setInput arg = .ok o₁)
    (h : Reads o₁ args o₂) : Reads o (arg :: args) o₂

/-- The words that are options by themselves. -/
def switches : List String := ["--help", "-h", "--strict-unions", "--verbose"]

/-- **Arguments that end the reading**, with what they ask for.  Those behind the first mistake are not
looked at. -/
inductive Ends (o : Options) : List String → Request → Prop
  | run (h : o.inputFile.isSome = true) : Ends o [] (.run o)
  | missing (h : o.inputFile = none) : Ends o [] (.refused "missing input file")
  | help {arg : String} {args : List String} (harg : arg ∈ ["--help", "-h"]) :
    Ends o (arg :: args) .help
  | valueless {name : String} (hname : name ∈ valueOptions) :
    Ends o [name] (.refused (name ++ " requires an argument"))
  | value {name value : String} {args : List String} {request : Request}
    (hname : name ∈ valueOptions) (hset : o.set name value = .error request) :
    Ends o (name :: value :: args) request
  | input {arg : String} {args : List String} {request : Request}
    (hother : arg ∉ valueOptions ++ switches) (hset : o.setInput arg = .error request) :
    Ends o (arg :: args) request

theorem not_mem_of_setInput {arg : String} (h : o.setInput arg = .ok o') :
    arg ∉ valueOptions ++ switches := by
  have hflags : ∀ flag ∈ valueOptions ++ switches, flag.startsWith "-" = true := by decide +kernel
  intro hmem
  unfold Options.setInput at h
  rw [if_pos (hflags arg hmem)] at h
  cases h

/-! One step of reading, for each kind of argument. -/

theorem parseFrom_help {arg : String} (harg : arg ∈ ["--help", "-h"]) (args : List String) :
    o.parseFrom (arg :: args) = .help := by
  rw [Options.parseFrom.eq_def]
  exact if_pos (by simpa using harg)

theorem parseFrom_option {name : String} (hname : name ∈ valueOptions) (args : List String) :
    o.parseFrom (name :: args) =
      match args with
      | [] => .refused (name ++ " requires an argument")
      | value :: args =>
        match o.set name value with
        | .error request => request
        | .ok o => o.parseFrom args := by
  have hhelp : ∀ name ∈ valueOptions, ¬ (name = "--help" || name = "-h") = true := by decide
  rw [Options.parseFrom.eq_def]
  exact (if_neg (hhelp name hname)).trans (if_pos (List.contains_iff_mem.mpr hname))

theorem parseFrom_strictUnions (args : List String) :
    o.parseFrom ("--strict-unions" :: args) = { o with strictUnions := true }.parseFrom args := by
  rw [Options.parseFrom.eq_def]
  rfl

theorem parseFrom_verbose (args : List String) :
    o.parseFrom ("--verbose" :: args) = { o with verbose := true }.parseFrom args := by
  rw [Options.parseFrom.eq_def]
  rfl

theorem parseFrom_input {arg : String} (hother : arg ∉ valueOptions ++ switches)
    (args : List String) : o.parseFrom (arg :: args) =
      match o.setInput arg with
      | .error request => request
      | .ok o => o.parseFrom args := by
  rw [List.mem_append, not_or] at hother
  obtain ⟨hvalue, hswitch⟩ := hother
  simp only [switches, List.mem_cons, List.not_mem_nil, or_false, not_or] at hswitch
  obtain ⟨hlong, hshort, hstrict, hverbose⟩ := hswitch
  have hhelp : ¬ (arg = "--help" || arg = "-h") = true := by simp [hlong, hshort]
  have hoption : ¬ valueOptions.contains arg = true := mt List.contains_iff_mem.mp hvalue
  rw [Options.parseFrom.eq_def]
  exact (if_neg hhelp).trans ((if_neg hoption).trans ((if_neg hstrict).trans (if_neg hverbose)))

/-- **Arguments that are read** leave the options to those behind them. -/
theorem Reads.parseFrom_append {before : List String} (h : Reads o before o')
    (rest : List String) : o.parseFrom (before ++ rest) = o'.parseFrom rest := by
  induction h with
  | nil => rfl
  | value hname hset _ ih =>
    rw [List.cons_append, List.cons_append, parseFrom_option hname]
    simp only [hset, ih]
  | strictUnions _ ih => rw [List.cons_append, parseFrom_strictUnions, ih]
  | verbose _ ih => rw [List.cons_append, parseFrom_verbose, ih]
  | input hset _ ih =>
    rw [List.cons_append, parseFrom_input (not_mem_of_setInput hset)]
    simp only [hset, ih]

/-- **Arguments that end the reading** come to what they ask for. -/
theorem Ends.parseFrom_eq {rest : List String} {request : Request} (h : Ends o rest request) :
    o.parseFrom rest = request := by
  cases h with
  | run h => exact if_neg (by simpa [Option.isSome_iff_ne_none] using h)
  | missing h => exact if_pos (by simpa using h)
  | help harg => exact parseFrom_help harg _
  | valueless hname => exact parseFrom_option hname _
  | value hname hset =>
    rw [parseFrom_option hname]
    simp only [hset]
  | input hother hset =>
    rw [parseFrom_input hother]
    simp only [hset]

/-- **All arguments** are read up to some that end the reading. -/
theorem exists_ends (o : Options) (args : List String) :
    ∃ before rest o' request, args = before ++ rest ∧ Reads o before o' ∧ Ends o' rest request := by
  induction o, args using Options.parseFrom.induct with
  | case1 o hmissing => exact ⟨[], [], o, _, rfl, .nil, .missing (by simpa using hmissing)⟩
  | case2 o hinput =>
    exact ⟨[], [], o, _, rfl, .nil, .run (by simpa [Option.isSome_iff_ne_none] using hinput)⟩
  | case3 o arg args hhelp => exact ⟨[], _, o, _, rfl, .nil, .help (by simpa using hhelp)⟩
  | case4 o name _ hname =>
    exact ⟨[], _, o, _, rfl, .nil, .valueless (List.contains_iff_mem.mp hname)⟩
  | case5 o name _ hname value args request hset =>
    exact ⟨[], _, o, _, rfl, .nil, .value (List.contains_iff_mem.mp hname) hset⟩
  | case6 o name _ hname value args o₁ hset ih =>
    obtain ⟨before, rest, o', request, rfl, hreads, hends⟩ := ih
    exact ⟨_, rest, o', request, rfl, .value (List.contains_iff_mem.mp hname) hset hreads, hends⟩
  | case7 o args _ _ ih =>
    obtain ⟨before, rest, o', request, rfl, hreads, hends⟩ := ih
    exact ⟨_, rest, o', request, rfl, .strictUnions hreads, hends⟩
  | case8 o args _ _ _ ih =>
    obtain ⟨before, rest, o', request, rfl, hreads, hends⟩ := ih
    exact ⟨_, rest, o', request, rfl, .verbose hreads, hends⟩
  | case9 o arg args hhelp hvalue hstrict hverbose request hset =>
    refine ⟨[], _, o, _, rfl, .nil, .input ?_ hset⟩
    simp only [Bool.or_eq_true, decide_eq_true_eq, not_or] at hhelp
    simp [switches, hhelp, hstrict, hverbose, mt List.contains_iff_mem.mpr hvalue]
  | case10 o arg args _ _ _ _ o₁ hset ih =>
    obtain ⟨before, rest, o', request, rfl, hreads, hends⟩ := ih
    exact ⟨_, rest, o', request, rfl, .input hset hreads, hends⟩

/-- **What the arguments ask for**: they are read up to those that end the reading. -/
theorem parse_eq_iff {args : List String} {request : Request} :
    Options.parse args = request ↔ ∃ before rest o,
      args = before ++ rest ∧ Reads {} before o ∧ Ends o rest request := by
  constructor
  · rintro rfl
    obtain ⟨before, rest, o, request, rfl, hreads, hends⟩ := exists_ends {} args
    refine ⟨before, rest, o, rfl, hreads, ?_⟩
    rwa [Options.parse, hreads.parseFrom_append, hends.parseFrom_eq]
  · rintro ⟨before, rest, o, rfl, hreads, hends⟩
    rw [Options.parse, hreads.parseFrom_append, hends.parseFrom_eq]

/-! ### What comes of the arguments -/

/-- A width that was asked for is wide enough. -/
def Options.Fits (o : Options) : Prop := ∀ n ∈ o.width, minWidth ≤ n

/-- **What comes of one argument**, with its value if it has one: options that still fit, or a message,
or a fault. -/
inductive Taken (o : Options) (Fails : NumeralFault → Prop) : Except Request Options → Prop
  | ok {o' : Options} (h : o.Fits → o'.Fits) : Taken o Fails (.ok o')
  | refused (message : String) : Taken o Fails (.error (.refused message))
  | unreadable {fault : NumeralFault} (h : Fails fault) : Taken o Fails (.error (.unreadable fault))

/-- **An option with a value** is taken or refused, unless it is a width that cannot be read. -/
theorem taken_set (o : Options) (name value : String) :
    Taken o (fun fault => name = "--width" ∧ Misread value fault) (o.set name value) := by
  unfold Options.set
  by_cases hmode : name = "--mode"
  · rw [if_pos hmode]
    cases Mode.ofLabel? value with
    | none => exact .refused _
    | some mode => exact .ok id
  rw [if_neg hmode]
  by_cases hwidth : name = "--width"
  · rw [if_pos hwidth]
    rcases setWidth_cases o value with ⟨fault, hmisread, heq⟩ | heq | ⟨n, hn, heq⟩
    · rw [heq]
      exact .unreadable ⟨hwidth, hmisread⟩
    · rw [heq]
      exact .refused _
    · rw [heq]
      refine .ok fun _ => ?_
      rintro _ ⟨⟩
      exact hn
  rw [if_neg hwidth]
  -- the other options take any value
  by_cases hnamespace : name = "--namespace"
  · rw [if_pos hnamespace]
    exact .ok id
  rw [if_neg hnamespace]
  by_cases htemplate : name = "--template"
  · rw [if_pos htemplate]
    exact .ok id
  · rw [if_neg htemplate]
    exact .ok id

/-- **The name of an input file** is taken, or refused with a message. -/
theorem taken_setInput (o : Options) (arg : String) :
    Taken o (fun _ => False) (o.setInput arg) := by
  unfold Options.setInput
  by_cases hflag : arg.startsWith "-" = true
  · rw [if_pos hflag]
    exact .refused _
  rw [if_neg hflag]
  by_cases htaken : o.inputFile.isSome = true
  · rw [if_pos htaken]
    exact .refused _
  · rw [if_neg htaken]
    exact .ok id

theorem Taken.fits {Fails : NumeralFault → Prop} (h : Taken o Fails (.ok o')) (hfits : o.Fits) :
    o'.Fits := by
  cases h with
  | ok h => exact h hfits

/-- **Arguments that are read** leave a width that is wide enough. -/
theorem Reads.fits {before : List String} (h : Reads o before o') (hfits : o.Fits) : o'.Fits := by
  induction h with
  | nil => exact hfits
  | @value o _ _ name value _ _ hset _ ih => exact ih ((hset ▸ taken_set o name value).fits hfits)
  | strictUnions _ ih => exact ih hfits
  | verbose _ ih => exact ih hfits
  | @input o _ _ arg _ hset _ ih => exact ih ((hset ▸ taken_setInput o arg).fits hfits)

theorem ends_run_iff {rest : List String} :
    Ends o rest (.run o') ↔ rest = [] ∧ o' = o ∧ o.inputFile.isSome = true := by
  constructor
  · intro h
    cases h with
    | run h => exact ⟨rfl, rfl, h⟩
    | @value name value _ _ _ hset => cases hset ▸ taken_set o name value
    | @input arg _ _ _ hset => cases hset ▸ taken_setInput o arg
  · rintro ⟨rfl, rfl, h⟩
    exact .run h

/-- The reading ends in a fault only at a width of digits that make no number. -/
theorem ends_unreadable_iff {rest : List String} {fault : NumeralFault} :
    Ends o rest (.unreadable fault) ↔
      ∃ value after, rest = "--width" :: value :: after ∧ Misread value fault := by
  constructor
  · intro h
    cases h with
    | @value name value after _ _ hset =>
      cases hset ▸ taken_set o name value with
      | unreadable h =>
        obtain ⟨rfl, hmisread⟩ := h
        exact ⟨value, after, rfl, hmisread⟩
    | @input arg _ _ _ hset =>
      cases hset ▸ taken_setInput o arg with
      | unreadable h => exact h.elim
  · rintro ⟨value, after, rfl, hmisread⟩
    exact .value (by decide) (setWidth_unreadable_iff.mpr hmisread)

/-- **What comes of the arguments.**  There are options, with an input file and a width that is wide
enough if one was asked for; or the help is printed, with code 0; or there is one message on the error
stream and nothing else, with code 2; or the program ends in a fault without a message.  The last is so
if and only if the arguments are read up to a width of digits that make no number. -/
theorem parse_outcome (yaml : Yaml.Reader) (args : List String) (tree : Files.Tree) :
    ((∃ o, Options.parse args = .run o ∧ o.inputFile.isSome = true ∧ ∀ n ∈ o.width, minWidth ≤ n) ∨
      (Options.parse args = .help ∧ run yaml args tree = ⟨.code 0, usage, [], tree⟩) ∨
      (∃ message, Options.parse args = .refused message ∧
        run yaml args tree = ⟨.code 2, "", ["error: " ++ message], tree⟩) ∨
      ∃ fault, Options.parse args = .unreadable fault ∧
        run yaml args tree = ⟨.uncaught (.numeral fault), "", [], tree⟩) ∧
    ∀ fault, Options.parse args = .unreadable fault ↔ ∃ before value after o,
      args = before ++ "--width" :: value :: after ∧ Reads {} before o ∧ Misread value fault := by
  constructor
  · cases hparse : Options.parse args with
    | run o =>
      obtain ⟨before, rest, o', -, hreads, hends⟩ := parse_eq_iff.mp hparse
      obtain ⟨-, rfl, hinput⟩ := ends_run_iff.mp hends
      exact .inl ⟨o, rfl, hinput, hreads.fits nofun⟩
    | help => exact .inr (.inl ⟨rfl, by rw [run, hparse]⟩)
    | refused message => exact .inr (.inr (.inl ⟨message, rfl, by rw [run, hparse]⟩))
    | unreadable fault => exact .inr (.inr (.inr ⟨fault, rfl, by rw [run, hparse]⟩))
  · intro fault
    rw [parse_eq_iff]
    constructor
    · rintro ⟨before, rest, o, rfl, hreads, hends⟩
      obtain ⟨value, after, rfl, hmisread⟩ := ends_unreadable_iff.mp hends
      exact ⟨before, value, after, o, rfl, hreads, hmisread⟩
    · rintro ⟨before, value, after, o, rfl, hreads, hmisread⟩
      exact ⟨before, _, o, rfl, hreads, ends_unreadable_iff.mpr ⟨value, after, rfl, hmisread⟩⟩

/-- A superscript counts as a digit, but makes no number. -/
theorem parse_superscript :
    Options.parse ["--width", "²", "api.json"] = .unreadable (.notANumeral 10 "²") := by
  decide +kernel

end ApiSurface.CommandLine
