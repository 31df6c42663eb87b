import ApiSurface.Proofs.Code.Options
import ApiSurface.Proofs.Code.Signature
import ApiSurface.Proofs.Lowering.Relocation

/-!
# The arguments of a method

The arguments of a method are the leaves of its arguments, each with its type and its name.
-/

namespace ApiSurface

open Identifier

/-- The registry that lowering the types of some arguments leaves, one after another. -/
def Registry.afterTypes (v : Vocabulary) (owner : String) (r : Registry) (args : List Member) :
    Registry :=
  args.foldl (fun r arg => (arg.type.lowering v owner (some arg) r).registry) r

/-- What is wrong with an argument behind some others, on the registry that these leave. -/
inductive ArgumentFault (cx : Context) (place : Place) (owner method : String)
    (earlier : List Member) (r : Registry) (arg : Member) : Fault → Prop
  /-- It has no name. -/
  | unnamed (h : arg.name = "") :
    ArgumentFault cx place owner method earlier r arg (place.blame (.emptyName "argument"))
  /-- Its name is that of an earlier one. -/
  | repeated (hname : arg.name ≠ "")
    (h : escapeReserved arg.name ∈ earlier.map fun other => escapeReserved other.name) :
    ArgumentFault cx place owner method earlier r arg
      (place.blame (.repeatedArgument (escapeReserved arg.name)))
  /-- Its type is refused. -/
  | type {fault : Fault} (hname : arg.name ≠ "")
    (hnew : escapeReserved arg.name ∉ earlier.map fun other => escapeReserved other.name)
    (h : (arg.type.lowering cx.vocabulary owner (some arg) r).outcome = .error fault) :
    ArgumentFault cx place owner method earlier r arg (fault.inArgument owner method arg.name)

/-- Nothing is wrong with any of some arguments behind others. -/
def Faultless (cx : Context) (place : Place) (owner method : String) (earlier : List Member)
    (r : Registry) (args : List Member) : Prop :=
  ∀ before arg after, args = before ++ arg :: after → ∀ fault,
    ¬ ArgumentFault cx place owner method (earlier ++ before)
      (r.afterTypes cx.vocabulary owner before) arg fault

theorem Fault.inArgument_eq (owner method name : String) (fault : Fault) :
    fault.inArgument owner method name = Registry.refusal ⟨owner, method, some name⟩ fault := by
  cases fault <;> rfl

theorem translate_argument (name : String) : translate "argument" name none =
    if name = "" then .error (.emptyName "argument") else .ok (escapeReserved name) := rfl

theorem Plan.lift_ok_bind {α β : Type} (place : Place) (a : α) (f : α → Plan β) :
    (lift place (.ok a) >>= f) = f a :=
  Plan.bind_of_ok rfl f

namespace Context

variable {cx : Context} {place : Place} {owner method : String} {earlier : List Member}
  {taken : List String} {r : Registry} {arg : Member} {args : List Member}

/-! ### One argument -/

theorem argumentsFrom_unnamed (h : arg.name = "") :
    cx.argumentsFrom place owner method taken (arg :: args) =
      Plan.blame place (.emptyName "argument") := by
  rw [argumentsFrom, translate_argument, if_pos h]
  rfl

theorem argumentsFrom_repeated (hname : arg.name ≠ "") (h : escapeReserved arg.name ∈ taken) :
    cx.argumentsFrom place owner method taken (arg :: args) =
      Plan.blame place (.repeatedArgument (escapeReserved arg.name)) := by
  rw [argumentsFrom, translate_argument, if_neg hname, Plan.lift_ok_bind,
    if_pos (List.contains_iff_mem.mpr h)]

/-- **An argument with a new name** is declared with its type, and the others follow. -/
theorem run_argumentsFrom_new (hname : arg.name ≠ "") (h : escapeReserved arg.name ∉ taken)
    (args : List Member) (r : Registry) :
    (cx.argumentsFrom place owner method taken (arg :: args)).run r =
      let first := arg.type.lowering cx.vocabulary owner (some arg) r
      match first.outcome with
      | .error fault =>
        ⟨first.added, .error (fault.inArgument owner method arg.name), first.registry⟩
      | .ok type =>
        let later := (cx.argumentsFrom place owner method (escapeReserved arg.name :: taken) args).run
          first.registry
        ⟨first.added ++ later.added, later.outcome.map (⟨type, escapeReserved arg.name⟩ :: ·),
          later.registry⟩ := by
  have hnew : ¬ taken.contains (escapeReserved arg.name) = true :=
    fun hmem => h (List.contains_iff_mem.mp hmem)
  rw [argumentsFrom, translate_argument, if_neg hname, Plan.lift_ok_bind, if_neg hnew,
    Plan.run_bind, run_ref]
  cases hout : (arg.type.lowering cx.vocabulary owner (some arg) r).outcome with
  | error fault => simp only [hout, Except.mapError, Fault.inArgument_eq]
  | ok type => simp only [hout, Except.mapError, Plan.run_bind_pure]

theorem faultless_cons_iff : Faultless cx place owner method earlier r (arg :: args) ↔
    (∀ fault, ¬ ArgumentFault cx place owner method earlier r arg fault) ∧
      Faultless cx place owner method (earlier ++ [arg])
        (arg.type.lowering cx.vocabulary owner (some arg) r).registry args := by
  constructor
  · intro h
    refine ⟨fun fault hfault => ?_, fun before arg' after hsplit fault hfault => ?_⟩
    · refine h [] arg args rfl fault ?_
      rw [List.append_nil]
      exact hfault
    · refine h (arg :: before) arg' after (by rw [hsplit, List.cons_append]) fault ?_
      rw [← List.append_cons] at hfault
      exact hfault
  · rintro ⟨hfirst, hrest⟩ before arg' after hsplit fault hfault
    cases before with
    | nil =>
      obtain ⟨rfl, -⟩ := List.cons.inj hsplit
      rw [List.append_nil] at hfault
      exact hfirst fault hfault
    | cons first before =>
      obtain ⟨rfl, htail⟩ := List.cons.inj hsplit
      refine hrest before arg' after htail fault ?_
      rw [← List.append_cons]
      exact hfault

theorem exists_lowering_of_not_fault
    (h : ∀ fault, ¬ ArgumentFault cx place owner method earlier r arg fault) :
    arg.name ≠ "" ∧
      (escapeReserved arg.name ∉ earlier.map fun other => escapeReserved other.name) ∧
      ∃ type, (arg.type.lowering cx.vocabulary owner (some arg) r).outcome = .ok type := by
  have hname : arg.name ≠ "" := fun hempty => h _ (.unnamed hempty)
  have hnew : escapeReserved arg.name ∉ earlier.map fun other => escapeReserved other.name :=
    fun hmem => h _ (.repeated hname hmem)
  refine ⟨hname, hnew, ?_⟩
  cases hout : (arg.type.lowering cx.vocabulary owner (some arg) r).outcome with
  | ok type => exact ⟨type, rfl⟩
  | error fault => exact absurd (.type hname hnew hout) (h _)

/-! ### Whole runs -/

/-- The names taken are those of the earlier arguments. -/
def Taken (earlier : List Member) (taken : List String) : Prop :=
  ∀ name, name ∈ taken ↔ name ∈ earlier.map fun other => escapeReserved other.name

theorem Taken.cons (h : Taken earlier taken) (arg : Member) :
    Taken (earlier ++ [arg]) (escapeReserved arg.name :: taken) := by
  intro name
  rw [List.mem_cons, h name, List.map_append, List.mem_append, or_comm]
  simp

/-- **Up to the first fault.**  What is wrong with the first argument with which anything is wrong
is what comes of it. -/
theorem run_argumentsFrom_first {before after : List Member} {fault : Fault}
    (htaken : Taken earlier taken) (hbefore : Faultless cx place owner method earlier r before)
    (h : ArgumentFault cx place owner method (earlier ++ before)
      (r.afterTypes cx.vocabulary owner before) arg fault) :
    ((cx.argumentsFrom place owner method taken (before ++ arg :: after)).run r).outcome =
      .error fault := by
  induction before generalizing earlier taken r with
  | nil =>
    rw [List.append_nil] at h
    cases h with
    | unnamed hempty =>
      rw [List.nil_append, argumentsFrom_unnamed hempty]
      rfl
    | repeated hname hmem =>
      rw [List.nil_append, argumentsFrom_repeated hname ((htaken _).mpr hmem)]
      rfl
    | type hname hnew hout =>
      have hout' : (arg.type.lowering cx.vocabulary owner (some arg) r).outcome = _ := hout
      rw [List.nil_append, run_argumentsFrom_new hname fun hmem => hnew ((htaken _).mp hmem)]
      simp only [hout']
  | cons first before ih =>
    obtain ⟨hfirst, hrest⟩ := faultless_cons_iff.mp hbefore
    obtain ⟨hname, hnew, type, hout⟩ := exists_lowering_of_not_fault hfirst
    rw [List.append_cons] at h
    have hlater := ih (htaken.cons first) hrest h
    rw [List.cons_append, run_argumentsFrom_new hname fun hmem => hnew ((htaken _).mp hmem)]
    simp only [hout, hlater]
    rfl

/-- **To the end.**  Arguments with which nothing is wrong are declared with their types and names,
in order. -/
theorem run_argumentsFrom_faultless (htaken : Taken earlier taken)
    (h : Faultless cx place owner method earlier r args) :
    ∃ as, ((cx.argumentsFrom place owner method taken args).run r).outcome = .ok as ∧
      ((cx.argumentsFrom place owner method taken args).run r).registry =
        r.afterTypes cx.vocabulary owner args ∧
      (as.map (·.name)) = args.map (fun arg => escapeReserved arg.name) ∧
      ∀ before arg after, args = before ++ arg :: after →
        ∃ type, (arg.type.lowering cx.vocabulary owner (some arg)
            (r.afterTypes cx.vocabulary owner before)).outcome = .ok type ∧
          as[before.length]? = some ⟨type, escapeReserved arg.name⟩ := by
  induction args generalizing earlier taken r with
  | nil => exact ⟨[], rfl, rfl, rfl, fun before arg after hsplit => by simp at hsplit⟩
  | cons first args ih =>
    obtain ⟨hfirst, hrest⟩ := faultless_cons_iff.mp h
    obtain ⟨hname, hnew, type, hout⟩ := exists_lowering_of_not_fault hfirst
    obtain ⟨as, hlater, hreg, hnames, heach⟩ := ih (htaken.cons first) hrest
    rw [run_argumentsFrom_new hname fun hmem => hnew ((htaken _).mp hmem)]
    simp only [hout, hlater]
    refine ⟨⟨type, escapeReserved first.name⟩ :: as, rfl, hreg, ?_, ?_⟩
    · rw [List.map_cons, List.map_cons, hnames]
    · intro before arg after hsplit
      cases before with
      | nil =>
        obtain ⟨rfl, -⟩ := List.cons.inj hsplit
        exact ⟨type, hout, rfl⟩
      | cons first' before =>
        obtain ⟨rfl, htail⟩ := List.cons.inj hsplit
        exact heach before arg after htail

theorem faultless_or_exists_first (cx : Context) (place : Place) (owner method : String)
    (earlier : List Member) (r : Registry) (args : List Member) :
    Faultless cx place owner method earlier r args ∨
      ∃ before arg after fault, args = before ++ arg :: after ∧
        Faultless cx place owner method earlier r before ∧
        ArgumentFault cx place owner method (earlier ++ before)
          (r.afterTypes cx.vocabulary owner before) arg fault := by
  induction args generalizing earlier r with
  | nil => exact .inl fun before arg after hsplit => by simp at hsplit
  | cons first args ih =>
    by_cases hfirst : ∃ fault, ArgumentFault cx place owner method earlier r first fault
    · obtain ⟨fault, hfault⟩ := hfirst
      refine .inr ⟨[], first, args, fault, rfl, fun before arg after hsplit => ?_, ?_⟩
      · simp at hsplit
      · rw [List.append_nil]
        exact hfault
    · have hnone := not_exists.mp hfirst
      rcases ih (earlier ++ [first])
        (first.type.lowering cx.vocabulary owner (some first) r).registry with hrest | hrest
      · exact .inl (faultless_cons_iff.mpr ⟨hnone, hrest⟩)
      · obtain ⟨before, arg, after, fault, rfl, hbefore, hfault⟩ := hrest
        refine .inr ⟨first :: before, arg, after, fault, rfl,
          faultless_cons_iff.mpr ⟨hnone, hbefore⟩, ?_⟩
        rw [List.append_cons]
        exact hfault

/-! ### The arguments of a method -/

section Method

variable {m : Member}

/-- What is wrong with the first leaf with which anything is wrong is what comes of the arguments. -/
theorem run_arguments_first {before after : List Member} {leaf : Member} {fault : Fault}
    (hsplit : leaves m.args = before ++ leaf :: after)
    (hbefore : Faultless cx place owner m.name [] r before)
    (h : ArgumentFault cx place owner m.name before (r.afterTypes cx.vocabulary owner before) leaf
      fault) :
    ((cx.arguments place owner m).run r).outcome = .error fault := by
  unfold arguments
  rw [hsplit]
  exact run_argumentsFrom_first (fun _ => Iff.rfl) hbefore h

/-- **The arguments are found** if and only if nothing is wrong with any leaf. -/
theorem run_arguments_ok_iff : (∃ as, ((cx.arguments place owner m).run r).outcome = .ok as) ↔
    Faultless cx place owner m.name [] r (leaves m.args) := by
  constructor
  · rintro ⟨as, hok⟩
    rcases faultless_or_exists_first cx place owner m.name [] r (leaves m.args) with h | h
    · exact h
    · obtain ⟨before, leaf, after, fault, hsplit, hbefore, hfault⟩ := h
      have hboth := hok.symm.trans (run_arguments_first hsplit hbefore hfault)
      cases hboth
  · intro h
    obtain ⟨as, hok, -⟩ := run_argumentsFrom_faultless (fun _ => Iff.rfl) h
    exact ⟨as, hok⟩

/-- **The arguments are not found** if and only if there is a first leaf with which something is
wrong, and that is what comes of it. -/
theorem run_arguments_error_iff {fault : Fault} :
    ((cx.arguments place owner m).run r).outcome = .error fault ↔
      ∃ before leaf after, leaves m.args = before ++ leaf :: after ∧
        Faultless cx place owner m.name [] r before ∧
        ArgumentFault cx place owner m.name before (r.afterTypes cx.vocabulary owner before) leaf
          fault := by
  constructor
  · intro herror
    rcases faultless_or_exists_first cx place owner m.name [] r (leaves m.args) with h | h
    · obtain ⟨as, hok⟩ := run_arguments_ok_iff.mpr h
      have hboth := herror.symm.trans hok
      cases hboth
    · obtain ⟨before, leaf, after, fault', hsplit, hbefore, hfault⟩ := h
      have hsame := herror.symm.trans (run_arguments_first hsplit hbefore hfault)
      obtain rfl : fault = fault' := Except.error.inj hsame
      exact ⟨before, leaf, after, hsplit, hbefore, hfault⟩
  · rintro ⟨before, leaf, after, hsplit, hbefore, hfault⟩
    exact run_arguments_first hsplit hbefore hfault

end Method

end Context

/-- **The arguments of a method**, for any owner and settings and on any registry.

* If they are found, they are one for each leaf, in order: its type is that of the leaf, lowered at
  the leaf on the registry that the leaves before it have left, and its name is that of the leaf,
  with an escape for reserved words.  No name occurs twice.
* They are found if and only if nothing is wrong with any leaf.  Otherwise what comes of it is what is
  wrong with the first leaf with which anything is: its name is empty, an earlier leaf has the name, or
  its type is refused there.
* If options give way to their properties, at any depth, the same comes of it on every registry. -/
theorem arguments_flattened (cx : Context) (place : Place) (owner : String) (method : Member)
    (r : Registry) :
    (∀ as, ((cx.arguments place owner method).run r).outcome = .ok as →
      as.map (·.name) = (leaves method.args).map (fun leaf => escapeReserved leaf.name) ∧
      (as.map (·.name)).Nodup ∧
      (∀ before leaf after, leaves method.args = before ++ leaf :: after →
        ∃ type, (leaf.type.lowering cx.vocabulary owner (some leaf)
            (r.afterTypes cx.vocabulary owner before)).outcome = .ok type ∧
          as[before.length]? = some ⟨type, escapeReserved leaf.name⟩) ∧
      ((cx.arguments place owner method).run r).registry =
        r.afterTypes cx.vocabulary owner (leaves method.args)) ∧
    ((∃ as, ((cx.arguments place owner method).run r).outcome = .ok as) ↔
      Faultless cx place owner method.name [] r (leaves method.args)) ∧
    (∀ fault, ((cx.arguments place owner method).run r).outcome = .error fault ↔
      ∃ before leaf after, leaves method.args = before ++ leaf :: after ∧
        Faultless cx place owner method.name [] r before ∧
        ArgumentFault cx place owner method.name before
          (r.afterTypes cx.vocabulary owner before) leaf fault) ∧
    ∀ args, Relation.ReflTransGen Inlines method.args args →
      (cx.arguments place owner { method with args }).run r =
        (cx.arguments place owner method).run r := by
  refine ⟨fun as hok => ?_, Context.run_arguments_ok_iff, fun _ => Context.run_arguments_error_iff,
    fun args hargs => ?_⟩
  · have hfaultless := Context.run_arguments_ok_iff.mp ⟨as, hok⟩
    obtain ⟨as', hok', hreg, hnames, heach⟩ :=
      Context.run_argumentsFrom_faultless (fun _ => Iff.rfl) hfaultless
    obtain rfl : as = as' := Except.ok.inj (hok.symm.trans hok')
    have hyields : (cx.arguments place owner method).Yields _ as :=
      ⟨rfl, (Plan.run_ok_iff.mp hok).2⟩
    obtain ⟨slots, -, rfl, -, hnodup, -⟩ := yields_argumentsFrom hyields
    refine ⟨hnames, ?_, heach, hreg⟩
    simpa [Slot.argument, Function.comp_def] using hnodup
  · unfold Context.arguments
    rw [leaves_eq_of_inlines hargs]

/-- A method with a style behind options in options that are nullable. -/
def drawMethod : Member :=
  { kind := "method", name := "draw", type := .primitive "void"
    args := [{ kind := "argument", name := "event", type := .primitive "string" },
      { kind := "argument", name := "options"
        type := .union [.primitive "null", .shape
          [{ kind := "property", name := "size"
             type := .shape [{ kind := "property", name := "width", type := .primitive "number" }] },
            { kind := "property", name := "options"
              type := .shape [{ kind := "property", name := "fill"
                                type := .primitive "boolean" }] }]] }] }

/-- A method whose options repeat the name of an argument in front of them. -/
def eraseMethod : Member :=
  { kind := "method", name := "erase", type := .primitive "void"
    args := [{ kind := "argument", name := "area", type := .primitive "number" },
      { kind := "argument", name := "options"
        type := .shape [{ kind := "property", name := "area", type := .primitive "float" }] }] }

theorem arguments_drawMethod :
    ((({} : Context).arguments {} "Pen" drawMethod).run (.empty [])).outcome =
        .ok [⟨"string", "@event"⟩, ⟨"PenSizeResult", "size"⟩, ⟨"bool", "fill"⟩] ∧
      ["@event", "size", "fill"].Nodup ∧
      (({} : Context).arguments {} "Pen" { drawMethod with args := leaves drawMethod.args }).run
          (.empty []) = (({} : Context).arguments {} "Pen" drawMethod).run (.empty []) ∧
      ∃ before leaf after, leaves eraseMethod.args = before ++ leaf :: after ∧
        ArgumentFault {} {} "Pen" "erase" before
          ((Registry.empty []).afterTypes (({} : Context).vocabulary) "Pen" before) leaf
          (.report ⟨.repeatedArgument "area", "", ""⟩) := by
  have hok : ((({} : Context).arguments {} "Pen" drawMethod).run (.empty [])).outcome =
      .ok [⟨"string", "@event"⟩, ⟨"PenSizeResult", "size"⟩, ⟨"bool", "fill"⟩] := by rfl
  have herror : ((({} : Context).arguments {} "Pen" eraseMethod).run (.empty [])).outcome =
      .error (.report ⟨.repeatedArgument "area", "", ""⟩) := by rfl
  refine ⟨hok, ?_, ?_, ?_⟩
  · exact ((arguments_flattened {} {} "Pen" drawMethod (.empty [])).1 _ hok).2.1
  · exact (arguments_flattened {} {} "Pen" drawMethod (.empty [])).2.2.2 _ (inlines_leaves _)
  · obtain ⟨before, leaf, after, hsplit, -, hfault⟩ :=
      ((arguments_flattened {} {} "Pen" eraseMethod (.empty [])).2.2.1 _).mp herror
    exact ⟨before, leaf, after, hsplit, hfault⟩

end ApiSurface
