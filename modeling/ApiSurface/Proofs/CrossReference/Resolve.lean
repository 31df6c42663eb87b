import ApiSurface.CrossReference
import Mathlib.Data.List.Nodup

/-!
# What a link resolves to

If no two classes share a name, a class is found by its name alone, so links resolve in the same way in
whatever order the classes stand.
-/

namespace ApiSurface.CrossReference

/-! ### Classes by their names -/

theorem class?_eq_some_iff {classes : List ApiClass} (hnd : (classes.map (·.name)).Nodup)
    {name : String} {c : ApiClass} :
    class? classes name = some c ↔ c ∈ classes ∧ c.name = name := by
  unfold class?
  constructor
  · intro h
    exact ⟨List.mem_reverse.mp (List.mem_of_find?_eq_some h), by simpa using List.find?_some h⟩
  · rintro ⟨hc, rfl⟩
    cases hfind : classes.reverse.find? (·.name = c.name) with
    | none =>
      have hno := List.find?_eq_none.mp hfind c (List.mem_reverse.mpr hc)
      simp at hno
    | some c' =>
      have hc' : c' ∈ classes := List.mem_reverse.mp (List.mem_of_find?_eq_some hfind)
      have hname : c'.name = c.name := by simpa using List.find?_some hfind
      rw [List.inj_on_of_nodup_map hnd hc' hc hname]

theorem class?_perm {classes classes' : List ApiClass} (hp : classes.Perm classes')
    (hnd : (classes.map (·.name)).Nodup) (name : String) :
    class? classes name = class? classes' name := by
  have hnd' : (classes'.map (·.name)).Nodup := (hp.map _).nodup_iff.mp hnd
  refine Option.ext fun c => ?_
  rw [class?_eq_some_iff hnd, class?_eq_some_iff hnd', hp.mem_iff]

/-- **Links resolve** in the same way in whatever order the classes stand. -/
theorem resolve_perm {classes classes' : List ApiClass} (hp : classes.Perm classes')
    (hnd : (classes.map (·.name)).Nodup) : resolve classes = resolve classes' := by
  funext target
  unfold resolve resolveNamed
  simp only [class?_perm hp hnd]

/-! ### Links to members -/

theorem member?_some {c : ApiClass} {name : String} {m : Member} (h : member? c name = some m) :
    m ∈ c.members ∧ m.name = name :=
  ⟨List.mem_reverse.mp (List.mem_of_find?_eq_some h), by simpa using List.find?_some h⟩

theorem partition_append {mark : Char} {cs ds : List Char} (h : mark ∉ cs) :
    partition mark (cs ++ mark :: ds) = (cs, ds) := by
  have hall : ∀ c ∈ cs, decide (c ≠ mark) = true := by
    intro c hc
    rw [decide_eq_true_iff]
    rintro rfl
    exact h hc
  unfold partition
  rw [List.takeWhile_append_of_pos hall, List.dropWhile_append_of_pos hall]
  simp

/-- **A link to a member** resolves to the interface of its class and the identifier that is made
from its name. -/
theorem resolve_member {classes : List ApiClass} (hnd : (classes.map (·.name)).Nodup)
    {c : ApiClass} (hc : c ∈ classes) {m : Member} (hm : member? c m.name = some m)
    (hname : m.name ≠ "") (hdot : '.' ∉ c.name.toList) (hcolon : ':' ∉ c.name.toList)
    (hcolon' : ':' ∉ m.name.toList) :
    resolve classes (c.name ++ "." ++ m.name) = do
      let interface ← Identifier.translate "interface" c.name none
      let name ← Identifier.translate m.kind m.name (some m)
      return some (seeElement (interface ++ "." ++ name)) := by
  have htext : (c.name ++ "." ++ m.name).toList = c.name.toList ++ '.' :: m.name.toList := by
    simp
  have hno : (c.name.toList ++ '.' :: m.name.toList).contains ':' = false := by
    simp [hcolon, hcolon']
  have hclass : class? classes c.name = some c := (class?_eq_some_iff hnd).mpr ⟨hc, rfl⟩
  unfold resolve
  simp only [htext, hno, Bool.false_eq_true, if_false, partition_append hdot, String.ofList_toList]
  unfold resolveNamed
  rw [hclass]
  simp only [if_neg hname, hm]

/-! ### Links that fail -/

theorem translate_error_iff {kind name : String} {m : Option Member} {cause : Cause} :
    Identifier.translate kind name m = .error cause ↔ name = "" ∧ cause = .emptyName kind := by
  unfold Identifier.translate
  by_cases hname : name = ""
  · rw [if_pos hname, Except.error.injEq]
    exact ⟨fun h => ⟨hname, h.symm⟩, fun h => h.2.symm⟩
  · refine iff_of_false (fun h => ?_) fun h => hname h.1
    rw [if_neg hname] at h
    split at h
    · cases h
    split at h
    · split at h <;> cases h
    · cases h

/-- A link to an argument, behind `param:` or `option:`, that names none. -/
def NamesNoArgument (target : String) : Prop :=
  ∃ label name, target.toList = label ++ ':' :: name ∧ ':' ∉ label ∧
    String.ofList (Text.strip label) ∈ ["param", "option"] ∧ Text.strip name = []

theorem resolveLabelled_error_iff {label name : List Char} {cause : Cause} :
    resolveLabelled label name = .error cause ↔
      String.ofList (Text.strip label) ∈ ["param", "option"] ∧ Text.strip name = [] ∧
        cause = .emptyName "argument" := by
  have hempty : String.ofList (Text.strip name) = "" ↔ Text.strip name = [] := by
    rw [← String.toList_inj, String.toList_ofList]
    rfl
  unfold resolveLabelled
  by_cases hlabel : String.ofList (Text.strip label) ∈ ["param", "option"]
  · have hlabel' : (decide (String.ofList (Text.strip label) = "param") ||
        decide (String.ofList (Text.strip label) = "option")) = true := by simpa using hlabel
    simp only [hlabel', hlabel, if_true, true_and]
    rw [← hempty, ← translate_error_iff (m := none)]
    cases Identifier.translate "argument" (String.ofList (Text.strip name)) none <;>
      simp [bind, Except.bind, pure, Except.pure]
  · have hlabel' : (decide (String.ofList (Text.strip label) = "param") ||
        decide (String.ofList (Text.strip label) = "option")) = false := by simpa using hlabel
    simp [hlabel', hlabel, pure, Except.pure]

theorem resolveNamed_ne_error {classes : List ApiClass} (hnames : ∀ c ∈ classes, c.name ≠ "")
    (className memberName : String) (cause : Cause) :
    resolveNamed classes className memberName ≠ .error cause := by
  intro h
  unfold resolveNamed at h
  cases hclass : class? classes className with
  | none => simp [hclass, pure, Except.pure] at h
  | some c =>
    have hc : c ∈ classes := List.mem_reverse.mp (List.mem_of_find?_eq_some hclass)
    have hname : c.name = className := by simpa using List.find?_some hclass
    simp only [hclass] at h
    cases hinterface : Identifier.translate "interface" className none with
    | error cause' => exact hnames c hc (hname.trans (translate_error_iff.mp hinterface).1)
    | ok interface =>
      simp only [hinterface, bind, Except.bind] at h
      by_cases hmember : memberName = ""
      · simp [hmember, pure, Except.pure] at h
      · simp only [hmember, if_false] at h
        cases hm : member? c memberName with
        | none => simp [hm, pure, Except.pure] at h
        | some m =>
          obtain ⟨-, rfl⟩ := member?_some hm
          simp only [hm] at h
          cases htranslate : Identifier.translate m.kind m.name (some m) with
          | error cause' => exact hmember (translate_error_iff.mp htranslate).1
          | ok name => simp [htranslate, pure, Except.pure] at h

/-- **A link fails** if and only if it is one to an argument and names none. -/
theorem resolve_error_iff {classes : List ApiClass} (hnames : ∀ c ∈ classes, c.name ≠ "")
    (target : String) (cause : Cause) :
    resolve classes target = .error cause ↔
      NamesNoArgument target ∧ cause = .emptyName "argument" := by
  unfold resolve NamesNoArgument
  by_cases hcolon : ':' ∈ target.toList
  · obtain ⟨label, name, htarget, hlabel⟩ := List.eq_append_cons_of_mem hcolon
    simp only [List.contains_iff_mem.mpr hcolon, if_true]
    rw [htarget]
    simp only [partition_append hlabel]
    rw [resolveLabelled_error_iff]
    constructor
    · rintro ⟨hkind, hblank, rfl⟩
      exact ⟨⟨label, name, rfl, hlabel, hkind, hblank⟩, rfl⟩
    · rintro ⟨⟨label', name', heq, hlabel', hkind, hblank⟩, rfl⟩
      have hcut := congrArg (partition ':') heq
      rw [partition_append hlabel, partition_append hlabel'] at hcut
      obtain ⟨rfl, rfl⟩ := Prod.mk.inj hcut
      exact ⟨hkind, hblank, rfl⟩
  · have hcontains : target.toList.contains ':' = false := by simpa using hcolon
    simp only [hcontains, Bool.false_eq_true, if_false]
    refine iff_of_false (resolveNamed_ne_error hnames _ _ cause) ?_
    rintro ⟨⟨label, name, heq, -⟩, -⟩
    exact hcolon (by simp [heq])

end ApiSurface.CrossReference
