import ApiSurface.Proofs.CrossReference.Resolve
import ApiSurface.Proofs.Generation.Phases

/-!
# Links to members and the names they are declared under

A link to a member is written with the identifier that is made from its name.  The declaration of
the member has the same identifier, with `Get` in front of it where the member is a getter.
-/

namespace ApiSurface

open Generation

theorem get_append_ne (name : String) : "Get" ++ name ≠ name := by
  intro h
  have hlength := congrArg String.length h
  rw [String.length_append] at hlength
  have hget : "Get".length = 3 := rfl
  omega

/-- **A link to a member** names the interface of the class, and the identifier from which the name
in the line of the member is made. -/
theorem Phases.link_of_member {settings : Settings} {classes : List ApiClass} {names : ClassNames}
    {qs : List Request} {ds : List Declaration} {v : Visit Declaration}
    (h : Phases settings classes names qs ds v) (hnd : (classes.map (·.name)).Nodup)
    {c : ApiClass} (hc : c ∈ classes) {m : Member}
    (hm : CrossReference.member? c m.name = some m) (hname : m.name ≠ "")
    (hdot : '.' ∉ c.name.toList) (hcolon : ':' ∉ c.name.toList) (hcolon' : ':' ∉ m.name.toList) :
    ∃ d shown s block linked, (c, d) ∈ classes.zip ds ∧
      ShowsInterface (namedContext settings classes) c shown d ∧
      (m, s, block) ∈ c.members.zip shown ∧
      CrossReference.resolve classes (c.name ++ "." ++ m.name) =
        .ok (some (CrossReference.seeElement (d.name ++ "." ++ linked))) ∧
      s.name = if IsGetter m s.type.text linked then "Get" ++ linked else linked := by
  have hinterfaces := h.interface_of_class
  rw [h.context_eq] at hinterfaces
  obtain ⟨d, hd, part, hyield, -⟩ := exists_zip_of_forall₂ hinterfaces hc
  obtain ⟨shown, hshown, -⟩ := yields_interface hyield
  obtain ⟨⟨s, block⟩, hs, hmember⟩ :=
    exists_zip_of_forall₂ hshown.members (CrossReference.member?_some hm).1
  obtain ⟨linked, hlinked, hdeclared⟩ := hmember.declares.name
  refine ⟨d, shown, s, block, linked, hd, hshown, hs, ?_, hdeclared⟩
  rw [CrossReference.resolve_member hnd hc hm hname hdot hcolon hcolon', hshown.name, hlinked]
  rfl

/-- **A link names the declaration of a member if and only if the member is no getter.**  After a
run over classes with distinct names, a link to the last member of a name resolves to the interface
of the class and to an identifier; a getter is declared under this identifier with `Get` in front of
it, any other member under the identifier itself. -/
theorem link_eq_declared_iff {settings : Settings} {classes : List ApiClass} {g : Generated}
    (hg : (generate settings classes).outcome = .ok g) (hnd : (classes.map (·.name)).Nodup)
    {c : ApiClass} (hc : c ∈ classes) {m : Member}
    (hm : CrossReference.member? c m.name = some m) (hname : m.name ≠ "")
    (hdot : '.' ∉ c.name.toList) (hcolon : ':' ∉ c.name.toList) (hcolon' : ':' ∉ m.name.toList) :
    ∃ d shown s block linked, (c, d) ∈ classes.zip g.declarations ∧
      ShowsInterface (namedContext settings classes) c shown d ∧
      (m, s, block) ∈ c.members.zip shown ∧
      CrossReference.resolve classes (c.name ++ "." ++ m.name) =
        .ok (some (CrossReference.seeElement (d.name ++ "." ++ linked))) ∧
      (s.name = linked ↔ ¬ IsGetter m s.type.text linked) ∧
      (IsGetter m s.type.text linked → s.name = "Get" ++ linked) := by
  obtain ⟨names, qs, ds, v, h, rfl⟩ := generate_ok_iff.mp hg
  obtain ⟨d, shown, s, block, linked, hd, hshown, hs, hlink, hdeclared⟩ :=
    h.link_of_member hnd hc hm hname hdot hcolon hcolon'
  refine ⟨d, shown, s, block, linked, ?_, hshown, hs, hlink, ?_, ?_⟩
  · have hlength : classes.length = ds.length := h.interface_of_class.length_eq
    have hzip : (classes ++ []).zip (ds ++ v.results) = classes.zip ds ++ [].zip v.results :=
      List.zip_append hlength
    rw [List.append_nil, List.zip_nil_left, List.append_nil] at hzip
    exact hzip ▸ hd
  · by_cases hgetter : IsGetter m s.type.text linked
    · rw [hdeclared, if_pos hgetter]
      exact iff_of_false (get_append_ne linked) (not_not_intro hgetter)
    · rw [hdeclared, if_neg hgetter]
      exact iff_of_true rfl hgetter
  · intro hgetter
    rw [hdeclared, if_pos hgetter]

/-- A method with an argument. -/
def openMethod : Member :=
  { kind := "method", name := "open", type := .primitive "string", isAsync := true,
    args := [{ kind := "argument", name := "url", type := .primitive "string" }] }

/-- A class with a getter, and a method that is none. -/
def titleClass : ApiClass :=
  { name := "Page"
    members := [{ kind := "method", name := "title", type := .primitive "string" }, openMethod] }

theorem link_eq_declared_openMethod : ∃ g, (generate {} [titleClass]).outcome = .ok g ∧
    ∃ (d : Declaration) (shown : List (Signature × List String)) (s : Signature)
      (block : List String) (linked : String), (titleClass, d) ∈ [titleClass].zip g.declarations ∧
      (openMethod, s, block) ∈ titleClass.members.zip shown ∧
      CrossReference.resolve [titleClass] (titleClass.name ++ "." ++ openMethod.name) =
        .ok (some (CrossReference.seeElement (d.name ++ "." ++ linked))) ∧
      s.name = linked := by
  have hrun : ∃ g, (generate {} [titleClass]).outcome = .ok g := ⟨_, rfl⟩
  obtain ⟨g, hg⟩ := hrun
  have hnd : ([titleClass].map (·.name)).Nodup := by decide
  have hm : CrossReference.member? titleClass openMethod.name = some openMethod := rfl
  obtain ⟨d, shown, s, block, linked, hd, -, hs, hlink, hiff, -⟩ :=
    link_eq_declared_iff hg hnd List.mem_cons_self hm (by decide) (by decide) (by decide)
      (by decide)
  have hno : ¬ IsGetter openMethod s.type.text linked := by
    rintro ⟨-, hargs, -⟩
    cases hargs
  exact ⟨g, hg, d, shown, s, block, linked, hd, hs, hlink, hiff.mpr hno⟩

/-- **A link to a getter** leads nowhere: no member has the identifier in it. -/
theorem link_titleClass : ∃ g, (generate {} [titleClass]).outcome = .ok g ∧
    g.declarations = [⟨"IPage", .interfaceType, ["public interface IPage", "\x7b",
      "    string GetTitle();", "", "    Task<string> OpenAsync(string url);", "\x7d"]⟩] ∧
    CrossReference.resolve [titleClass] "Page.title" =
      .ok (some "<see cref=\"IPage.Title\"/>") := by
  refine ⟨_, rfl, ?_, ?_⟩
  · decide +kernel
  · rfl

end ApiSurface
