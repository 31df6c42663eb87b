import ApiSurface.Proofs.Code.EnumValues
import ApiSurface.Proofs.CrossReference.Resolve
import ApiSurface.Proofs.Fallible
import ApiSurface.Proofs.Registry.Faults

/-!
# How rendering ends

Rendering has three kinds of partial steps: names are translated, types are lowered, and links are
resolved.  Whatever they are given, they fail with a cause of one of four categories, found at the
place that is rendered.
-/

namespace ApiSurface

/-- What can be wrong with what is rendered. -/
def renderingCategories : List Category := [.malformedType, .nameCollision, .unsupported, .emptyName]

/-! ### Names -/

theorem category_of_translate {kind name : String} {m : Option Member} {c : Cause}
    (h : Identifier.translate kind name m = .error c) : c.category = .emptyName := by
  obtain ⟨-, rfl⟩ := CrossReference.translate_error_iff.mp h
  rfl

/-- **An enum** cannot be declared if one of its values has no name, or two have one. -/
theorem enumDeclaration_error {indent key : String} {literals : List String} {report : Report}
    (h : enumDeclaration indent key literals = .error report) :
    report.cause.category ∈ [.emptyName, .nameCollision] := by
  obtain ⟨before, literal, after, -, -, hfault⟩ := exists_enumFault h
  cases hfault with
  | nameless => exact List.mem_cons_self
  | repeated => exact List.mem_cons_of_mem _ List.mem_cons_self

/-! ### Links -/

namespace CrossReference

/-- **A link that fails** has an empty name in it. -/
theorem category_of_resolve {classes : List ApiClass} {target : String} {c : Cause}
    (h : resolve classes target = .error c) : c.category = .emptyName := by
  unfold resolve at h
  simp only at h
  split at h
  · obtain ⟨-, -, rfl⟩ := resolveLabelled_error_iff.mp h
    rfl
  · unfold resolveNamed at h
    split at h
    · cases h
    · rcases bind_eq_error_iff.mp h with hinterface | ⟨interface, -, hmember⟩
      · exact category_of_translate hinterface
      · split at hmember
        · cases hmember
        · split at hmember
          · cases hmember
          · rcases bind_eq_error_iff.mp hmember with hname | ⟨name, -, hret⟩
            · exact category_of_translate hname
            · cases hret

end CrossReference

namespace Comment

variable {style : ProseStyle} {c : Cause}

theorem renderPieces_error {links : LinkResolver} {ps : List Piece}
    (h : renderPieces links ps = .error c) : ∃ target, links target = .error c := by
  induction ps with
  | nil => cases h
  | cons p ps ih =>
    rcases bind_eq_error_iff.mp h with hp | ⟨first, -, hrest⟩
    · cases p with
      | char _ => cases hp
      | link target =>
        rcases bind_eq_error_iff.mp hp with htarget | ⟨answer, -, hanswer⟩
        · exact ⟨_, htarget⟩
        · cases answer <;> cases hanswer
    · rcases bind_eq_error_iff.mp hrest with hps | ⟨later, -, hret⟩
      · exact ih hps
      · cases hret

theorem prose_error {text : String} (h : style.prose text = .error c) :
    ∃ target, style.links target = .error c := by
  rcases bind_eq_error_iff.mp h with hwords | ⟨ws, -, hret⟩
  · obtain ⟨token, -, htoken⟩ := mapM_eq_error_iff.mp hwords
    exact renderPieces_error htoken
  · cases hret

theorem block_error {several : Bool} {n : DocNode} (h : style.block several n = .error c) :
    ∃ target, style.links target = .error c := by
  unfold ProseStyle.block at h
  split at h
  · cases h
  · split at h
    · rcases bind_eq_error_iff.mp h with hprose | ⟨own, -, hret⟩
      · exact prose_error hprose
      · cases hret
    · exact prose_error h

theorem summaryFrom_error {several : Bool} {openList : Option String} {ns : List DocNode}
    (h : style.summaryFrom several openList ns = .error c) :
    ∃ target, style.links target = .error c := by
  induction ns generalizing openList with
  | nil => cases h
  | cons n ns ih =>
    rw [ProseStyle.summaryFrom] at h
    split at h
    · rcases bind_eq_error_iff.mp h with hprose | ⟨own, -, hrest⟩
      · exact prose_error hprose
      · rcases bind_eq_error_iff.mp hrest with hlater | ⟨later, -, hret⟩
        · exact ih hlater
        · cases hret
    · rcases bind_eq_error_iff.mp h with hblock | ⟨own, -, hrest⟩
      · exact block_error hblock
      · rcases bind_eq_error_iff.mp hrest with hlater | ⟨later, -, hret⟩
        · exact ih hlater
        · cases hret

/-- **A comment fails** where one of its links does. -/
theorem docLines_error {nodes : List DocNode} (h : style.docLines nodes = .error c) :
    ∃ target, style.links target = .error c := by
  rcases bind_eq_error_iff.mp h with hsummary | ⟨summary, -, hrest⟩
  · unfold ProseStyle.summary at hsummary
    simp only at hsummary
    split at hsummary
    · cases hsummary
    · rcases bind_eq_error_iff.mp hsummary with hbody | ⟨own, -, hret⟩
      · exact summaryFrom_error hbody
      · cases hret
  · rcases bind_eq_error_iff.mp hrest with hremarks | ⟨remarks, -, hret⟩
    · unfold ProseStyle.remarks at hremarks
      simp only at hremarks
      split at hremarks
      · cases hremarks
      · rcases bind_eq_error_iff.mp hremarks with htexts | ⟨own, -, hret⟩
        · obtain ⟨n, -, hn⟩ := mapM_eq_error_iff.mp htexts
          exact prose_error hn
        · cases hret
    · cases hret

end Comment

/-! ### Declarations -/

/-- Whatever rendering can ask for at a place, or fail with at it, has a property. -/
structure Allows (A : Request → Prop) (F : Fault → Prop) (place : Place) : Prop where
  blame : ∀ c, c.category ∈ renderingCategories → F (place.blame c)
  shape : ∀ key shape, A ⟨.shape key shape, place⟩
  triState : A ⟨.predefined Lowering.triState, place⟩

section Declarations

variable {A : Request → Prop} {F : Fault → Prop} {place : Place}

theorem ends_translate (h : Allows A F place) {kind name : String} {m : Option Member} :
    (Plan.lift place (Identifier.translate kind name m)).Ends A F :=
  .lift fun c hc => h.blame c (by rw [category_of_translate hc]; decide)

open Lowering in
/-- **Lowering** asks and fails at the place, at any depth of the type. -/
theorem ends_ref (h : Allows A F place) (v : Vocabulary) (owner : String) (member : Option Member)
    (e : TypeExpr) : (ref v place owner member e).Ends A F := by
  have hunion : ∀ members, (unionRef v place owner member members).Ends A F := by
    intro members
    unfold unionRef
    split
    · exact (Plan.Ends.request h.triState).bind fun _ => .pure _
    · split
      · exact (ends_translate h).bind fun _ =>
          (Plan.Ends.request (h.shape _ _)).bind fun _ => .pure _
      · split
        · exact .blame (h.blame _ (by simp [Cause.category, renderingCategories]))
        · exact .pure _
  have hobject : ∀ properties, (objectRef place owner member properties).Ends A F := by
    intro properties
    unfold objectRef
    split
    · exact .pure _
    · cases member with
      | none => exact .blame (h.blame _ (by decide))
      | some m => exact (Plan.Ends.request (h.shape _ _)).bind fun _ => .pure _
  induction e using Lowering.ref.induct with
  | case1 inner ih =>
    rw [ref]
    exact ih.bind fun _ => .pure _
  | case2 rest hrest =>
    rw [ref]
    · exact .blame (h.blame _ (by simp [Cause.category, renderingCategories]))
    · exact hrest
  | case3 members hnull =>
    rw [ref]
    · exact hunion members
    · exact hnull
  | case4 element inner hnested =>
    rw [ref, hnested]
    exact .blame (h.blame _ (by decide))
  | case5 element hone ih =>
    rw [ref]
    split
    · exact .blame (h.blame _ (by decide))
    · exact ih.bind fun _ => .pure _
  | case6 name type hlook =>
    rw [ref, hlook]
    exact .pure _
  | case7 name hlook =>
    rw [ref, hlook]
    exact .blame (h.blame _ (by simp [Cause.category, renderingCategories]))
  | case8 text =>
    rw [ref]
    exact .blame (h.blame _ (by simp [Cause.category, renderingCategories]))
  | case9 properties =>
    rw [ref]
    exact hobject properties
  | case10 key value ihk ihv =>
    rw [ref]
    exact ihk.bind fun _ => ihv.bind fun _ => .pure _
  | case11 name =>
    rw [ref]
    exact .pure _

variable {cx : Context}

/-- **Arguments** ask and fail at the place they are rendered for and, as far as their types are
concerned, at the method. -/
theorem ends_argumentsFrom {owner method : String} (hplace : Allows A F place)
    (htype : ∀ name, Allows A F ⟨owner, method, some name⟩) (taken : List String)
    (args : List Member) : (cx.argumentsFrom place owner method taken args).Ends A F := by
  induction args generalizing taken with
  | nil => exact .pure _
  | cons arg args ih =>
    unfold Context.argumentsFrom
    refine (ends_translate hplace).bind fun name => ?_
    split
    · exact .blame (hplace.blame _ (by simp [Cause.category, renderingCategories]))
    · refine (ends_ref (htype arg.name) _ _ _ arg.type).bind fun type => ?_
      exact (ih (name :: taken)).bind fun later => .pure _

/-- **The declaration** of a member asks and fails at the member, also for the types of its
arguments. -/
theorem ends_declaration {owner : String} {m : Member}
    (h : ∀ argument, Allows A F ⟨owner, m.name, argument⟩) :
    (cx.declaration owner m).Ends A F := by
  have htype : (cx.typeOf owner m).Ends A F := ends_ref (h none) _ _ _ m.type
  unfold Context.declaration
  by_cases hp : m.kind = "property"
  · rw [if_pos hp]
    exact htype.bind fun type => (ends_translate (h none)).bind fun name => .pure _
  rw [if_neg hp]
  by_cases he : m.kind = "event"
  · rw [if_pos he]
    exact htype.bind fun type => (ends_translate (h none)).bind fun name => .pure _
  rw [if_neg he]
  by_cases hm : m.kind = "method"
  · rw [if_pos hm]
    refine htype.bind fun type => (ends_translate (h none)).bind fun name => ?_
    have hargs : (cx.arguments ⟨owner, m.name, none⟩ owner m).Ends A F :=
      ends_argumentsFrom (h none) (fun name => h (some name)) [] (leaves m.args)
    exact hargs.bind fun arguments => .pure _
  · rw [if_neg hm]
    exact .blame ((h none).blame _ (by simp [Cause.category, renderingCategories]))

section Documented

variable (hlinks : ∀ target c, cx.links target = .error c → F (({} : Place).blame c))

include hlinks

theorem ends_docLines (nodes : List DocNode) : (cx.docLines nodes).Ends A F := by
  refine .lift fun c h => ?_
  obtain ⟨target, htarget⟩ := Comment.docLines_error h
  exact hlinks target c htarget

theorem ends_memberLines {owner : String} {m : Member}
    (h : ∀ argument, Allows A F ⟨owner, m.name, argument⟩) :
    (cx.memberLines owner m).Ends A F :=
  (ends_declaration h).bind fun _ => (ends_docLines hlinks m.doc).bind fun _ => .pure _

theorem ends_interface (h : ∀ place, Allows A F place) (c : ApiClass) :
    (cx.interface c).Ends A F :=
  (ends_translate (h _)).bind fun _ => (ends_docLines hlinks c.doc).bind fun _ =>
    (Plan.Ends.forEach fun _ _ => ends_memberLines hlinks fun _ => h _).bind fun _ => .pure _

theorem ends_resultProperty {key : String} {p : Member} (h : Allows A F ⟨key, p.name, none⟩) :
    (cx.resultProperty key p).Ends A F :=
  (ends_ref h _ _ _ p.type).bind fun _ => (ends_translate h).bind fun _ =>
    (ends_docLines hlinks p.doc).bind fun _ => .pure _

end Documented

end Declarations

/-! ### Faults -/

section Faults

variable {predefined : List (String × List String)} {cx : Context}

theorem reportsOf_links
    (hlinks : ∀ target c, cx.links target = .error c → c.category = .emptyName) (target : String)
    (c : Cause) (h : cx.links target = .error c) :
    (({} : Place).blame c).ReportsOf renderingCategories :=
  Place.reportsOf_blame (by rw [hlinks target c h]; decide)

variable (htri : Lowering.triState ∈ predefined.map (·.1))

include htri

/-- Where the enum for three states is predefined, everything that is asked for is known. -/
theorem allows_failsIn (place : Place) :
    Allows (Plan.Known predefined (Fault.ReportsOf renderingCategories))
      (Fault.ReportsOf renderingCategories) place := by
  have htaken : ∀ key present added,
      (place.blame (.nameTaken key present added)).ReportsOf renderingCategories :=
    fun _ _ _ => Place.reportsOf_blame (by simp [Cause.category, renderingCategories])
  refine ⟨fun c => Place.reportsOf_blame, fun key shape => ⟨rfl, htaken⟩, ⟨?_, htaken⟩⟩
  obtain ⟨entry, hentry, hname⟩ := List.mem_map.mp htri
  show ((predefined.reverse.lookup Lowering.triState).map _).isSome = true
  rw [Option.isSome_map]
  by_contra hno
  have hnone := Option.not_isSome_iff_eq_none.mp hno
  refine lookup_eq_none_iff_not_mem.mp hnone (List.mem_map.mpr ⟨entry, ?_, hname⟩)
  exact List.mem_reverse.mpr hentry

variable (hlinks : ∀ target c, cx.links target = .error c → c.category = .emptyName)

include hlinks

/-- **An interface** fails in the categories of rendering. -/
theorem failsIn_interface (c : ApiClass) :
    (cx.interface c).FailsIn predefined (Fault.ReportsOf renderingCategories) :=
  ends_interface (reportsOf_links hlinks) (allows_failsIn htri) c

/-- **A synthesized declaration** fails in the categories of rendering. -/
theorem failsIn_synthesized (key : String) (shape : Shape) :
    (cx.synthesized key shape).FailsIn predefined (Fault.ReportsOf renderingCategories) := by
  cases shape with
  | object properties =>
    exact (Plan.Ends.forEach fun p _ => ends_resultProperty (reportsOf_links hlinks)
      (allows_failsIn htri _)).bind fun _ => .pure _
  | enum values =>
    refine .ofExcept fun fault h => ?_
    cases hdeclared : enumDeclaration cx.settings.indent key values with
    | ok d =>
      rw [hdeclared] at h
      cases h
    | error report =>
      rw [hdeclared] at h
      obtain rfl : Fault.report report = fault := Except.error.inj h
      have hreport : (Fault.report report).ReportsOf [.emptyName, .nameCollision] :=
        ⟨report, rfl, enumDeclaration_error hdeclared⟩
      exact hreport.mono (by decide)

end Faults

end ApiSurface
