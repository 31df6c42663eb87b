import ApiSurface.Proofs.Comment.Markup
import ApiSurface.Proofs.CrossReference.Resolve
import ApiSurface.Proofs.Fallible
import ApiSurface.Proofs.Identifier.ValueName

/-!
# Links as XML

A link is replaced by an element with a name in an attribute. The name of a class or of a member is
made of identifiers of the description; that of an argument is what prose has behind the label.
-/

namespace ApiSurface.CrossReference

open Comment Identifier

/-! ### Plain names -/

/-- A name of ASCII letters, digits and `_`. -/
def IsPlainName (name : String) : Prop := ∀ c ∈ name.toList, isWordChar c = true ∨ c = '_'

/-- Classes with plain names, also of their members. -/
structure PlainNames (classes : List ApiClass) : Prop where
  ofClass : ∀ c ∈ classes, IsPlainName c.name
  ofMember : ∀ c ∈ classes, ∀ m ∈ c.members, IsPlainName m.name
  ofAlias : ∀ c ∈ classes, ∀ m ∈ c.members, ∀ preferred, m.preferredName = some preferred →
    IsPlainName preferred

/-- The characters of references to declarations with plain names. -/
def isReferenceChar (c : Char) : Bool := isWordChar c || c = '_' || c = '@' || c = '.'

theorem clean_of_isReferenceChar {c : Char} (h : isReferenceChar c = true) :
    c ≠ '<' ∧ c ≠ '&' ∧ c ≠ '"' := by
  refine ⟨?_, ?_, ?_⟩ <;> rintro rfl <;> exact absurd h (by decide)

theorem isXmlChar_of_isReferenceChar {c : Char} (h : isReferenceChar c = true) :
    isXmlChar c = true := by
  have hall : ∀ n < 128, isReferenceChar (Char.ofNat n) = true →
      isXmlChar (Char.ofNat n) = true := by decide +kernel
  have hascii : c.toNat < 128 := by
    simp only [isReferenceChar, Bool.or_eq_true, decide_eq_true_eq] at h
    rcases h with ((h | rfl) | rfl) | rfl
    · exact ascii_of_isWordChar h
    all_goals decide
  exact Text.forall_ascii (P := fun c => isReferenceChar c = true → isXmlChar c = true) hall
    hascii h

theorem isReferenceChar_of_isPlainName {name : String} (h : IsPlainName name) :
    ∀ c ∈ name.toList, isReferenceChar c = true := by
  intro c hc
  rcases h c hc with hword | rfl
  · simp [isReferenceChar, hword]
  · decide

theorem isPlainName_capitalize {name : String} (h : IsPlainName name) :
    IsPlainName (capitalize name) := by
  have hascii : ∀ c, isWordChar c = true ∨ c = '_' → c.toNat < 128 := by
    rintro c (hc | rfl)
    · exact ascii_of_isWordChar hc
    · decide
  have hupper : ∀ c, isWordChar c = true ∨ c = '_' →
      isWordChar c.toUpper = true ∨ c.toUpper = '_' := by
    rintro c (hc | rfl)
    · exact .inl (isWordChar_toUpper hc)
    · exact .inr (by decide)
  unfold IsPlainName capitalize
  rw [String.toList_ofList]
  exact Text.forall_mem_capitalize hascii hupper h

/-- **A reserved word** is as clean with `@` in front as without. -/
theorem mem_escapeReserved {name : String} {c : Char} (h : c ∈ (escapeReserved name).toList) :
    c = '@' ∨ c ∈ name.toList := by
  unfold escapeReserved at h
  split at h
  · rw [String.toList_append, List.mem_append] at h
    exact h.imp_left fun h => by simpa using h
  · exact .inr h

/-- **The identifier** that is made from plain names. -/
theorem isReferenceChar_of_translate {kind name identifier : String} {m : Option Member}
    (h : Identifier.translate kind name m = .ok identifier) (hname : IsPlainName name)
    (halias : ∀ preferred, m.bind (·.preferredName) = some preferred → IsPlainName preferred) :
    ∀ c ∈ identifier.toList, isReferenceChar c = true := by
  have happend : ∀ {s t : String}, (∀ c ∈ s.toList, isReferenceChar c = true) →
      (∀ c ∈ t.toList, isReferenceChar c = true) →
      ∀ c ∈ (s ++ t).toList, isReferenceChar c = true := by
    intro s t hs ht
    rw [String.toList_append]
    exact List.forall_mem_append.mpr ⟨hs, ht⟩
  have hcapital := isReferenceChar_of_isPlainName (isPlainName_capitalize hname)
  have hassumed : ∀ c ∈ (Identifier.translate.assumed kind name m).toList,
      isReferenceChar c = true := by
    unfold Identifier.translate.assumed
    split
    · exact happend (Text.forall_mem_of_all (by decide)) hcapital
    split
    · exact happend hcapital (Text.forall_mem_of_all (by decide))
    split
    · exact happend (Text.forall_mem_of_all (by decide)) hcapital
    · exact hcapital
  unfold Identifier.translate at h
  split at h
  · cases h
  split at h
  · obtain rfl := Except.ok.inj h
    intro c hc
    rcases mem_escapeReserved hc with rfl | hc
    · decide
    · exact isReferenceChar_of_isPlainName hname c hc
  split at h
  · next preferred hpreferred =>
    split at h
    · obtain rfl := Except.ok.inj h
      exact isReferenceChar_of_isPlainName (halias preferred hpreferred)
    · obtain rfl := Except.ok.inj h
      exact hassumed
  · obtain rfl := Except.ok.inj h
    exact hassumed

/-! ### Links -/

/-- A link to the argument with a name, behind `param:` or `option:`. -/
def NamesArgument (target name : String) : Prop :=
  ∃ label rest, target.toList = label ++ ':' :: rest ∧ ':' ∉ label ∧
    String.ofList (Text.strip label) ∈ ["param", "option"] ∧ name = String.ofList (Text.strip rest)

theorem NamesArgument.unique {target name name' : String} (h : NamesArgument target name)
    (h' : NamesArgument target name') : name = name' := by
  obtain ⟨label, rest, htarget, hlabel, -, rfl⟩ := h
  obtain ⟨label', rest', htarget', hlabel', -, rfl⟩ := h'
  have hcut := congrArg (partition ':') (htarget.symm.trans htarget')
  rw [partition_append hlabel, partition_append hlabel'] at hcut
  rw [(Prod.mk.inj hcut).2]

theorem NamesArgument.mem_target {target name : String} (h : NamesArgument target name) {c : Char}
    (hc : c ∈ name.toList) : c ∈ target.toList := by
  obtain ⟨label, rest, htarget, -, -, rfl⟩ := h
  have hrest : c ∈ rest := by
    rw [String.toList_ofList] at hc
    unfold Text.strip Text.stripEnd Text.stripStart at hc
    have hstart := (List.dropWhile_sublist _).subset (List.mem_reverse.mp hc)
    exact (List.dropWhile_sublist _).subset (List.mem_reverse.mp hstart)
  rw [htarget]
  exact List.mem_append_right label (List.mem_cons_of_mem ':' hrest)

theorem resolveLabelled_some {label rest : List Char} {markup : String}
    (h : resolveLabelled label rest = .ok (some markup)) :
    String.ofList (Text.strip label) ∈ ["param", "option"] ∧
      markup = argumentElement (escapeReserved (String.ofList (Text.strip rest))) := by
  unfold resolveLabelled at h
  simp only at h
  split at h
  · next hkind =>
    obtain ⟨name, hname, hret⟩ := exists_ok_of_bind h
    cases hret
    unfold Identifier.translate at hname
    split at hname
    · cases hname
    · rw [if_pos rfl] at hname
      cases hname
      exact ⟨by simpa using hkind, rfl⟩
  · cases h

theorem toList_seeElement (value : String) : (seeElement value).toList =
    "<see cref=\"".toList ++ (value.toList ++ "\"/>".toList) :=
  Text.toList_between _ value _

theorem toList_argumentElement (value : String) : (argumentElement value).toList =
    "<paramref name=\"".toList ++ (value.toList ++ "\"/>".toList) :=
  Text.toList_between _ value _

theorem resolveNamed_some {classes : List ApiClass} (hplain : PlainNames classes)
    {className memberName markup : String}
    (h : resolveNamed classes className memberName = .ok (some markup)) :
    ∃ value, markup = seeElement value ∧ ∀ c ∈ value.toList, isReferenceChar c = true := by
  unfold resolveNamed at h
  cases hclass : class? classes className with
  | none =>
    rw [hclass] at h
    cases h
  | some c =>
    have hc : c ∈ classes := List.mem_reverse.mp (List.mem_of_find?_eq_some hclass)
    have hclassName : c.name = className := by simpa using List.find?_some hclass
    rw [hclass] at h
    obtain ⟨interface, hinterface, hrest⟩ := exists_ok_of_bind h
    have hchars := isReferenceChar_of_translate hinterface
      (hclassName ▸ hplain.ofClass c hc) nofun
    split at hrest
    · cases hrest
      exact ⟨interface, rfl, hchars⟩
    · cases hm : member? c memberName with
      | none =>
        rw [hm] at hrest
        cases hrest
      | some m =>
        rw [hm] at hrest
        obtain ⟨name, hname, hret⟩ := exists_ok_of_bind hrest
        have hmem := (member?_some hm).1
        have hmember := isReferenceChar_of_translate hname (hplain.ofMember c hc m hmem)
          (hplain.ofAlias c hc m hmem)
        cases hret
        refine ⟨interface ++ "." ++ name, rfl, ?_⟩
        rw [Text.toList_between]
        exact List.forall_mem_append.mpr
          ⟨hchars, List.forall_mem_append.mpr ⟨Text.forall_mem_of_all (by decide), hmember⟩⟩

/-- **What a link is replaced by**: a reference to the argument that it names, or one to a declaration
with a plain name. -/
theorem resolve_cases {classes : List ApiClass} (hplain : PlainNames classes)
    {target markup : String} (h : resolve classes target = .ok (some markup)) :
    (∃ name, NamesArgument target name ∧ markup = argumentElement (escapeReserved name)) ∨
      (∀ name, ¬ NamesArgument target name) ∧
        ∃ value, markup = seeElement value ∧ ∀ c ∈ value.toList, isReferenceChar c = true := by
  unfold resolve at h
  by_cases hcolon : ':' ∈ target.toList
  · obtain ⟨label, rest, htarget, hlabel⟩ := List.eq_append_cons_of_mem hcolon
    simp only [List.contains_iff_mem.mpr hcolon, if_true] at h
    simp only [htarget, partition_append hlabel] at h
    obtain ⟨hkind, hmarkup⟩ := resolveLabelled_some h
    exact .inl ⟨_, ⟨label, rest, htarget, hlabel, hkind, rfl⟩, hmarkup⟩
  · have hcontains : target.toList.contains ':' = false := by simpa using hcolon
    simp only [hcontains, Bool.false_eq_true, if_false] at h
    refine .inr ⟨?_, resolveNamed_some hplain h⟩
    rintro name ⟨label, rest, htarget, -⟩
    exact hcolon (by simp [htarget])

/-! ### Elements -/

theorem isClean_escapeReserved_iff (name : String) :
    IsClean (escapeReserved name) ↔ IsClean name := by
  unfold escapeReserved
  split
  · unfold IsClean
    rw [String.toList_append, List.forall_mem_append]
    exact and_iff_right (Text.forall_mem_of_all (by decide))
  · exact Iff.rfl

theorem argumentElement_ne_seeElement {value value' : String} {cs ds : List Char} :
    (argumentElement value).toList ++ cs ≠ (seeElement value').toList ++ ds := by
  intro h
  rw [toList_argumentElement, toList_seeElement] at h
  have hsecond : some 'p' = some 's' := congrArg (fun cs : List Char => cs[1]?) h
  exact absurd hsecond (by decide)

theorem name_argumentElement {value value' : String} {cs ds : List Char}
    (h : (argumentElement value).toList ++ cs = (argumentElement value').toList ++ ds) :
    value.toList ++ '"' :: ("/>".toList ++ cs) = value'.toList ++ '"' :: ("/>".toList ++ ds) := by
  rw [toList_argumentElement, toList_argumentElement, List.append_assoc, List.append_assoc,
    List.append_assoc, List.append_assoc] at h
  exact List.append_cancel_left h

theorem isReference_argumentElement_iff (value : String) :
    IsReference (argumentElement value) ↔ IsClean value := by
  refine ⟨fun h => ?_, .argument⟩
  generalize hmarkup : argumentElement value = markup at h
  have hlist := congrArg (fun markup : String => markup.toList ++ []) hmarkup
  cases h with
  | see h => exact absurd hlist argumentElement_ne_seeElement
  | @argument value' h =>
    have hvalue := List.append_cancel_right (name_argumentElement hlist)
    rwa [String.toList_injective hvalue]

/-- Without a quote in it, the name in a reference to an argument is clean if the reference is
content. -/
theorem isClean_of_content {value : String} (h : Content (argumentElement value).toList)
    (hquote : '"' ∉ value.toList) : IsClean value := by
  obtain ⟨markup, rest, hsplit, helement⟩ := h.exists_element (by
    rw [toList_argumentElement]
    rfl)
  rw [← List.append_nil (argumentElement value).toList] at hsplit
  cases helement with
  | see h => exact absurd hsplit argumentElement_ne_seeElement
  | @argument value' h =>
    have hquote' : '"' ∉ value'.toList := fun hc => (h _ hc).2.2 rfl
    have hcut := congrArg (partition '"') (name_argumentElement hsplit)
    rw [partition_append hquote, partition_append hquote'] at hcut
    rwa [String.toList_injective (Prod.mk.inj hcut).1]

/-- **What a link is replaced by** has the characters of its target and characters of XML. -/
theorem isXmlChar_of_resolve {classes : List ApiClass} (hplain : PlainNames classes)
    {target markup : String} (h : resolve classes target = .ok (some markup))
    (hxml : ∀ c ∈ target.toList, isXmlChar c = true) : ∀ c ∈ markup.toList, isXmlChar c = true := by
  have hbetween : ∀ {front value back : String}, front.toList.all isXmlChar = true →
      back.toList.all isXmlChar = true → (∀ c ∈ value.toList, isXmlChar c = true) →
      ∀ c ∈ (front ++ value ++ back).toList, isXmlChar c = true := by
    intro front value back hfront hback hvalue
    rw [Text.toList_between, List.forall_mem_append, List.forall_mem_append]
    exact ⟨List.all_eq_true.mp hfront, hvalue, List.all_eq_true.mp hback⟩
  rcases resolve_cases hplain h with ⟨name, hname, rfl⟩ | ⟨-, value, rfl, hvalue⟩
  · refine hbetween (by decide) (by decide) fun c hc => ?_
    rcases mem_escapeReserved hc with rfl | hc
    · decide
    · exact hxml c (hname.mem_target hc)
  · refine hbetween (by decide) (by decide) fun c hc => ?_
    exact isXmlChar_of_isReferenceChar (hvalue c hc)

/-- **What a link is replaced by** is an element if and only if no argument that it names has markup
in its name. -/
theorem isReference_iff {classes : List ApiClass} (hplain : PlainNames classes)
    {target markup : String} (h : resolve classes target = .ok (some markup)) :
    IsReference markup ↔ ∀ name, NamesArgument target name → IsClean name := by
  rcases resolve_cases hplain h with ⟨name, hname, rfl⟩ | ⟨hno, value, rfl, hvalue⟩
  · rw [isReference_argumentElement_iff, isClean_escapeReserved_iff]
    constructor
    · intro hclean name' hname'
      rwa [hname'.unique hname]
    · intro hclean
      exact hclean name hname
  · refine iff_of_true (.see fun c hc => clean_of_isReferenceChar (hvalue c hc)) ?_
    intro name hname
    exact absurd hname (hno name)

/-- **Links as XML.**  Let the names of classes, members and aliases be plain.

* What a link is replaced by is an empty element with a clean attribute if and only if the name of
  the argument, in a link to one, is clean.
* A word is well-formed content if the names of arguments in its links are, and its characters are
  such that XML has. -/
theorem resolve_content_iff {classes : List ApiClass} (hplain : PlainNames classes) :
    (∀ target markup, resolve classes target = .ok (some markup) →
      (IsReference markup ↔ ∀ name, NamesArgument target name → IsClean name)) ∧
    ∀ token markup, renderToken (resolve classes) token = .ok markup →
      (∀ c ∈ token, isXmlChar c = true) →
      (∀ target ∈ (pieces token).filterMap Piece.target?, ∀ name, NamesArgument target name →
        IsClean name) →
      Content markup.toList := by
  refine ⟨fun target markup h => isReference_iff hplain h, ?_⟩
  intro token markup h hxml hclean
  refine content_renderToken h hxml fun target htarget answer hanswer => ?_
  have hchars : ∀ c ∈ target.toList, isXmlChar c = true :=
    fun c hc => hxml c (mem_token_of_mem_target htarget hc)
  exact ⟨(isReference_iff hplain hanswer).mpr (hclean target htarget),
    isXmlChar_of_resolve hplain hanswer hchars⟩

/-- A class with a member that has an alias. -/
def linkedClasses : List ApiClass :=
  [⟨"Page", [⟨"method", "go_back", .primitive "void", some "Back", true, [], [], false⟩], []⟩]

theorem plainNames_linkedClasses : PlainNames linkedClasses := by
  have hnames : IsPlainName "Page" ∧ IsPlainName "go_back" ∧ IsPlainName "Back" :=
    ⟨Text.forall_mem_of_all (by decide), Text.forall_mem_of_all (by decide),
      Text.forall_mem_of_all (by decide)⟩
  unfold linkedClasses
  constructor
  · simpa using hnames.1
  · simpa using hnames.2.1
  · simpa using hnames.2.2

theorem resolve_content_goBack :
    PlainNames linkedClasses ∧
    renderToken (resolve linkedClasses) "[Page.go_back]([param: if])<".toList =
      .ok "<see cref=\"IPage.Back\"/>(<paramref name=\"@if\"/>)&lt;" ∧
    Content "<see cref=\"IPage.Back\"/>(<paramref name=\"@if\"/>)&lt;".toList := by
  have hrender : renderToken (resolve linkedClasses) "[Page.go_back]([param: if])<".toList =
      .ok "<see cref=\"IPage.Back\"/>(<paramref name=\"@if\"/>)&lt;" := by decide +kernel
  refine ⟨plainNames_linkedClasses, hrender, ?_⟩
  refine (resolve_content_iff plainNames_linkedClasses).2 _ _ hrender
    (Text.forall_mem_of_all (by decide)) ?_
  intro target htarget name hname
  have htargets : (pieces "[Page.go_back]([param: if])<".toList).filterMap Piece.target? =
      ["Page.go_back", "param: if"] := by decide
  rw [htargets] at htarget
  have hclean : ∀ target ∈ ["Page.go_back", "param: if"], target.toList.all
      (fun c => decide (c ≠ '<' ∧ c ≠ '&' ∧ c ≠ '"')) = true := by decide
  intro c hc
  exact Text.forall_mem_of_all (hclean target htarget) c (hname.mem_target hc)

/-- The name of an argument is not escaped, so markup in it is markup in the comment. -/
theorem resolve_markupInName :
    resolve linkedClasses "param: a<b" = .ok (some "<paramref name=\"a<b\"/>") ∧
    ¬ IsReference "<paramref name=\"a<b\"/>" ∧
    renderToken (resolve linkedClasses) "[param: a<b]".toList =
      .ok "<paramref name=\"a<b\"/>" ∧
    ¬ Content "<paramref name=\"a<b\"/>".toList := by
  have hunclean : ¬ IsClean "a<b" := fun h => (h '<' (by decide)).1 rfl
  refine ⟨by decide +kernel, ?_, by decide +kernel, ?_⟩
  · intro h
    exact hunclean ((isReference_argumentElement_iff "a<b").mp h)
  · intro h
    exact hunclean (isClean_of_content h (by decide))

end ApiSurface.CrossReference
