import ApiSurface.Proofs.Declaration
import ApiSurface.Proofs.Protocol.Rendering

/-!
# References to objects

The type of a property may name an object of the protocol: as it is, with a mark for null or for an
array behind it, or as the items of an array, at any depth.
-/

namespace ApiSurface.Protocol

/-! ### Names in types -/

/-- **The name that a type refers to.**  A mark at the end of a text is never part of the name in
front of it: a `?` is always a mark, and so is a `[]`. -/
inductive RefersTo (name : String) : Value → Prop
  | bare (hnull : ¬ ['?'] <:+ name.toList) (harray : ¬ ['[', ']'] <:+ name.toList) :
    RefersTo name (.text name)
  | nullable (harray : ¬ ['[', ']'] <:+ name.toList) : RefersTo name (.text (name ++ "?"))
  | suffix {s : String} (h : RefersTo name (.text s)) : RefersTo name (.text (s ++ "[]"))
  | nullableSuffix {s : String} (h : RefersTo name (.text s)) :
    RefersTo name (.text (s ++ "[]?"))
  | mapping {fields : List (Value × Value)} {kind : String} {v : Value}
    (hkind : statedKind fields = .ok kind) (harray : kind.startsWith "array" = true)
    (hv : Value.field? "items" fields = some v) (h : RefersTo name v) :
    RefersTo name (.map fields)
  /-- An array whose items are not given refers to the empty name. -/
  | bareMapping {fields : List (Value × Value)} {kind : String}
    (hkind : statedKind fields = .ok kind) (harray : kind.startsWith "array" = true)
    (hv : Value.field? "items" fields = none) (hname : name = "") : RefersTo name (.map fields)

/-- What stands behind the name of a type: a mark for null, and one for each array around it. -/
def marks (isNullable : Bool) : (depth : Nat) → String
  | 0 => if isNullable then "?" else ""
  | depth + 1 => marks isNullable depth ++ "[]"

section Names

variable {objects : List String} {place : Place} {property : String}

/-- A name that ends in no array mark is read as a name, whatever comes behind it. -/
theorem reverse_ne_of_not_suffix {name : String} (h : ¬ ['[', ']'] <:+ name.toList)
    (rest : List Char) : name.toList.reverse ≠ ']' :: '[' :: rest := by
  intro hrest
  refine h ⟨rest.reverse, ?_⟩
  rw [← List.reverse_reverse name.toList, hrest]
  simp

theorem textType_name {name : String} (hnull : ¬ ['?'] <:+ name.toList)
    (harray : ¬ ['[', ']'] <:+ name.toList) :
    textType objects place name.toList.reverse =
      markedType objects place false name.toList.reverse name.toList.reverse := by
  have hmark : ∀ rest, name.toList.reverse ≠ '?' :: rest := by
    intro rest hrest
    refine hnull ⟨rest.reverse, ?_⟩
    rw [← List.reverse_reverse name.toList, hrest]
    simp
  rw [textType]
  · exact fun rest => hmark _
  · exact reverse_ne_of_not_suffix harray
  · exact hmark

theorem textType_nullable {name : String} (harray : ¬ ['[', ']'] <:+ name.toList) :
    textType objects place ('?' :: name.toList.reverse) =
      markedType objects place true ('?' :: name.toList.reverse) name.toList.reverse := by
  rw [textType]
  exact reverse_ne_of_not_suffix harray

theorem markedType_object {name t : String} (hname : name ∈ objects) {isNullable : Bool}
    {written : List Char}
    (h : (markedType objects place isNullable written name.toList.reverse).outcome = .ok t) :
    ∃ isMarked, t = name ++ marks isMarked 0 := by
  have htype : typeNamed? objects name = some name :=
    if_pos (List.contains_iff_mem.mpr hname)
  unfold markedType at h
  rw [List.reverse_reverse, String.ofList_toList, htype] at h
  obtain rfl := Except.ok.inj h
  by_cases hmark : (isNullable && isValueType name) = true
  · exact ⟨true, by rw [if_pos hmark]; rfl⟩
  · exact ⟨false, by rw [if_neg hmark]; exact String.append_empty.symm⟩

/-- A plan that puts an array mark behind a text comes to a text with the mark behind it. -/
theorem exists_of_array {p : Plan String} {t : String}
    (h : (do return (← p) ++ "[]" : Plan String).outcome = .ok t) :
    ∃ t', p.outcome = .ok t' ∧ t = t' ++ "[]" := by
  obtain ⟨qs, t', qs', hp, hret, -⟩ := Plan.yields_bind_iff.mp ⟨rfl, h⟩
  exact ⟨t', hp.2, (Plan.yields_pure_iff.mp hret).2⟩

/-- **A reference to an object** is written as its name, with marks behind it. -/
theorem RefersTo.written {name t : String} {v : Value} (href : RefersTo name v)
    (hname : name ∈ objects) (h : ShowsType objects place property v t) :
    ∃ isNullable depth, t = name ++ marks isNullable depth := by
  induction href generalizing t with
  | bare hnull harray =>
    cases h with
    | named h =>
      rw [textType_name hnull harray] at h
      obtain ⟨isMarked, rfl⟩ := markedType_object hname h
      exact ⟨isMarked, 0, rfl⟩
  | nullable harray =>
    cases h with
    | named h =>
      rw [String.toList_append, List.reverse_append] at h
      rw [show "?".toList.reverse = ['?'] from rfl, List.singleton_append,
        textType_nullable harray] at h
      obtain ⟨isMarked, rfl⟩ := markedType_object hname h
      exact ⟨isMarked, 0, rfl⟩
  | suffix _ ih =>
    cases h with
    | named h =>
      rw [String.toList_append, List.reverse_append] at h
      obtain ⟨t', ht', rfl⟩ := exists_of_array h
      obtain ⟨isNullable, depth, rfl⟩ := ih (.named ht')
      exact ⟨isNullable, depth + 1, String.append_assoc⟩
  | nullableSuffix _ ih =>
    cases h with
    | named h =>
      rw [String.toList_append, List.reverse_append] at h
      obtain ⟨t', ht', rfl⟩ := exists_of_array h
      obtain ⟨isNullable, depth, rfl⟩ := ih (.named ht')
      exact ⟨isNullable, depth + 1, String.append_assoc⟩
  | mapping hkind harray hv _ ih =>
    cases h with
    | enum hkind' henum =>
      rw [hkind] at hkind'
      cases hkind'
      rw [not_enum_of_array harray] at henum
      cases henum
    | array _ _ _ hv' ht =>
      rw [hv] at hv'
      cases hv'
      obtain ⟨isNullable, depth, rfl⟩ := ih ht
      exact ⟨isNullable, depth + 1, String.append_assoc⟩
    | bareArray _ _ _ hv' =>
      rw [hv] at hv'
      cases hv'
  | bareMapping hkind harray hv hempty =>
    cases h with
    | enum hkind' henum =>
      rw [hkind] at hkind'
      cases hkind'
      rw [not_enum_of_array harray] at henum
      cases henum
    | array _ _ _ hv' =>
      rw [hv] at hv'
      cases hv'
    | bareArray _ _ _ _ ht =>
      subst hempty
      obtain ⟨isMarked, rfl⟩ := @markedType_object objects place "" _ hname false [] ht
      exact ⟨isMarked, 1, String.append_assoc⟩

/-- A name is known if it is that of an object or of a built-in type. -/
def IsKnown (objects : List String) (name : String) : Prop :=
  name ∈ objects ∨ name ∈ builtinTypes.map (·.1)

theorem isKnown_of_markedType {isNullable : Bool} {written name : List Char} {t : String}
    (h : (markedType objects place isNullable written name).outcome = .ok t) :
    IsKnown objects (String.ofList name.reverse) := by
  unfold markedType at h
  split at h
  · cases h
  · rename_i type htype
    unfold typeNamed? at htype
    split at htype
    · rename_i hobject
      exact .inl (List.contains_iff_mem.mp hobject)
    · have hbuiltin := (lookup_eq_some_iff_mem (by decide)).mp htype
      exact .inr (List.mem_map.mpr ⟨_, hbuiltin, rfl⟩)

theorem exists_refersTo_text {cs : List Char} {t : String}
    (h : (textType objects place cs).outcome = .ok t) :
    ∃ name, RefersTo name (.text (String.ofList cs.reverse)) ∧ IsKnown objects name := by
  have hsuffix : ∀ {cs : List Char}, ['[', ']'] <:+ (String.ofList cs.reverse).toList →
      ∃ rest, cs = ']' :: '[' :: rest := by
    rintro cs ⟨rest, hrest⟩
    rw [String.toList_ofList] at hrest
    exact ⟨rest.reverse, by rw [← List.reverse_reverse cs, ← hrest]; simp⟩
  induction cs using textType.induct generalizing t with
  | case1 rest ih =>
    rw [textType] at h
    obtain ⟨t', ht', -⟩ := exists_of_array h
    obtain ⟨name, href, hknown⟩ := ih ht'
    refine ⟨name, ?_, hknown⟩
    have htext : String.ofList ('?' :: ']' :: '[' :: rest).reverse =
        String.ofList rest.reverse ++ "[]?" := by
      rw [← String.toList_inj]
      simp
    exact htext ▸ .nullableSuffix href
  | case2 rest ih =>
    rw [textType] at h
    obtain ⟨t', ht', -⟩ := exists_of_array h
    obtain ⟨name, href, hknown⟩ := ih ht'
    refine ⟨name, ?_, hknown⟩
    have htext : String.ofList (']' :: '[' :: rest).reverse =
        String.ofList rest.reverse ++ "[]" := by
      rw [← String.toList_inj]
      simp
    exact htext ▸ .suffix href
  | case3 name hno =>
    rw [textType] at h
    · refine ⟨String.ofList name.reverse, ?_, isKnown_of_markedType h⟩
      have htext : String.ofList ('?' :: name).reverse = String.ofList name.reverse ++ "?" := by
        rw [← String.toList_inj]
        simp
      refine htext ▸ .nullable fun hmark => ?_
      obtain ⟨rest, rfl⟩ := hsuffix hmark
      exact hno rest rfl
    · exact hno
  | case4 name h₁ h₂ h₃ =>
    rw [textType] at h
    · refine ⟨_, .bare (fun hmark => ?_) (fun hmark => ?_), isKnown_of_markedType h⟩
      · obtain ⟨rest, hrest⟩ := hmark
        rw [String.toList_ofList] at hrest
        refine h₃ rest.reverse ?_
        rw [← List.reverse_reverse name, ← hrest]
        simp
      · obtain ⟨rest, rfl⟩ := hsuffix hmark
        exact h₂ rest rfl
    · exact h₁
    · exact h₂
    · exact h₃

/-- **Every type that can be rendered** has an enum in it or refers to a name that is known. -/
theorem ShowsType.exists_refersTo {v : Value} {t : String}
    (h : ShowsType objects place property v t) :
    (inlineEnum? v).isSome = true ∨ ∃ name, RefersTo name v ∧ IsKnown objects name := by
  induction h with
  | @named s t h =>
    obtain ⟨name, href, hknown⟩ := exists_refersTo_text h
    rw [List.reverse_reverse, String.ofList_toList] at href
    exact .inr ⟨name, href, hknown⟩
  | enum hkind henum =>
    rw [inlineEnum?_map hkind, if_pos henum]
    exact .inl rfl
  | array hkind hno harray hv _ ih =>
    rw [inlineEnum?_map hkind, if_neg (ne_true_of_eq_false hno), if_pos harray, itemsEnum?_eq, hv,
      Option.bind_some]
    exact ih.imp_right fun ⟨name, href, hknown⟩ => ⟨name, .mapping hkind harray hv href, hknown⟩
  | bareArray hkind _ harray hv ht =>
    exact .inr ⟨"", .bareMapping hkind harray hv rfl,
      @isKnown_of_markedType objects place false [] [] _ ht⟩

end Names

/-! ### Names of classes -/

theorem Rendered.showsItem {settings : Settings} {items : List Item} {qs : List Request}
    {enums : List Declaration} (h : Rendered settings items qs enums) {item : Item}
    (hitem : item ∈ items) :
    ShowsItem settings.indent (objectNames items) item (classOf settings items item) := by
  obtain ⟨hshown, -⟩ := yields_forEach_uses (fun _ _ _ => yields_itemClass) h.classes
  exact List.forall₂_same.mp (List.forall₂_map_right_iff.mp hshown) item hitem

/-- **References to objects.**  In a run that succeeds, the type of a property has an enum in it, or
it refers to the name of an object or of a built-in type.  If it refers to the name of an object, the
line of the property shows this name as it is, with marks behind it.  The class of the object has the
name with its first letter capitalized, so the line names the class if and only if capitalizing the
name changes nothing. -/
theorem generateChannels_reference_iff {settings : Settings} {items : List Item} {c : Channels}
    (h : generateChannels settings items = .ok c) {item : Item} (hitem : item ∈ items)
    {property : String} {v : Value} (hproperty : (property, v) ∈ item.properties) :
    ((inlineEnum? v).isSome = true ∨
      ∃ name, RefersTo name v ∧ IsKnown (objectNames items) name) ∧
    ∀ target ∈ items, target.kind = "object" → RefersTo target.name v →
      classOf settings items item ∈ c.all ∧ classOf settings items target ∈ c.models ∧
      (∃ isNullable depth, Declaration.indentLine settings.indent
        (Context.propertyLine "public " (target.name ++ marks isNullable depth)
          (Identifier.capitalize property)) ∈ (classOf settings items item).lines) ∧
      (classOf settings items target).name = Identifier.capitalize target.name ∧
      (target.name = (classOf settings items target).name ↔
        Identifier.capitalize target.name = target.name) := by
  obtain ⟨qs, enums, hrendered, rfl⟩ := generateChannels_ok_iff.mp h
  obtain ⟨blocks, hblocks, hlines⟩ := (hrendered.showsItem hitem).lines
  obtain ⟨block, hblock, hshown⟩ := exists_of_forall₂_left hblocks hproperty
  cases hshown with
  | @intro name t v hshows henum =>
  refine ⟨hshows.exists_refersTo, fun target htarget hkind href => ?_⟩
  have hobject : target.name ∈ objectNames items := mem_objectNames.mpr ⟨target, htarget, hkind, rfl⟩
  have hname : (classOf settings items target).name = Identifier.capitalize target.name := by
    rw [(hrendered.showsItem htarget).name, hkind]
    unfold channelName
    by_cases hempty : target.name = ""
    · rw [hempty]
      rfl
    · rw [if_neg hempty, if_neg (by decide)]
  obtain ⟨isNullable, depth, rfl⟩ := href.written hobject hshows
  refine ⟨?_, ?_, ⟨isNullable, depth, ?_⟩, hname, ?_⟩
  · show _ ∈ (channelsOf settings items enums).all
    unfold Channels.all channelsOf
    simp only [List.mem_append, List.mem_map, List.mem_filter]
    cases hchannel : item.isChannel with
    | true => exact .inl (.inr ⟨item, ⟨hitem, hchannel⟩, rfl⟩)
    | false => exact .inl (.inl ⟨item, ⟨hitem, by simp [hchannel]⟩, rfl⟩)
  · refine List.mem_map.mpr ⟨target, List.mem_filter.mpr ⟨htarget, ?_⟩, rfl⟩
    unfold Item.isChannel
    rw [hkind]
    decide
  · rw [hlines]
    unfold Declaration.braced
    refine List.mem_append_left _ (List.mem_append_right _ (List.mem_map_of_mem ?_))
    exact Declaration.mem_separated hblock (by simp)
  · rw [hname]
    exact eq_comm

/-- An object that others refer to. -/
def pointItem : Item := ⟨"Point", "object", [("y", .text "number?")]⟩

/-- A list of lists of points, which may be missing. -/
def outlinesType : Value := .map [(.text "type", .text "array"), (.text "items", .text "Point[]?")]

/-- An interface that refers to points. -/
def shapeItem : Item := ⟨"shape", "interface", [("outlines", outlinesType)]⟩

/-- The groups for these items. -/
def shapeChannels : Channels where
  models := [⟨"Point", .classType, ["// Generated from: Point", "public partial class Point", "\x7b",
    "    [JsonProperty(\"y\")]", "    public float? Y \x7b get; set; \x7d", "\x7d"]⟩]
  channels := [⟨"ShapeChannel", .classType, ["// Generated from: shape",
    "public partial class ShapeChannel", "\x7b", "    [JsonProperty(\"outlines\")]",
    "    public Point[][] Outlines \x7b get; set; \x7d", "\x7d"]⟩]
  enums := []

theorem generateChannels_shapeItem :
    generateChannels {} [shapeItem, pointItem] = .ok shapeChannels ∧
    RefersTo "Point" outlinesType ∧
    classOf {} [shapeItem, pointItem] shapeItem ∈ shapeChannels.all ∧
    (classOf {} [shapeItem, pointItem] pointItem).name = "Point" := by
  have hrun : generateChannels {} [shapeItem, pointItem] = .ok shapeChannels := by decide +kernel
  have hproperty : ("outlines", outlinesType) ∈ shapeItem.properties := List.mem_singleton_self _
  have href : RefersTo "Point" outlinesType :=
    .mapping rfl (by decide +kernel) rfl (.nullableSuffix (.bare (by decide) (by decide)))
  obtain ⟨-, hrefers⟩ := generateChannels_reference_iff hrun List.mem_cons_self hproperty
  obtain ⟨hshape, -, -, hname, -⟩ :=
    hrefers pointItem (List.mem_cons_of_mem _ List.mem_cons_self) rfl href
  exact ⟨hrun, href, hshape, hname⟩

/-- An object whose name is not capitalized, and one that refers to it. -/
def cornerItems : List Item :=
  [⟨"point", "object", [("x", .text "number")]⟩, ⟨"Box", "object", [("corner", .text "point")]⟩]

/-- The class for the object that refers to the other. -/
def boxDeclaration : Declaration :=
  ⟨"Box", .classType, ["// Generated from: Box", "public partial class Box", "\x7b",
    "    [JsonProperty(\"corner\")]", "    public point Corner \x7b get; set; \x7d", "\x7d"]⟩

/-- The groups for these items. -/
def cornerChannels : Channels where
  models := [⟨"Point", .classType, ["// Generated from: point", "public partial class Point", "\x7b",
    "    [JsonProperty(\"x\")]", "    public float X \x7b get; set; \x7d", "\x7d"]⟩, boxDeclaration]
  channels := []
  enums := []

/-- The line of the property names no class. -/
theorem generateChannels_cornerItems : generateChannels {} cornerItems = .ok cornerChannels ∧
    RefersTo "point" (.text "point") ∧ boxDeclaration ∈ cornerChannels.models ∧
    Declaration.indentLine "    " (Context.propertyLine "public " "point" "Corner") ∈
      boxDeclaration.lines ∧
    "point" ∉ cornerChannels.all.map (·.name) := by
  refine ⟨by decide +kernel, .bare (by decide) (by decide), ?_, ?_, ?_⟩
  · exact List.mem_cons_of_mem _ List.mem_cons_self
  · decide +kernel
  · decide +kernel

end ApiSurface.Protocol
