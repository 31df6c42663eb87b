import ApiSurface.Proofs.Protocol.References
import ApiSurface.Proofs.Registry.Faults

/-!
# Texts of types

A text gives a type if it is a name that is known, with a `?` behind it or without, and then marks
for arrays, each of them `[]` or `[]?`.
-/

namespace ApiSurface.Protocol

/-- **The names of types.**  An object has its own name as its type, also if that is the name of a
built-in type. -/
inductive Names (items : List Item) : String → String → Prop
  | object {item : Item} {name : String} (hitem : item ∈ items) (hkind : item.kind = "object")
    (hname : item.name = name) : Names items name name
  | builtin {name type : String} (hbuiltin : (name, type) ∈ builtinTypes)
    (hfree : ∀ item ∈ items, item.kind = "object" → item.name ≠ name) : Names items name type

/-- The mark for an array; one that may be null has a `?` behind it. -/
def arrayMark (isNullable : Bool) : String := if isNullable then "[]?" else "[]"

/-- The marks for some arrays around a type, the innermost first. -/
def arrayMarks : (arrays : List Bool) → String
  | [] => ""
  | isNullable :: arrays => arrayMark isNullable ++ arrayMarks arrays

/-- **A text gives a type**: it is a name, with `?` behind it if it is nullable, and marks for arrays.
The type is that of the name, with `?` behind it if it is nullable and a value type, and one `[]` for
each array. -/
def Spells (items : List Item) (text type : String) : Prop :=
  ∃ name named isNullable arrays, Names items name named ∧
    text = name ++ marks isNullable 0 ++ arrayMarks arrays ∧
    type = named ++ marks (isNullable && isValueType named) arrays.length

/-- A name without marks at its end. -/
structure IsUnmarked (name : String) : Prop where
  notNullable : ¬ ['?'] <:+ name.toList
  notArray : ¬ ['[', ']'] <:+ name.toList

theorem typeNamed?_eq_some_iff {items : List Item} {name type : String} :
    typeNamed? (objectNames items) name = some type ↔ Names items name type := by
  unfold typeNamed?
  by_cases hobject : name ∈ objectNames items
  · rw [if_pos (List.contains_iff_mem.mpr hobject)]
    obtain ⟨item, hitem, hkind, hname⟩ := mem_objectNames.mp hobject
    constructor
    · intro h
      cases h
      exact .object hitem hkind hname
    · intro h
      cases h with
      | object => rfl
      | builtin _ hfree => exact absurd hname (hfree item hitem hkind)
  · rw [if_neg (mt List.contains_iff_mem.mp hobject), lookup_eq_some_iff_mem (by decide)]
    have hfree : ∀ item ∈ items, item.kind = "object" → item.name ≠ name :=
      fun item hitem hkind hname => hobject (mem_objectNames.mpr ⟨item, hitem, hkind, hname⟩)
    constructor
    · exact fun h => .builtin h hfree
    · intro h
      cases h with
      | object hitem hkind hname => exact absurd hname (hfree _ hitem hkind)
      | builtin hbuiltin => exact hbuiltin

theorem Names.isUnmarked {items : List Item}
    (hitems : ∀ item ∈ items, item.kind = "object" → IsUnmarked item.name) {name type : String}
    (h : Names items name type) : IsUnmarked name := by
  have hbuiltins : ∀ p ∈ builtinTypes,
      ¬ ['?'] <:+ p.1.toList ∧ ¬ ['[', ']'] <:+ p.1.toList := by decide
  cases h with
  | object hitem hkind hname => exact hname ▸ hitems _ hitem hkind
  | builtin hbuiltin =>
    obtain ⟨hnullable, harray⟩ := hbuiltins _ hbuiltin
    exact ⟨hnullable, harray⟩

section Texts

variable {objects : List String} {place : Place}

theorem arrayMarks_concat (arrays : List Bool) (isNullable : Bool) :
    arrayMarks (arrays ++ [isNullable]) = arrayMarks arrays ++ arrayMark isNullable := by
  induction arrays with
  | nil => exact String.append_empty.trans String.empty_append.symm
  | cons first arrays ih => rw [List.cons_append, arrayMarks, ih, arrayMarks, String.append_assoc]

/-- One mark for an array comes off a text. -/
theorem textType_arrayMark (base : String) (isNullable : Bool) :
    textType objects place (base ++ arrayMark isNullable).toList.reverse =
      (textType objects place base.toList.reverse >>= fun t => pure (t ++ "[]")) := by
  rw [String.toList_append, List.reverse_append]
  cases isNullable <;> rfl

/-- **The marks for arrays** come off a text, and the type has one `[]` for each. -/
theorem outcome_textType_arrays (base : String) (arrays : List Bool) :
    (textType objects place (base ++ arrayMarks arrays).toList.reverse).outcome =
      (textType objects place base.toList.reverse).outcome.map (· ++ marks false arrays.length) := by
  induction arrays using List.reverseRecOn with
  | nil =>
    rw [arrayMarks, String.append_empty]
    cases (textType objects place base.toList.reverse).outcome with
    | error fault => rfl
    | ok t => exact congrArg Except.ok String.append_empty.symm
  | append_singleton arrays isNullable ih =>
    rw [arrayMarks_concat, ← String.append_assoc, textType_arrayMark, Plan.bind_pure_eq, ih,
      List.length_append]
    cases (textType objects place base.toList.reverse).outcome with
    | error fault => rfl
    | ok t => exact congrArg Except.ok String.append_assoc

/-- A text without a mark for an array at its end. -/
def IsBase (base : String) : Prop := ∀ isNullable before, base ≠ before ++ arrayMark isNullable

/-- **Every text** is one without marks for arrays at its end, with such marks behind it. -/
theorem exists_base (text : String) :
    ∃ base arrays, text = base ++ arrayMarks arrays ∧ IsBase base := by
  induction hlength : text.length using Nat.strongRecOn generalizing text with
  | ind n ih =>
    by_cases hmarked : ∃ isNullable before, text = before ++ arrayMark isNullable
    · obtain ⟨isNullable, before, rfl⟩ := hmarked
      have hshorter : before.length < n := by
        have hmark : 0 < (arrayMark isNullable).length := by cases isNullable <;> decide
        rw [← hlength, String.length_append]
        exact Nat.lt_add_of_pos_right hmark
      obtain ⟨base, arrays, rfl, hbase⟩ := ih _ hshorter before rfl
      exact ⟨base, arrays ++ [isNullable], by rw [arrayMarks_concat, String.append_assoc], hbase⟩
    · refine ⟨text, [], String.append_empty.symm, fun isNullable before heq => ?_⟩
      exact hmarked ⟨isNullable, before, heq⟩

theorem exists_append_of_suffix {text : String} {mark : List Char} (h : mark <:+ text.toList) :
    ∃ before, text = before ++ String.ofList mark := by
  obtain ⟨before, hbefore⟩ := h
  refine ⟨String.ofList before, ?_⟩
  rw [← String.toList_inj, String.toList_append, String.toList_ofList, String.toList_ofList, hbefore]

/-- **A text without marks for arrays** is looked up without the `?` at its end. -/
theorem exists_textType_base {base : String} (hbase : IsBase base) :
    ∃ name isNullable, base = name ++ marks isNullable 0 ∧
      textType objects place base.toList.reverse =
        markedType objects place isNullable base.toList.reverse name.toList.reverse := by
  have harray : ¬ ['[', ']'] <:+ base.toList := by
    intro h
    obtain ⟨before, heq⟩ := exists_append_of_suffix h
    exact hbase false before heq
  by_cases hnullable : ['?'] <:+ base.toList
  · obtain ⟨name, rfl⟩ := exists_append_of_suffix hnullable
    have hname : ¬ ['[', ']'] <:+ name.toList := by
      intro h
      obtain ⟨before, rfl⟩ := exists_append_of_suffix h
      exact hbase true before String.append_assoc
    refine ⟨name, true, rfl, ?_⟩
    rw [String.toList_append, List.reverse_append]
    exact textType_nullable hname
  · exact ⟨base, false, String.append_empty.symm, textType_name hnullable harray⟩

theorem outcome_markedType (isNullable : Bool) (written : List Char) (name : String) :
    (markedType objects place isNullable written name.toList.reverse).outcome =
      match typeNamed? objects name with
      | none => .error (place.blame (.unknownChannelType (String.ofList written.reverse)))
      | some type => .ok (type ++ marks (isNullable && isValueType type) 0) := by
  unfold markedType
  rw [List.reverse_reverse, String.ofList_toList]
  cases typeNamed? objects name with
  | none => rfl
  | some type =>
    simp only
    split
    · next hmark => rw [hmark]; rfl
    · next hmark =>
      rw [eq_false_of_ne_true hmark]
      exact congrArg Except.ok String.append_empty.symm

theorem marks_append (isNullable : Bool) (depth : Nat) :
    marks isNullable 0 ++ marks false depth = marks isNullable depth := by
  induction depth with
  | zero => exact String.append_empty
  | succ depth ih => exact String.append_assoc.symm.trans (congrArg (· ++ "[]") ih)

end Texts

/-- **What a text comes to**: it is split into a name, a `?` or nothing, and marks for arrays, and the
name decides. -/
theorem exists_outcome_textType (items : List Item) (place : Place) (text : String) :
    ∃ name isNullable arrays, text = name ++ marks isNullable 0 ++ arrayMarks arrays ∧
      IsBase (name ++ marks isNullable 0) ∧
      (textType (objectNames items) place text.toList.reverse).outcome =
        match typeNamed? (objectNames items) name with
        | none => .error (place.blame (.unknownChannelType (name ++ marks isNullable 0)))
        | some named => .ok (named ++ marks (isNullable && isValueType named) arrays.length) := by
  obtain ⟨base, arrays, rfl, hbase⟩ := exists_base text
  obtain ⟨name, isNullable, rfl, hlookup⟩ := exists_textType_base hbase
  refine ⟨name, isNullable, arrays, rfl, hbase, ?_⟩
  rw [outcome_textType_arrays, hlookup, outcome_markedType, List.reverse_reverse,
    String.ofList_toList]
  cases typeNamed? (objectNames items) name with
  | none => rfl
  | some named =>
    refine congrArg Except.ok (?_ : _ ++ _ ++ _ = _)
    rw [String.append_assoc, marks_append]

/-- **A text that is spelled by the rules** comes to its type. -/
theorem outcome_textType_of_spells {items : List Item} {text type : String}
    (hitems : ∀ item ∈ items, item.kind = "object" → IsUnmarked item.name) (place : Place)
    (h : Spells items text type) :
    (textType (objectNames items) place text.toList.reverse).outcome = .ok type := by
  obtain ⟨name, named, isNullable, arrays, hname, rfl, rfl⟩ := h
  obtain ⟨hnullable, harray⟩ := hname.isUnmarked hitems
  have hlookup : textType (objectNames items) place (name ++ marks isNullable 0).toList.reverse =
      markedType (objectNames items) place isNullable (name ++ marks isNullable 0).toList.reverse
        name.toList.reverse := by
    cases isNullable with
    | false =>
      rw [show name ++ marks false 0 = name from String.append_empty]
      exact textType_name hnullable harray
    | true =>
      rw [String.toList_append, List.reverse_append]
      exact textType_nullable harray
  rw [outcome_textType_arrays, hlookup, outcome_markedType, typeNamed?_eq_some_iff.mpr hname]
  refine congrArg Except.ok (?_ : _ ++ _ ++ _ = _)
  rw [String.append_assoc, marks_append]

/-- **The texts that give a type.**  If no object has a name that ends in a mark, a text gives a type
if and only if it is spelled by the rules, and the type is the one that the rules give.  Every other
text is reported as malformed: the report names the text without the marks for arrays at its end.  No
text changes the registry. -/
theorem channelType_text_iff {items : List Item}
    (hitems : ∀ item ∈ items, item.kind = "object" → IsUnmarked item.name) (place : Place)
    (owner text : String) (r : Registry) :
    (∀ type, ((channelType (objectNames items) place owner (.text text)).run r).outcome = .ok type ↔
      Spells items text type) ∧
    ((∀ type, ¬ Spells items text type) → ∃ base arrays report,
      text = base ++ arrayMarks arrays ∧ IsBase base ∧
      report = place.report (.unknownChannelType base) ∧ report.cause.category = .malformedType ∧
      ((channelType (objectNames items) place owner (.text text)).run r).outcome =
        .error (.report report)) ∧
    ((channelType (objectNames items) place owner (.text text)).run r).registry = r := by
  have hrun : (channelType (objectNames items) place owner (.text text)).run r =
      ⟨[], (textType (objectNames items) place text.toList.reverse).outcome, r⟩ :=
    Plan.run_of_requests (requests_textType _)
  obtain ⟨name, isNullable, arrays, hsplit, hbase, hname⟩ := exists_outcome_textType items place text
  have hspells : ∀ type, (textType (objectNames items) place text.toList.reverse).outcome =
      .ok type ↔ Spells items text type := by
    refine fun type => ⟨fun h => ?_, outcome_textType_of_spells hitems place⟩
    rw [hname] at h
    split at h
    · cases h
    · next named hnamed =>
      obtain rfl := Except.ok.inj h
      exact ⟨name, named, isNullable, arrays, typeNamed?_eq_some_iff.mp hnamed, hsplit, rfl⟩
  rw [hrun]
  refine ⟨hspells, fun hno => ?_, rfl⟩
  refine ⟨_, arrays, _, hsplit, hbase, rfl, Place.category_report place _, ?_⟩
  cases hnamed : typeNamed? (objectNames items) name with
  | none => rw [hname, hnamed]; rfl
  | some named =>
    rw [hnamed] at hname
    exact absurd ((hspells _).mp hname) (hno _)

/-- A mark for null counts behind the name of a value type, and only once. -/
theorem channelType_text_numbers :
    (∀ item ∈ [pointItem], item.kind = "object" → IsUnmarked item.name) ∧
    ((channelType (objectNames [pointItem]) {} "Grid" (.text "number?[]?[]")).run
      (.empty [])).outcome = .ok "float?[][]" ∧
    (∀ type, ¬ Spells [pointItem] "number??" type) := by
  have hitems : ∀ item ∈ [pointItem], item.kind = "object" → IsUnmarked item.name := by
    refine List.forall_mem_singleton.mpr fun _ => ⟨?_, ?_⟩
    · decide
    · decide
  have hnumber : Names [pointItem] "number" "float" :=
    .builtin (by decide) (List.forall_mem_singleton.mpr fun _ => by decide)
  refine ⟨hitems, ?_, fun type h => ?_⟩
  · obtain ⟨hspells, -, -⟩ := channelType_text_iff hitems {} "Grid" "number?[]?[]" (.empty [])
    exact (hspells _).mpr ⟨"number", "float", true, [true, false], hnumber, by decide, by decide⟩
  · have hrun : ((channelType (objectNames [pointItem]) {} "Grid" (.text "number??")).run
        (.empty [])).outcome = .error (Place.blame {} (.unknownChannelType "number??")) := by
      decide +kernel
    obtain ⟨hspells, -, -⟩ := channelType_text_iff hitems {} "Grid" "number??" (.empty [])
    rw [(hspells type).mpr h] at hrun
    cases hrun

end ApiSurface.Protocol
