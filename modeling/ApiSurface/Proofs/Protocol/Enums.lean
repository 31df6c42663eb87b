import ApiSurface.Proofs.Fallible
import ApiSurface.Proofs.Protocol.TypeForms

/-!
# Enums in the types of properties

The type of a property may list the literals of an enum, also as the items of an array, at any
depth.  The enum is declared under the name of the property.
-/

namespace ApiSurface.Protocol

/-! ### Uses of enums -/

mutual
/-- The mapping that lists the enum in the type of a property, if there is one: the type is an enum,
or an array of such types. -/
def inlineEnum? : Value → Option (List (Value × Value))
  | .map fields =>
    match statedKind fields with
    | .error _ => none
    | .ok kind =>
      if kind.startsWith "enum" then some fields
      else if kind.startsWith "array" then itemsEnum? fields
      else none
  | _ => none
termination_by structural v => v
/-- The mapping that lists the enum in the type of the items of an array. -/
def itemsEnum? : List (Value × Value) → Option (List (Value × Value))
  | [] => none
  | (k, v) :: rest => if k = .text "items" then inlineEnum? v else itemsEnum? rest
termination_by structural fields => fields
end

theorem inlineEnum?_map {fields : List (Value × Value)} {kind : String}
    (h : statedKind fields = .ok kind) : inlineEnum? (.map fields) =
      if kind.startsWith "enum" then some fields
      else if kind.startsWith "array" then itemsEnum? fields
      else none := by
  rw [inlineEnum?, h]

theorem itemsEnum?_eq (fields : List (Value × Value)) :
    itemsEnum? fields = (Value.field? "items" fields).bind inlineEnum? := by
  induction fields with
  | nil => rfl
  | cons entry fields ih =>
    obtain ⟨k, v⟩ := entry
    rw [itemsEnum?, Value.field?, ih]
    by_cases hk : k = .text "items"
    · rw [if_pos hk, if_pos hk, Option.bind_some]
    · rw [if_neg hk, if_neg hk]

/-- The use of an enum: the property with the enum in its type, and the mapping that lists it. -/
structure EnumUse where
  property : String
  fields : List (Value × Value)

/-- The name under which the enum is declared. -/
def EnumUse.name (use : EnumUse) : String := enumName (Identifier.capitalize use.property)

/-- The use of an enum at a property; there is at most one. -/
def propertyUses (p : String × Value) : List EnumUse :=
  ((inlineEnum? p.2).map fun fields => ⟨p.1, fields⟩).toList

/-! ### Literals -/

/-- **The literals that a value lists**: the texts of its parts, without nulls, in their order. -/
inductive Lists : Option Value → List String → Prop
  | missing : Lists none []
  | empty {v : Value} (h : v.truthy = false) : Lists (some v) []
  | items {vs : List Value} {texts : List String}
    (h : List.Forall₂ (fun v text => v.written = .ok text) (vs.filter (· ≠ .null)) texts) :
    Lists (some (.list vs)) texts
  | characters {s : String} : Lists (some (.text s)) (s.toList.map String.singleton)
  | keys {entries : List (Value × Value)} {texts : List String}
    (h : List.Forall₂ (fun v text => v.written = .ok text)
      ((entries.map (·.1)).filter (· ≠ .null)) texts) : Lists (some (.map entries)) texts

theorem literalsOf_of_truthy_false {v : Value} (h : v.truthy = false) :
    literalsOf (some v) = .ok [] := by
  unfold literalsOf
  simp [h]

theorem literalsOf_eq_ok_iff {v : Option Value} {literals : List String} :
    literalsOf v = .ok literals ↔ Lists v literals := by
  constructor
  · intro h
    cases v with
    | none =>
      cases h
      exact .missing
    | some v =>
      by_cases htruthy : v.truthy = true
      · unfold literalsOf at h
        simp only [htruthy, Bool.not_true, Bool.false_eq_true, if_false] at h
        split at h
        · exact .items (mapM_eq_ok_iff.mp h)
        · cases h
          exact .characters
        · exact .keys (mapM_eq_ok_iff.mp h)
        · cases h
        · cases h
        · cases h
        · cases htruthy
      · rw [literalsOf_of_truthy_false (by simpa using htruthy)] at h
        cases h
        exact .empty (by simpa using htruthy)
  · intro h
    cases h with
    | missing => rfl
    | empty h => exact literalsOf_of_truthy_false h
    | @items vs texts h =>
      cases vs with
      | nil =>
        cases h
        rfl
      | cons v vs => exact mapM_eq_ok_iff.mpr h
    | @characters s =>
      by_cases hs : s = ""
      · subst hs
        rfl
      · unfold literalsOf
        simp [Value.truthy, hs]
    | @keys entries texts h =>
      cases entries with
      | nil =>
        cases h
        rfl
      | cons entry entries => exact mapM_eq_ok_iff.mpr h

/-- The demand that is made for the use of an enum: the literals that it lists, under its name. -/
def EnumUse.AskedBy (use : EnumUse) (d : Demand) : Prop :=
  ∃ literals, Lists (Value.field? "literals" use.fields) literals ∧
    d = .shape use.name (.enum literals)

/-! ### Texts of types -/

/-- **The text of a type** at a property, whose name is given as it is written in the class. -/
inductive ShowsType (objects : List String) (place : Place) (property : String) :
    Value → String → Prop
  | named {s t : String} (h : (textType objects place s.toList.reverse).outcome = .ok t) :
    ShowsType objects place property (.text s) t
  | enum {fields : List (Value × Value)} {kind : String} (hkind : statedKind fields = .ok kind)
    (h : kind.startsWith "enum" = true) : ShowsType objects place property (.map fields)
      (if kind.endsWith "?" then enumName property ++ "?" else enumName property)
  | array {fields : List (Value × Value)} {kind t : String} {v : Value}
    (hkind : statedKind fields = .ok kind) (hno : kind.startsWith "enum" = false)
    (h : kind.startsWith "array" = true) (hv : Value.field? "items" fields = some v)
    (ht : ShowsType objects place property v t) :
    ShowsType objects place property (.map fields) (t ++ "[]")
  /-- An array whose items are not given has the object with the empty name as items. -/
  | bareArray {fields : List (Value × Value)} {kind t : String}
    (hkind : statedKind fields = .ok kind) (hno : kind.startsWith "enum" = false)
    (h : kind.startsWith "array" = true) (hv : Value.field? "items" fields = none)
    (ht : (textType objects place []).outcome = .ok t) :
    ShowsType objects place property (.map fields) (t ++ "[]")

variable {objects : List String} {place : Place}

/-- A type is written as the name of an enum, with marks for arrays and for null behind it. -/
def EnumUse.WrittenIn (use : EnumUse) (t : String) : Prop :=
  ∃ marks, t = use.name ++ marks ∧ ∀ c ∈ marks.toList, c ∈ ['?', '[', ']']

/-- **The text of a type with an enum** is the name under which the enum is declared, with marks
behind it. -/
theorem ShowsType.writtenIn {property t : String} {v : Value}
    (h : ShowsType objects place (Identifier.capitalize property) v t) :
    ∀ use ∈ propertyUses (property, v), use.WrittenIn t := by
  induction h with
  | named => nofun
  | @enum fields kind hkind henum =>
    rw [propertyUses, inlineEnum?_map hkind, if_pos henum]
    refine List.forall_mem_singleton.mpr ?_
    split
    · exact ⟨"?", rfl, by simp⟩
    · exact ⟨"", String.append_empty.symm, nofun⟩
  | @array fields kind t v hkind hno harray hv _ ih =>
    rw [propertyUses, inlineEnum?_map hkind, if_neg (ne_true_of_eq_false hno), if_pos harray,
      itemsEnum?_eq, hv, Option.bind_some]
    intro use huse
    obtain ⟨marks, rfl, hmarks⟩ := ih use huse
    have harrays : ∀ c ∈ "[]".toList, c ∈ ['?', '[', ']'] := by simp
    refine ⟨marks ++ "[]", String.append_assoc, ?_⟩
    rw [String.toList_append]
    exact List.forall_mem_append.mpr ⟨hmarks, harrays⟩
  | @bareArray fields kind t hkind hno harray hv =>
    rw [propertyUses, inlineEnum?_map hkind, if_neg (ne_true_of_eq_false hno), if_pos harray,
      itemsEnum?_eq, hv]
    nofun

theorem requests_textType (cs : List Char) : (textType objects place cs).requests = [] := by
  have hmarked : ∀ isNullable written name,
      (markedType objects place isNullable written name).requests = [] := by
    intro isNullable written name
    unfold markedType
    split <;> rfl
  induction cs using textType.induct with
  | case1 rest ih => rw [textType, Plan.bind_pure_eq, ih]
  | case2 rest ih => rw [textType, Plan.bind_pure_eq, ih]
  | case3 name hno =>
    rw [textType]
    · exact hmarked true _ _
    · exact hno
  | case4 name h₁ h₂ h₃ =>
    rw [textType]
    · exact hmarked false _ _
    all_goals assumption

theorem requests_of_textType {cs : List Char} {qs : List Request} {t : String}
    (h : (textType objects place cs).Yields qs t) : qs = [] :=
  h.1.symm.trans (requests_textType cs)

/-- The demand that is made for an enum in a type of an owner: the literals that are listed, under the
name of the owner. -/
def AsksFor (owner : String) (fields : List (Value × Value)) (d : Demand) : Prop :=
  ∃ literals, Lists (Value.field? "literals" fields) literals ∧
    d = .shape (enumName owner) (.enum literals)

variable {owner : String}

/-- **An enum** asks for its declaration, with the literals that it lists. -/
theorem yields_enumType {kind : String} {fields : List (Value × Value)} {qs : List Request}
    {t : String} (h : (enumType place owner kind fields).Yields qs t) :
    t = (if kind.endsWith "?" then enumName owner ++ "?" else enumName owner) ∧
    List.Forall₂ (AsksFor owner) [fields] (qs.map (·.demand)) := by
  unfold enumType at h
  obtain ⟨qs₁, literals, qs₂, hread, hasks, rfl⟩ := Plan.yields_bind_iff.mp h
  obtain ⟨rfl, hliterals⟩ := Plan.yields_ofExcept_iff.mp hread
  obtain ⟨qs₃, u, qs₄, hrequest, hret, rfl⟩ := Plan.yields_bind_iff.mp hasks
  obtain rfl := Plan.yields_request_iff.mp hrequest
  obtain ⟨rfl, rfl⟩ := Plan.yields_pure_iff.mp hret
  exact ⟨rfl, .cons ⟨literals, literalsOf_eq_ok_iff.mp hliterals, rfl⟩ .nil⟩

theorem not_yields_unsupported {v : Value} {qs : List Request} {t : String} :
    ¬ (unsupported place v).Yields qs t := by
  rintro ⟨-, h⟩
  cases h

/-- **The plan for a type** yields its text, and asks for the enum in it. -/
theorem yields_channelType {v : Value} {qs : List Request} {t : String}
    (h : (channelType objects place owner v).Yields qs t) : ShowsType objects place owner v t ∧
      List.Forall₂ (AsksFor owner) (inlineEnum? v).toList (qs.map (·.demand)) := by
  induction v using type_induction generalizing qs t with
  | text s =>
    obtain rfl := requests_of_textType h
    exact ⟨.named h.2, .nil⟩
  | illegible fields fault hkind =>
    rw [channelType_of_illegible hkind] at h
    cases h.2
  | enum fields kind hkind henum =>
    rw [channelType_map hkind, if_pos henum] at h
    rw [inlineEnum?_map hkind, if_pos henum]
    obtain ⟨rfl, hasked⟩ := yields_enumType h
    exact ⟨.enum hkind henum, hasked⟩
  | array fields kind hkind harray ih =>
    have hno := not_enum_of_array harray
    rw [channelType_array hkind harray, itemType_eq] at h
    rw [inlineEnum?_map hkind, if_neg (ne_true_of_eq_false hno), if_pos harray, itemsEnum?_eq]
    obtain ⟨qs', t', qs'', hitems, hret, rfl⟩ := Plan.yields_bind_iff.mp h
    obtain ⟨rfl, rfl⟩ := Plan.yields_pure_iff.mp hret
    rw [List.append_nil]
    cases hv : Value.field? "items" fields with
    | none =>
      rw [hv] at hitems
      obtain rfl := requests_of_textType hitems
      exact ⟨.bareArray hkind hno harray hv hitems.2, .nil⟩
    | some v =>
      rw [hv] at hitems
      obtain ⟨hshown, hasked⟩ := ih v hv hitems
      exact ⟨.array hkind hno harray hv hshown, hasked⟩
  | noType v hno =>
    rw [channelType_of_isNoType hno] at h
    exact absurd h not_yields_unsupported

/-- The plan for the type of a property asks for the enum that the property uses. -/
theorem yields_propertyType {property : String} {v : Value} {qs : List Request} {t : String}
    (h : (channelType objects place (Identifier.capitalize property) v).Yields qs t) :
    ShowsType objects place (Identifier.capitalize property) v t ∧
      List.Forall₂ EnumUse.AskedBy (propertyUses (property, v)) (qs.map (·.demand)) := by
  obtain ⟨hshown, hasked⟩ := yields_channelType h
  refine ⟨hshown, ?_⟩
  have huses : propertyUses (property, v) = (inlineEnum? v).toList.map (EnumUse.mk property) := by
    unfold propertyUses
    cases inlineEnum? v <;> rfl
  rw [huses, List.forall₂_map_left_iff]
  exact hasked

end ApiSurface.Protocol
