import ApiSurface.Proofs.Description.Reading
import ApiSurface.Proofs.Registry.Yields
import ApiSurface.Protocol.Channel

/-!
# Forms of types

The type of a property is a text, or a mapping that says that it is an enum or an array; an array has
the type of its items below it.  Everything else is no type.
-/

namespace ApiSurface.Protocol

theorem not_enum_of_array {kind : String} (h : kind.startsWith "array" = true) :
    kind.startsWith "enum" = false := by
  refine eq_false_of_ne_true fun henum => ?_
  have harray : "array".toList <+: kind.toList := by simpa using h
  have henum : "enum".toList <+: kind.toList := by simpa using henum
  obtain ⟨rest, hrest⟩ := harray
  obtain ⟨rest', hrest'⟩ := henum
  have hheads := hrest.trans hrest'.symm
  simp at hheads

/-- The value is no type at all: neither a text nor a mapping that says that it is an enum or an
array. -/
def IsNoType : Value → Prop
  | .text _ => False
  | .map fields => ∃ kind, statedKind fields = .ok kind ∧ kind.startsWith "enum" = false ∧
      kind.startsWith "array" = false
  | _ => True

/-- **Induction over types.**  An array may have a type below it, which is that of its items; a mapping
whose kind cannot be written is looked at no further. -/
theorem type_induction {P : Value → Prop} (text : ∀ s, P (.text s))
    (illegible : ∀ fields fault, statedKind fields = .error fault → P (.map fields))
    (enum : ∀ fields kind, statedKind fields = .ok kind → kind.startsWith "enum" = true →
      P (.map fields))
    (array : ∀ fields kind, statedKind fields = .ok kind → kind.startsWith "array" = true →
      (∀ v, Value.field? "items" fields = some v → P v) → P (.map fields))
    (noType : ∀ v, IsNoType v → P v) (v : Value) : P v := by
  induction v using Description.reading_induction with
  | h v ih =>
    cases v with
    | text s => exact text s
    | map fields =>
      cases hkind : statedKind fields with
      | error fault => exact illegible fields fault hkind
      | ok kind =>
        by_cases henum : kind.startsWith "enum" = true
        · exact enum fields kind hkind henum
        by_cases harray : kind.startsWith "array" = true
        · exact array fields kind hkind harray fun v hv => ih v (.field hv)
        · exact noType _ ⟨kind, hkind, eq_false_of_ne_true henum, eq_false_of_ne_true harray⟩
    | null | bool _ | int _ | float _ | list _ => exact noType _ trivial

section Plans

variable {objects : List String} {place : Place} {owner : String}

/-- The type for the items of an array, which may be missing. -/
theorem itemType_eq (fields : List (Value × Value)) :
    itemType objects place owner fields =
      match Value.field? "items" fields with
      | none => textType objects place []
      | some v => channelType objects place owner v := by
  induction fields with
  | nil => rfl
  | cons entry fields ih =>
    obtain ⟨k, v⟩ := entry
    rw [itemType, Value.field?, ih]
    by_cases hk : k = .text "items"
    · rw [if_pos hk, if_pos hk]
    · rw [if_neg hk, if_neg hk]

theorem channelType_map {fields : List (Value × Value)} {kind : String}
    (hkind : statedKind fields = .ok kind) : channelType objects place owner (.map fields) =
      if kind.startsWith "enum" then enumType place owner kind fields
      else if kind.startsWith "array" then do
        return (← itemType objects place owner fields) ++ "[]"
      else unsupported place (.map fields) := by
  rw [channelType, hkind]
  rfl

theorem channelType_of_illegible {fields : List (Value × Value)} {fault : Fault}
    (h : statedKind fields = .error fault) :
    channelType objects place owner (.map fields) = Plan.fail fault := by
  rw [channelType, h]
  rfl

theorem channelType_array {fields : List (Value × Value)} {kind : String}
    (hkind : statedKind fields = .ok kind) (harray : kind.startsWith "array" = true) :
    channelType objects place owner (.map fields) =
      (itemType objects place owner fields >>= fun t => pure (t ++ "[]")) := by
  rw [channelType_map hkind, if_neg (ne_true_of_eq_false (not_enum_of_array harray)),
    if_pos harray]

theorem channelType_of_isNoType {v : Value} (h : IsNoType v) :
    channelType objects place owner v = unsupported place v := by
  cases v with
  | text s => cases h
  | map fields =>
    obtain ⟨kind, hkind, henum, harray⟩ := h
    rw [channelType_map hkind, if_neg (ne_true_of_eq_false henum),
      if_neg (ne_true_of_eq_false harray)]
  | null | bool _ | int _ | float _ | list _ => rfl

end Plans

end ApiSurface.Protocol
