import ApiSurface.Proofs.Protocol.References
import ApiSurface.Proofs.Registry.Faults

/-!
# Types without a report

What a document holds goes into the types of properties as it stands.  For most values that are no
type there is a report; for some there is none.
-/

namespace ApiSurface.Protocol

/-! ### Literals that cannot be listed -/

theorem written_eq_error_iff {v : Value} {fault : Fault} :
    v.written = .error fault ↔ v.isWritable = false ∧ fault = .numeral .unwritable := by
  unfold Value.written
  cases h : v.isWritable with
  | true => simp
  | false => simp [eq_comm]

/-- What the literals of an enum are read from: the items of a list, or the keys of a mapping. -/
def parts : Value → List Value
  | .list items => items
  | .map entries => entries.map (·.1)
  | _ => []

/-- The name of the type of a value that counts as true and is not made of parts. -/
def partless? : Value → Option String
  | .bool b => if b then some "bool" else none
  | .int n => if n = 0 then none else some "int"
  | .float x => if x.isZero then none else some "float"
  | _ => none

theorem texts_eq_error_iff {vs : List Value} {fault : Fault} :
    (vs.filter (· ≠ .null)).mapM Value.written = .error fault ↔
      fault = .numeral .unwritable ∧ ∃ w ∈ vs, w ≠ .null ∧ w.isWritable = false := by
  rw [mapM_eq_error_iff]
  constructor
  · rintro ⟨w, hreached, hw⟩
    obtain ⟨hunwritable, rfl⟩ := written_eq_error_iff.mp hw
    obtain ⟨hmem, hnull⟩ := List.mem_filter.mp hreached.mem
    exact ⟨rfl, w, hmem, by simpa using hnull, hunwritable⟩
  · rintro ⟨rfl, w, hmem, hnull, hunwritable⟩
    have hw : w ∈ vs.filter (· ≠ .null) := List.mem_filter.mpr ⟨hmem, by simpa using hnull⟩
    cases htexts : (vs.filter (· ≠ .null)).mapM Value.written with
    | ok texts =>
      obtain ⟨text, htext⟩ := exists_ok_of_mapM htexts w hw
      rw [written_eq_error_iff.mpr ⟨hunwritable, rfl⟩] at htext
      cases htext
    | error fault =>
      obtain ⟨w', hreached, hw'⟩ := mapM_eq_error_iff.mp htexts
      obtain ⟨-, rfl⟩ := written_eq_error_iff.mp hw'
      exact ⟨w', hreached, hw'⟩

/-- **Literals cannot be listed** if they are a value without parts, or if a part other than null
cannot be written. -/
theorem literalsOf_eq_error_iff {v : Value} {fault : Fault} :
    literalsOf (some v) = .error fault ↔
      (∃ typeName, partless? v = some typeName ∧ fault = .notIterable typeName) ∨
      (fault = .numeral .unwritable ∧ ∃ w ∈ parts v, w ≠ .null ∧ w.isWritable = false) := by
  cases v with
  | null => simp [literalsOf, Value.truthy, partless?, parts]
  | bool b =>
    cases b with
    | false => simp [literalsOf, Value.truthy, partless?, parts]
    | true => simpa [literalsOf, Value.truthy, partless?, parts] using eq_comm
  | int n =>
    by_cases hn : n = 0
    · simp [literalsOf, Value.truthy, partless?, parts, hn]
    · simpa [literalsOf, Value.truthy, partless?, parts, hn] using eq_comm
  | float x =>
    by_cases hx : x.isZero = true
    · simp [literalsOf, Value.truthy, partless?, parts, hx]
    · simpa [literalsOf, Value.truthy, partless?, parts, hx] using eq_comm
  | text s =>
    by_cases hs : s = ""
    · simp [literalsOf, Value.truthy, partless?, parts, hs]
    · simp [literalsOf, Value.truthy, partless?, parts, hs]
  | list items =>
    cases items with
    | nil => simp [literalsOf, Value.truthy, partless?, parts]
    | cons item items =>
      show ((item :: items).filter (· ≠ .null)).mapM Value.written = _ ↔ _
      rw [texts_eq_error_iff]
      simp [partless?, parts]
  | map entries =>
    cases entries with
    | nil => simp [literalsOf, Value.truthy, partless?, parts]
    | cons entry entries =>
      show (((entry :: entries).map (·.1)).filter (· ≠ .null)).mapM Value.written = _ ↔ _
      rw [texts_eq_error_iff]
      simp only [partless?, parts, reduceCtorEq, false_and, exists_false, false_or]

/-! ### Types -/

/-- **The types without a report**, with the fault that they end in: the kind of a type cannot be
written, the literals of an enum cannot be listed, or what is no type cannot be shown. -/
inductive Unreported : Value → Fault → Prop
  | kind {fields : List (Value × Value)} {v : Value} (hv : Value.field? "type" fields = some v)
    (h : v.isWritable = false) : Unreported (.map fields) (.numeral .unwritable)
  | partless {fields : List (Value × Value)} {kind typeName : String} {v : Value}
    (hkind : statedKind fields = .ok kind) (henum : kind.startsWith "enum" = true)
    (hv : Value.field? "literals" fields = some v) (h : partless? v = some typeName) :
    Unreported (.map fields) (.notIterable typeName)
  | literal {fields : List (Value × Value)} {kind : String} {v w : Value}
    (hkind : statedKind fields = .ok kind) (henum : kind.startsWith "enum" = true)
    (hv : Value.field? "literals" fields = some v) (hw : w ∈ parts v) (hnull : w ≠ .null)
    (h : w.isWritable = false) : Unreported (.map fields) (.numeral .unwritable)
  | items {fields : List (Value × Value)} {kind : String} {v : Value} {fault : Fault}
    (hkind : statedKind fields = .ok kind) (harray : kind.startsWith "array" = true)
    (hv : Value.field? "items" fields = some v) (h : Unreported v fault) :
    Unreported (.map fields) fault
  | shown {v : Value} (hno : IsNoType v) (h : v.isWritable = false) :
    Unreported v (.numeral .unwritable)

theorem Unreported.not_report {v : Value} {fault : Fault} (h : Unreported v fault)
    (report : Report) : fault ≠ .report report := by
  induction h with
  | items _ _ _ _ ih => exact ih
  | kind | partless | literal | shown => nofun

section Types

variable {objects : List String} {place : Place} {owner : String}

/-- **A type without a report** ends rendering in its fault wherever it stands, before it asks for
anything. -/
theorem channelType_of_unreported {v : Value} {fault : Fault} (h : Unreported v fault) :
    channelType objects place owner v = Plan.fail fault := by
  have hlist : ∀ {fields kind fault}, statedKind fields = .ok kind →
      kind.startsWith "enum" = true →
      literalsOf (Value.field? "literals" fields) = .error fault →
      channelType objects place owner (.map fields) = Plan.fail fault := by
    intro fields kind fault hkind henum hliterals
    rw [channelType_map hkind, if_pos henum, enumType, hliterals]
    rfl
  induction h with
  | @kind fields v hv h =>
    refine channelType_of_illegible ?_
    rw [statedKind, hv]
    exact written_eq_error_iff.mpr ⟨h, rfl⟩
  | partless hkind henum hv h =>
    refine hlist hkind henum ?_
    rw [hv]
    exact literalsOf_eq_error_iff.mpr (.inl ⟨_, h, rfl⟩)
  | literal hkind henum hv hw hnull h =>
    refine hlist hkind henum ?_
    rw [hv]
    exact literalsOf_eq_error_iff.mpr (.inr ⟨rfl, _, hw, hnull, h⟩)
  | items hkind harray hv _ ih =>
    rw [channelType_array hkind harray, itemType_eq, hv]
    simp only [ih]
    rfl
  | shown hno h =>
    rw [channelType_of_isNoType hno, unsupported, Fault.showing, if_neg (by simp [h])]

/-- What the type of a property can be reported for. -/
def typeCategories : List Category := [.malformedType, .nameCollision]

/-- A fault of a type: a report, or the fault of a type without one. -/
def TypeFault (v : Value) (fault : Fault) : Prop :=
  fault.ReportsOf typeCategories ∨ Unreported v fault

theorem failsIn_textType {P : Fault → Prop} (h : ∀ fault, fault.ReportsOf typeCategories → P fault)
    (cs : List Char) : (textType objects place cs).FailsIn [] P := by
  have hmarked : ∀ isNullable written name,
      (markedType objects place isNullable written name).FailsIn [] P := by
    intro isNullable written name
    unfold markedType
    split
    · refine .blame (h _ (Place.reportsOf_blame ?_))
      simp [Cause.category, typeCategories]
    · exact .pure _
  induction cs using textType.induct with
  | case1 rest ih =>
    rw [textType]
    exact ih.bind fun _ => .pure _
  | case2 rest ih =>
    rw [textType]
    exact ih.bind fun _ => .pure _
  | case3 name hno =>
    rw [textType]
    · exact hmarked true _ _
    · exact hno
  | case4 name h₁ h₂ h₃ =>
    rw [textType]
    · exact hmarked false _ _
    all_goals assumption

/-- An enum fails if its literals cannot be listed, or if its name is taken. -/
theorem failsIn_enumType {fields : List (Value × Value)} {kind : String}
    (hkind : statedKind fields = .ok kind) (henum : kind.startsWith "enum" = true) :
    (enumType place owner kind fields).FailsIn [] (TypeFault (.map fields)) := by
  refine (Plan.Ends.ofExcept fun fault hfault => ?_).bind fun literals => ?_
  · cases hv : Value.field? "literals" fields with
    | none =>
      rw [hv] at hfault
      cases hfault
    | some v =>
      rw [hv] at hfault
      obtain ⟨typeName, h, rfl⟩ | ⟨rfl, w, hw, hnull, h⟩ := literalsOf_eq_error_iff.mp hfault
      · exact .inr (.partless hkind henum hv h)
      · exact .inr (.literal hkind henum hv hw hnull h)
  · refine (Plan.Ends.request ⟨rfl, fun _ _ _ => .inl (Place.reportsOf_blame ?_)⟩).bind
      fun _ => .pure _
    simp [Cause.category, typeCategories]

theorem failsIn_unsupported {v : Value} (hno : IsNoType v) :
    (unsupported place v).FailsIn [] (TypeFault v) := by
  refine .fail ?_
  unfold Fault.showing
  cases h : v.isWritable with
  | true => exact .inl ⟨_, rfl, by simp [Place.category_report, Cause.category, typeCategories]⟩
  | false => exact .inr (.shown hno h)

/-- **A type fails** with a report, unless it is one without. -/
theorem failsIn_channelType (v : Value) :
    (channelType objects place owner v).FailsIn [] (TypeFault v) := by
  induction v using type_induction with
  | text s =>
    rw [channelType]
    exact failsIn_textType (fun _ => .inl) _
  | illegible fields fault hstated =>
    rw [channelType_of_illegible hstated]
    refine .fail ?_
    unfold statedKind at hstated
    split at hstated
    · cases hstated
    · next v hv =>
      obtain ⟨h, rfl⟩ := written_eq_error_iff.mp hstated
      exact .inr (.kind hv h)
  | enum fields kind hkind henum =>
    rw [channelType_map hkind, if_pos henum]
    exact failsIn_enumType hkind henum
  | array fields kind hkind harray ih =>
    rw [channelType_array hkind harray, itemType_eq]
    refine Plan.Ends.bind ?_ fun _ => .pure _
    cases hv : Value.field? "items" fields with
    | none => exact failsIn_textType (fun _ => .inl) _
    | some v => exact (ih v hv).mono fun fault h => h.imp_right (.items hkind harray hv)
  | noType v hno =>
    rw [channelType_of_isNoType hno]
    exact failsIn_unsupported hno

end Types

end ApiSurface.Protocol
