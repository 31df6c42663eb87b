import ApiSurface.Description
import ApiSurface.Proofs.Fallible

/-!
# Reading a description step by step

A mapping is looked at before its parts are read.  `formOf` says which form of type a mapping has,
with the parts still unread.
-/

namespace ApiSurface.Description

/-- The form of the type that a mapping describes, with its parts as they stand in the document. -/
inductive Form where
  | union (members : List Value)
  | array (element : Value)
  | shape (properties : List Value)
  | table (key value : Value)
  | name (text : String)

/-- The form of a mapping that is no union, from its name and its templates. -/
def namedForm (fields : Fields) (name : String) (templates : List Value) : Except Fault Form :=
  if name = "Array" then
    match templates with
    | [element] => .ok (.array element)
    | _ => .error (.ofCause (.arrayArity templates.length))
  else if name = "Object" && has fields "properties" then
    (listField "properties" fields).map .shape
  else
    match name, templates with
    | "Object", [key, value] => .ok (.table key value)
    | _, _ => .ok (.name name)

/-- The form of a mapping. -/
def formOf (fields : Fields) : Except Fault Form :=
  if has fields "union" then (listField "union" fields).map .union
  else do
    let name ← textField "name" "" fields
    let templates ← listField "templates" fields
    namedForm fields name templates

/-- A union of some types, of which there must be two. -/
def unionOf (members : List TypeExpr) : Except Fault TypeExpr :=
  if members.length < 2 then .error (.ofCause .shortUnion) else .ok (.union members)

/-- The type of a form, whose parts are read in order. -/
def Form.read (owner : String) : Form → Except Fault TypeExpr
  | .union members => do unionOf (← members.mapM (typeOf owner))
  | .array element => do return .array (← typeOf owner element)
  | .shape properties => do
    return .shape (← properties.mapM (memberOf owner (some "property")))
  | .table key value => do
    let key ← typeOf owner key
    return .map key (← typeOf owner value)
  | .name text => typeNamed text

/-- The documentation of a member or a class. -/
def docField (fields : Fields) : Except Fault (List DocNode) := do
  docOf (.list (← listField "spec" fields))

/-- The kind of a member: where it stands gives it, or else a field. -/
def kindOf (kind : Option String) (fields : Fields) : Except Fault String :=
  match kind with
  | some kind => .ok kind
  | none => textField "kind" "property" fields

/-- The type, the arguments and the documentation of a member. -/
def memberParts (owner : String) (fields : Fields) :
    Except Fault (TypeExpr × List Member × List DocNode) := do
  let type ← memberType owner fields
  let items ← listField "args" fields
  let args ← items.mapM (memberOf owner (some "argument"))
  let doc ← docField fields
  return (type, args, doc)

/-- The members and the documentation of a class. -/
def classParts (name : String) (fields : Fields) :
    Except Fault (List Member × List DocNode) := do
  let items ← listField "members" fields
  let members ← items.mapM (memberOf name none)
  let doc ← docField fields
  return (members, doc)

/-! ### Lists of parts -/

theorem typesOf_eq_map (owner : String) (vs : List Value) :
    typesOf owner vs = vs.map (typeOf owner) := by
  induction vs with
  | nil => rfl
  | cons v vs ih => rw [typesOf, ih, List.map_cons]

theorem membersOf_eq_mapM (owner : String) (kind : Option String) (vs : List Value) :
    membersOf owner kind vs = vs.mapM (memberOf owner kind) := by
  induction vs with
  | nil => rfl
  | cons v vs ih => rw [membersOf, ih, List.mapM_cons]

theorem typesField_eq (owner name : String) (fields : Fields) :
    typesField owner name fields = (listField name fields).map (·.map (typeOf owner)) := by
  induction fields with
  | nil => rfl
  | cons entry fields ih =>
    obtain ⟨k, v⟩ := entry
    unfold listField at ih ⊢
    by_cases hk : k = .text name
    · rw [typesField.eq_def, Value.field?]
      simp only [hk, if_true]
      cases v <;> simp [Except.map, typesOf_eq_map]
    · rw [typesField.eq_def, Value.field?]
      simp only [hk, if_false]
      exact ih

theorem membersField_eq (owner name kind : String) (fields : Fields) :
    membersField owner name kind fields =
      listField name fields >>= fun vs => vs.mapM (memberOf owner (some kind)) := by
  induction fields with
  | nil => rfl
  | cons entry fields ih =>
    obtain ⟨k, v⟩ := entry
    unfold listField at ih ⊢
    by_cases hk : k = .text name
    · rw [membersField.eq_def, Value.field?]
      simp only [hk, if_true]
      cases v with
      | list items => exact membersOf_eq_mapM owner (some kind) items
      | _ => rfl
    · rw [membersField.eq_def, Value.field?]
      simp only [hk, if_false]
      exact ih

theorem memberType_eq (owner : String) (fields : Fields) :
    memberType owner fields = match Value.field? "type" fields with
      | none => typeNamed "void"
      | some v => typeOf owner v := by
  induction fields with
  | nil => rfl
  | cons entry fields ih =>
    obtain ⟨k, v⟩ := entry
    by_cases hk : k = .text "type"
    · rw [memberType, Value.field?, if_pos hk, if_pos hk]
    · rw [memberType, Value.field?, if_neg hk, if_neg hk, ih]

/-! ### Types, members and classes -/

/-- **The type of a mapping** is that of its form. -/
theorem typeOf_map (owner : String) (fields : Fields) :
    typeOf owner (.map fields) = formOf fields >>= Form.read owner := by
  rw [typeOf, formOf]
  by_cases hunion : has fields "union" = true
  · rw [if_pos hunion, if_pos hunion, typesField_eq]
    cases listField "union" fields with
    | error fault => rfl
    | ok vs =>
      show (vs.map (typeOf owner)).mapM id >>= _ = vs.mapM (typeOf owner) >>= unionOf
      rw [List.mapM_map]
      rfl
  · rw [if_neg hunion, if_neg hunion, typesField_eq, membersField_eq]
    cases textField "name" "" fields with
    | error fault => rfl
    | ok name =>
      cases listField "templates" fields with
      | error fault => rfl
      | ok templates =>
        show (if name = "Array" then _ else _) = namedForm fields name templates >>= Form.read owner
        unfold namedForm
        by_cases harray : name = "Array"
        · rw [if_pos harray, if_pos harray]
          rcases templates with _ | ⟨v, _ | ⟨w, vs⟩⟩
          · rfl
          · rfl
          · simp only [List.map_cons, List.length_cons, List.length_map]
            rfl
        rw [if_neg harray, if_neg harray]
        by_cases hshape : (name = "Object" && has fields "properties") = true
        · rw [if_pos hshape, if_pos hshape]
          cases listField "properties" fields <;> rfl
        rw [if_neg hshape, if_neg hshape]
        by_cases hobject : name = "Object"
        · subst hobject
          rcases templates with _ | ⟨v, _ | ⟨w, _ | ⟨x, vs⟩⟩⟩ <;> rfl
        · split
          · exact absurd rfl hobject
          · split
            · exact absurd rfl hobject
            · rfl

theorem typeOf_of_form {owner : String} {fields : Fields} {form : Form}
    (h : formOf fields = .ok form) : typeOf owner (.map fields) = form.read owner := by
  rw [typeOf_map, h]
  rfl

/-- **A member** is read name first, then its kind, its parts and its alias. -/
theorem memberOf_map {owner : String} {kind : Option String} {fields : Fields} {nameValue : Value}
    (h : Value.field? "name" fields = some nameValue) :
    memberOf owner kind (.map fields) = do
      let name ← nameValue.written
      let kind ← kindOf kind fields
      let parts ← (memberParts owner fields).mapError (·.locate owner name)
      let preferredName ← aliasOf (Value.field? "alias" fields)
      return {
        kind, name, type := parts.1, args := parts.2.1, doc := parts.2.2, preferredName
        isAsync := flagField "async" fields
        deprecated := flagField "deprecated" fields } := by
  rw [memberOf, h]
  simp only [membersField_eq]
  unfold memberParts docField
  cases nameValue.written with
  | error fault => rfl
  | ok name =>
    simp only [kindOf, bind_assoc]
    cases kind <;> rfl

theorem memberOf_nameless {owner : String} {kind : Option String} {fields : Fields}
    (h : Value.field? "name" fields = none) : memberOf owner kind (.map fields) =
      .error (.showing (.map fields) ⟨.memberWithoutName (.map fields), owner, ""⟩) := by
  rw [memberOf, h]

/-- **A class** is read name first, then its parts. -/
theorem classOf_map {fields : Fields} {nameValue : Value}
    (h : Value.field? "name" fields = some nameValue) :
    classOf (.map fields) = do
      let name ← nameValue.written
      let parts ← (classParts name fields).mapError (·.locate name "")
      return { name, members := parts.1, doc := parts.2 } := by
  unfold classOf classParts docField
  simp only [h, membersOf_eq_mapM, bind_assoc]

theorem classOf_nameless {fields : Fields} (h : Value.field? "name" fields = none) :
    classOf (.map fields) = .error (misfit (.map fields) (.classWithoutName (.map fields))) := by
  unfold classOf
  simp only [h]

/-- **A member that has been read**: its kind and its parts are those of a mapping. -/
theorem memberOf_eq_ok {owner : String} {kind : Option String} {v : Value} {m : Member}
    (h : memberOf owner kind v = .ok m) : ∃ fields, v = .map fields ∧
      kindOf kind fields = .ok m.kind ∧ memberParts owner fields = .ok (m.type, m.args, m.doc) := by
  cases v with
  | map fields =>
    cases hname : Value.field? "name" fields with
    | none =>
      rw [memberOf_nameless hname] at h
      cases h
    | some nameValue =>
      rw [memberOf_map hname] at h
      obtain ⟨name, -, h⟩ := exists_ok_of_bind h
      obtain ⟨k, hkind, h⟩ := exists_ok_of_bind h
      obtain ⟨parts, hparts, h⟩ := exists_ok_of_bind h
      obtain ⟨preferredName, -, h⟩ := exists_ok_of_bind h
      cases h
      exact ⟨fields, rfl, hkind, mapError_eq_ok_iff.mp hparts⟩
  | _ => cases h

/-- **A class that has been read**: its name and its parts are those of a mapping. -/
theorem classOf_eq_ok {v : Value} {c : ApiClass} (h : classOf v = .ok c) :
    ∃ fields nameValue, v = .map fields ∧ Value.field? "name" fields = some nameValue ∧
      nameValue.written = .ok c.name ∧ classParts c.name fields = .ok (c.members, c.doc) := by
  cases v with
  | map fields =>
    cases hname : Value.field? "name" fields with
    | none =>
      rw [classOf_nameless hname] at h
      cases h
    | some nameValue =>
      rw [classOf_map hname] at h
      obtain ⟨name, hwritten, h⟩ := exists_ok_of_bind h
      obtain ⟨parts, hparts, h⟩ := exists_ok_of_bind h
      cases h
      exact ⟨fields, nameValue, rfl, hname, hwritten, mapError_eq_ok_iff.mp hparts⟩
  | _ => cases h

/-! ### Parts -/

/-- The values that are read as the parts of a form. -/
def Form.parts : Form → List Value
  | .union members => members
  | .array element => [element]
  | .shape properties => properties
  | .table key value => [key, value]
  | .name _ => []

/-- A value that stands under a field of a mapping, or in a list under one. -/
inductive Below : Value → Value → Prop
  | field {fields : Fields} {name : String} {v : Value} (h : Value.field? name fields = some v) :
    Below v (.map fields)
  | item {fields : Fields} {name : String} {vs : List Value} {v : Value}
    (h : listField name fields = .ok vs) (hv : v ∈ vs) : Below v (.map fields)

theorem sizeOf_field {fields : Fields} {name : String} {v : Value}
    (h : Value.field? name fields = some v) : sizeOf v < sizeOf fields := by
  induction fields with
  | nil => cases h
  | cons entry fields ih =>
    obtain ⟨k, w⟩ := entry
    rw [Value.field?] at h
    by_cases hk : k = .text name
    · rw [if_pos hk] at h
      cases h
      simp only [List.cons.sizeOf_spec, Prod.mk.sizeOf_spec]
      omega
    · rw [if_neg hk] at h
      have hlt := ih h
      simp only [List.cons.sizeOf_spec]
      omega

theorem field?_of_listField {fields : Fields} {name : String} {vs : List Value} {v : Value}
    (h : listField name fields = .ok vs) (hv : v ∈ vs) :
    Value.field? name fields = some (.list vs) := by
  unfold listField at h
  split at h
  · cases h
    cases hv
  · cases h
    cases hv
  · cases h
    assumption
  · cases h

theorem Below.sizeOf_lt {v w : Value} (h : Below v w) : sizeOf v < sizeOf w := by
  cases h with
  | field h =>
    have hlt := sizeOf_field h
    simp only [Value.map.sizeOf_spec]
    omega
  | item h hv =>
    have hlt := sizeOf_field (field?_of_listField h hv)
    have hitem := List.sizeOf_lt_of_mem hv
    simp only [Value.map.sizeOf_spec, Value.list.sizeOf_spec] at hlt ⊢
    omega

/-- **Induction over a document.**  What holds of a value if it holds of all values below it holds
of every value. -/
theorem reading_induction {P : Value → Prop} (h : ∀ v, (∀ w, Below w v → P w) → P v) (v : Value) :
    P v :=
  h v fun w _ => reading_induction h w
termination_by sizeOf v
decreasing_by exact Below.sizeOf_lt ‹Below w v›

/-- **The parts of a form** stand below the mapping that has it. -/
theorem below_of_formOf {fields : Fields} {form : Form} (h : formOf fields = .ok form) {w : Value}
    (hw : w ∈ form.parts) : Below w (.map fields) := by
  have hlist : ∀ {name : String} {make : List Value → Form} {form : Form},
      (listField name fields).map make = .ok form → (∀ vs, (make vs).parts = vs) →
      w ∈ form.parts → Below w (.map fields) := by
    intro name make form hform hparts hw
    cases hvs : listField name fields with
    | error fault =>
      rw [hvs] at hform
      cases hform
    | ok vs =>
      rw [hvs] at hform
      cases hform
      exact .item hvs (hparts vs ▸ hw)
  unfold formOf at h
  split at h
  · exact hlist h (fun _ => rfl) hw
  · obtain ⟨name, -, h⟩ := exists_ok_of_bind h
    obtain ⟨templates, htemplates, h⟩ := exists_ok_of_bind h
    unfold namedForm at h
    split at h
    · split at h
      · cases h
        exact .item htemplates hw
      · cases h
    · split at h
      · exact hlist h (fun _ => rfl) hw
      · split at h
        · cases h
          exact .item htemplates hw
        · cases h
          cases hw

end ApiSurface.Description
