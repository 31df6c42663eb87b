import ApiSurface.Proofs.Description.Reading

/-!
# Where reading reports

Reading a class stops at the first part that is no description.  The entries of members, arguments
and properties around that part have names, which form a trail from the outermost to the innermost.
A report names the class and the innermost name of the trail that is not empty.
-/

namespace ApiSurface.Description

/-! ### Trails -/

/-- The innermost name of a trail that is not empty; without one it is the empty name. -/
def innermost (trail : List String) : String := ((trail.filter (· ≠ "")).getLast?).getD ""

theorem innermost_cons (name : String) (trail : List String) :
    innermost (name :: trail) = if innermost trail = "" then name else innermost trail := by
  unfold innermost
  by_cases hname : name = ""
  · rw [List.filter_cons_of_neg (by simpa using hname)]
    split
    · rename_i h
      rw [h, hname]
    · rfl
  · rw [List.filter_cons_of_pos (by simpa using hname)]
    cases hlast : (trail.filter (· ≠ "")).getLast? with
    | none =>
      rw [List.getLast?_eq_none_iff.mp hlast]
      rfl
    | some inner =>
      have hmem := List.mem_of_getLast? hlast
      have hinner : inner ≠ "" := by simpa using (List.mem_filter.mp hmem).2
      rw [List.getLast?_cons, hlast]
      simp [hinner]

/-! ### Parts that fail -/

/-- A part of a document, by what it is read as. -/
inductive Part where
  | type (v : Value)
  /-- A member of a class, or an argument or a property, whose kind is given. -/
  | member (kind : Option String) (v : Value)
  /-- What stands in a class. -/
  | content (fields : Fields)

/-- The value that an entry has for its name. -/
def nameValue? : Value → Option Value
  | .map fields => Value.field? "name" fields
  | _ => none

/-- An entry with a name that can be written. -/
def Named (entry : Value) (name : String) : Prop :=
  ∃ v, nameValue? entry = some v ∧ v.written = .ok name

/-- **The rules for reading that fails.**  A part fails for a cause, at the end of a trail: either
there is something wrong with the part itself, or all that is read before one of its parts can be
read and that part fails.  An entry with a name puts this in front of the trail. -/
inductive Fails (owner : String) : Part → List String → Cause → Prop
  | noType {v : Value} (ht : ∀ s, v ≠ .text s) (hm : ∀ fields, v ≠ .map fields)
    (hw : v.isWritable = true) : Fails owner (.type v) [] (.notAType v)
  | noName : Fails owner (.type (.text "")) [] .emptyTypeName
  | noForm {fields : Fields} {c : Cause} (h : formOf fields = .error (.ofCause c)) :
    Fails owner (.type (.map fields)) [] c
  | emptyForm {fields : Fields} (h : formOf fields = .ok (.name "")) :
    Fails owner (.type (.map fields)) [] .emptyTypeName
  | shortUnion {fields : Fields} {vs : List Value} {es : List TypeExpr}
    (h : formOf fields = .ok (.union vs)) (hread : vs.mapM (typeOf owner) = .ok es)
    (hlen : es.length < 2) : Fails owner (.type (.map fields)) [] .shortUnion
  | inUnion {fields : Fields} {vs : List Value} {v : Value} {trail : List String} {c : Cause}
    (h : formOf fields = .ok (.union vs)) (hv : Reached (typeOf owner) vs v)
    (hfails : Fails owner (.type v) trail c) : Fails owner (.type (.map fields)) trail c
  | inArray {fields : Fields} {v : Value} {trail : List String} {c : Cause}
    (h : formOf fields = .ok (.array v)) (hfails : Fails owner (.type v) trail c) :
    Fails owner (.type (.map fields)) trail c
  | inKey {fields : Fields} {k v : Value} {trail : List String} {c : Cause}
    (h : formOf fields = .ok (.table k v)) (hfails : Fails owner (.type k) trail c) :
    Fails owner (.type (.map fields)) trail c
  | inValue {fields : Fields} {k v : Value} {e : TypeExpr} {trail : List String} {c : Cause}
    (h : formOf fields = .ok (.table k v)) (hk : typeOf owner k = .ok e)
    (hfails : Fails owner (.type v) trail c) : Fails owner (.type (.map fields)) trail c
  | inShape {fields : Fields} {ps : List Value} {p : Value} {trail : List String} {c : Cause}
    (h : formOf fields = .ok (.shape ps)) (hp : Reached (memberOf owner (some "property")) ps p)
    (hfails : Fails owner (.member (some "property") p) trail c) :
    Fails owner (.type (.map fields)) trail c
  | nameless {kind : Option String} {v : Value} (h : nameValue? v = none)
    (hw : v.isWritable = true) : Fails owner (.member kind v) [] (.memberWithoutName v)
  | inType {kind : Option String} {k name : String} {fields : Fields} {v : Value}
    {trail : List String} {c : Cause} (hn : Named (.map fields) name)
    (hk : kindOf kind fields = .ok k) (hv : Value.field? "type" fields = some v)
    (hfails : Fails owner (.type v) trail c) :
    Fails owner (.member kind (.map fields)) (name :: trail) c
  | noArguments {kind : Option String} {k name : String} {fields : Fields} {e : TypeExpr}
    {c : Cause} (hn : Named (.map fields) name) (hk : kindOf kind fields = .ok k)
    (he : memberType owner fields = .ok e) (h : listField "args" fields = .error (.ofCause c)) :
    Fails owner (.member kind (.map fields)) [name] c
  | inArgument {kind : Option String} {k name : String} {fields : Fields} {e : TypeExpr}
    {items : List Value} {a : Value} {trail : List String} {c : Cause}
    (hn : Named (.map fields) name) (hk : kindOf kind fields = .ok k)
    (he : memberType owner fields = .ok e) (h : listField "args" fields = .ok items)
    (ha : Reached (memberOf owner (some "argument")) items a)
    (hfails : Fails owner (.member (some "argument") a) trail c) :
    Fails owner (.member kind (.map fields)) (name :: trail) c
  | inMemberDoc {kind : Option String} {k name : String} {fields : Fields} {e : TypeExpr}
    {items : List Value} {args : List Member} {c : Cause} (hn : Named (.map fields) name)
    (hk : kindOf kind fields = .ok k) (he : memberType owner fields = .ok e)
    (h : listField "args" fields = .ok items)
    (hargs : items.mapM (memberOf owner (some "argument")) = .ok args)
    (hdoc : docField fields = .error (.ofCause c)) :
    Fails owner (.member kind (.map fields)) [name] c
  | noMembers {fields : Fields} {c : Cause} (h : listField "members" fields = .error (.ofCause c)) :
    Fails owner (.content fields) [] c
  | inMember {fields : Fields} {items : List Value} {m : Value} {trail : List String} {c : Cause}
    (h : listField "members" fields = .ok items) (hm : Reached (memberOf owner none) items m)
    (hfails : Fails owner (.member none m) trail c) : Fails owner (.content fields) trail c
  | inClassDoc {fields : Fields} {items : List Value} {members : List Member} {c : Cause}
    (h : listField "members" fields = .ok items)
    (hmembers : items.mapM (memberOf owner none) = .ok members)
    (hdoc : docField fields = .error (.ofCause c)) : Fails owner (.content fields) [] c

/-! ### Reports without a place -/

/-- A step whose reports have no place yet. -/
def Unplaced {α : Type} (x : Except Fault α) : Prop :=
  ∀ report, x = .error (.report report) → ∃ c, report = ⟨c, "", ""⟩

section Unplaced

variable {α β : Type}

theorem Unplaced.ok (a : α) : Unplaced (.ok a) := nofun

theorem Unplaced.ofCause (c : Cause) : Unplaced (.error (.ofCause c) : Except Fault α) := by
  intro report h
  cases h
  exact ⟨c, rfl⟩

theorem Unplaced.misfit (v : Value) (c : Cause) :
    Unplaced (.error (Description.misfit v c) : Except Fault α) := by
  intro report h
  unfold Description.misfit Fault.showing at h
  split at h
  · cases h
    exact ⟨c, rfl⟩
  · cases h

theorem Unplaced.bind {x : Except Fault α} {f : α → Except Fault β} (hx : Unplaced x)
    (hf : ∀ a, Unplaced (f a)) : Unplaced (x >>= f) := by
  intro report h
  rcases bind_eq_error_iff.mp h with h | ⟨a, -, h⟩
  · exact hx report h
  · exact hf a report h

theorem Unplaced.map {x : Except Fault α} (hx : Unplaced x) (f : α → β) : Unplaced (x.map f) := by
  intro report h
  cases x with
  | error fault =>
    cases h
    exact hx report rfl
  | ok a => cases h

theorem Unplaced.mapM {f : α → Except Fault β} (hf : ∀ a, Unplaced (f a)) (as : List α) :
    Unplaced (as.mapM f) := by
  intro report h
  obtain ⟨a, -, ha⟩ := mapM_eq_error_iff.mp h
  exact hf a report ha

/-- A value that cannot be written is no report. -/
theorem written_ne_report (v : Value) (report : Report) : v.written ≠ .error (.report report) := by
  unfold Value.written
  split <;> simp

theorem textField_ne_report (name default : String) (fields : Fields) (report : Report) :
    textField name default fields ≠ .error (.report report) := by
  unfold textField
  split
  · simp
  · exact written_ne_report _ report

theorem kindOf_ne_report (kind : Option String) (fields : Fields) (report : Report) :
    kindOf kind fields ≠ .error (.report report) := by
  unfold kindOf
  split
  · simp
  · exact textField_ne_report _ _ fields report

theorem aliasOf_ne_report (v : Option Value) (report : Report) :
    aliasOf v ≠ .error (.report report) := by
  unfold aliasOf
  split
  · simp
  · simp
  · rename_i v _
    cases h : v.written with
    | ok text => simp [Except.map]
    | error fault =>
      rintro h'
      cases h'
      exact written_ne_report v report h

theorem unplaced_listField (name : String) (fields : Fields) : Unplaced (listField name fields) := by
  unfold listField
  split
  · exact .ok _
  · exact .ok _
  · exact .ok _
  · exact .misfit _ _

theorem unplaced_docField (fields : Fields) : Unplaced (docField fields) := by
  have hwritten : ∀ v : Value, Unplaced v.written :=
    fun v report h => absurd h (written_ne_report v report)
  have htext : ∀ name default fields, Unplaced (textField name default fields) :=
    fun _ _ _ report h => absurd h (textField_ne_report _ _ _ report)
  have hnode : ∀ v, Unplaced (docNodeOf v) := by
    intro v
    unfold docNodeOf
    split
    · exact .ok _
    · exact (htext _ _ _).bind fun _ => (htext _ _ _).bind fun _ =>
        (unplaced_listField _ _).bind fun _ => (Unplaced.mapM hwritten _).bind fun _ =>
        (htext _ _ _).bind fun _ => .ok _
    · exact .ofCause _
  exact (unplaced_listField _ _).bind fun nodes => Unplaced.mapM hnode nodes

theorem unplaced_formOf (fields : Fields) : Unplaced (formOf fields) := by
  unfold formOf
  split
  · exact (unplaced_listField _ _).map _
  · have htext : Unplaced (textField "name" "" fields) :=
      fun report h => absurd h (textField_ne_report _ _ _ report)
    refine htext.bind fun name => (unplaced_listField _ _).bind fun templates => ?_
    unfold namedForm
    split
    · split
      · exact .ok _
      · exact .ofCause _
    · split
      · exact (unplaced_listField _ _).map _
      · split
        · exact .ok _
        · exact .ok _

end Unplaced

/-! ### Reports and rules -/

/-- The place of a report is that of the end of a trail; its owner may still be left open. -/
def AtTrail (owner : String) (trail : List String) (report : Report) : Prop :=
  report.member = innermost trail ∧ (report.owner = "" ∨ report.owner = owner)

theorem atTrail_nil (owner : String) (c : Cause) : AtTrail owner [] ⟨c, "", ""⟩ := ⟨rfl, .inl rfl⟩

/-- Filling in the owner and a name puts the name in front of the trail. -/
theorem AtTrail.locate {owner : String} {trail : List String} {report : Report}
    (h : AtTrail owner trail report) (name : String) :
    AtTrail owner (name :: trail) (report.locate owner name) := by
  obtain ⟨hmember, howner⟩ := h
  constructor
  · show (if report.member = "" then name else report.member) = _
    rw [innermost_cons, hmember]
  · show (if report.owner = "" then owner else report.owner) = "" ∨ _ = owner
    rcases howner with howner | howner
    · exact .inr (if_pos howner)
    · by_cases hempty : report.owner = ""
      · exact .inr (if_pos hempty)
      · exact .inr ((if_neg hempty).trans howner)

theorem mapError_locate_eq {α : Type} {x : Except Fault α} {owner name : String} {report : Report} :
    x.mapError (·.locate owner name) = .error (.report report) ↔
      ∃ inner, x = .error (.report inner) ∧ report = inner.locate owner name := by
  cases x with
  | ok a => simp [Except.mapError]
  | error fault => cases fault <;> simp [Except.mapError, Fault.locate, eq_comm]

theorem typeNamed_eq_error {name : String} {fault : Fault} :
    typeNamed name = .error fault ↔ name = "" ∧ fault = .ofCause .emptyTypeName := by
  unfold typeNamed
  rw [← String.toList_eq_nil_iff]
  split
  · simp [eq_comm, *]
  · split
    · simp [*]
    · split <;> simp [*]

/-- What a part ends with, if it cannot be read. -/
def Part.Ends (owner : String) : Part → Report → Prop
  | .type v, report => typeOf owner v = .error (.report report)
  | .member kind v, report => memberOf owner kind v = .error (.report report)
  | .content fields, report => classParts owner fields = .error (.report report)

/-- A part ends with a report by the rules. -/
def Part.Explained (owner : String) (part : Part) : Prop :=
  ∀ report, part.Ends owner report →
    ∃ trail, Fails owner part trail report.cause ∧ AtTrail owner trail report

section Explained

variable {owner : String} {fields : Fields}

theorem explained_type_map (ih : ∀ w, Below w (.map fields) →
    (Part.type w).Explained owner ∧ ∀ kind, (Part.member kind w).Explained owner) :
    (Part.type (.map fields)).Explained owner := by
  intro report h
  have h' : formOf fields >>= Form.read owner = .error (.report report) := typeOf_map owner _ ▸ h
  rcases bind_eq_error_iff.mp h' with h' | ⟨form, hform, h'⟩
  · obtain ⟨c, rfl⟩ := unplaced_formOf fields report h'
    exact ⟨[], .noForm h', atTrail_nil _ _⟩
  have hbelow : ∀ w ∈ form.parts, Below w (.map fields) := fun _ => below_of_formOf hform
  cases form with
  | union vs =>
    rcases bind_eq_error_iff.mp h' with h' | ⟨es, hes, h'⟩
    · obtain ⟨v, hv, hend⟩ := mapM_eq_error_iff.mp h'
      obtain ⟨trail, hfails, hat⟩ := (ih v (hbelow v hv.mem)).1 report hend
      exact ⟨trail, .inUnion hform hv hfails, hat⟩
    · unfold unionOf at h'
      split at h'
      · cases h'
        exact ⟨[], .shortUnion hform hes ‹_›, atTrail_nil _ _⟩
      · cases h'
  | array v =>
    rcases bind_eq_error_iff.mp h' with hend | ⟨_, -, h'⟩
    · obtain ⟨trail, hfails, hat⟩ := (ih v (hbelow v (by simp [Form.parts]))).1 report hend
      exact ⟨trail, .inArray hform hfails, hat⟩
    · cases h'
  | shape ps =>
    rcases bind_eq_error_iff.mp h' with h' | ⟨_, -, h'⟩
    · obtain ⟨p, hp, hend⟩ := mapM_eq_error_iff.mp h'
      obtain ⟨trail, hfails, hat⟩ := (ih p (hbelow p hp.mem)).2 _ report hend
      exact ⟨trail, .inShape hform hp hfails, hat⟩
    · cases h'
  | table k v =>
    rcases bind_eq_error_iff.mp h' with hend | ⟨e, he, h'⟩
    · obtain ⟨trail, hfails, hat⟩ := (ih k (hbelow k (by simp [Form.parts]))).1 report hend
      exact ⟨trail, .inKey hform hfails, hat⟩
    · rcases bind_eq_error_iff.mp h' with hend | ⟨_, -, h'⟩
      · obtain ⟨trail, hfails, hat⟩ := (ih v (hbelow v (by simp [Form.parts]))).1 report hend
        exact ⟨trail, .inValue hform he hfails, hat⟩
      · cases h'
  | name text =>
    obtain ⟨rfl, h'⟩ := typeNamed_eq_error.mp h'
    cases h'
    exact ⟨[], .emptyForm hform, atTrail_nil _ _⟩

theorem explained_member_map (ih : ∀ w, Below w (.map fields) →
    (Part.type w).Explained owner ∧ ∀ kind, (Part.member kind w).Explained owner)
    (kind : Option String) {v : Value} (hname : Value.field? "name" fields = some v) :
    (Part.member kind (.map fields)).Explained owner := by
  intro report h
  have h' : memberOf owner kind (.map fields) = .error (.report report) := h
  rw [memberOf_map hname] at h'
  rcases bind_eq_error_iff.mp h' with h' | ⟨name, hwritten, h'⟩
  · exact absurd h' (written_ne_report v report)
  have hn : Named (.map fields) name := ⟨v, hname, hwritten⟩
  rcases bind_eq_error_iff.mp h' with h' | ⟨k, hk, h'⟩
  · exact absurd h' (kindOf_ne_report kind fields report)
  rcases bind_eq_error_iff.mp h' with h' | ⟨parts, -, h'⟩
  · obtain ⟨inner, hinner, rfl⟩ := mapError_locate_eq.mp h'
    suffices hs : ∃ trail, Fails owner (.member kind (.map fields)) (name :: trail) inner.cause ∧
        AtTrail owner trail inner by
      obtain ⟨trail, hfails, hat⟩ := hs
      exact ⟨name :: trail, hfails, hat.locate name⟩
    rcases bind_eq_error_iff.mp hinner with h' | ⟨e, he, h'⟩
    · rw [memberType_eq] at h'
      split at h'
      · cases h'
      · rename_i w hw
        obtain ⟨trail, hfails, hat⟩ := (ih w (.field hw)).1 inner h'
        exact ⟨trail, .inType hn hk hw hfails, hat⟩
    rcases bind_eq_error_iff.mp h' with h' | ⟨items, hitems, h'⟩
    · obtain ⟨c, rfl⟩ := unplaced_listField _ fields inner h'
      exact ⟨[], .noArguments hn hk he h', atTrail_nil _ _⟩
    rcases bind_eq_error_iff.mp h' with h' | ⟨args, hargs, h'⟩
    · obtain ⟨a, ha, hend⟩ := mapM_eq_error_iff.mp h'
      obtain ⟨trail, hfails, hat⟩ := (ih a (.item hitems ha.mem)).2 _ inner hend
      exact ⟨trail, .inArgument hn hk he hitems ha hfails, hat⟩
    rcases bind_eq_error_iff.mp h' with h' | ⟨doc, -, h'⟩
    · obtain ⟨c, rfl⟩ := unplaced_docField fields inner h'
      exact ⟨[], .inMemberDoc hn hk he hitems hargs h', atTrail_nil _ _⟩
    · cases h'
  · rcases bind_eq_error_iff.mp h' with h' | ⟨_, -, h'⟩
    · exact absurd h' (aliasOf_ne_report _ report)
    · cases h'

theorem memberOf_of_nameless {kind : Option String} {v : Value} (h : nameValue? v = none) :
    memberOf owner kind v = .error (.showing v ⟨.memberWithoutName v, owner, ""⟩) := by
  cases v with
  | map fields => exact memberOf_nameless h
  | _ => rfl

theorem explained_nameless {v : Value} (h : nameValue? v = none) (kind : Option String) :
    (Part.member kind v).Explained owner := by
  intro report hend
  have hend' : memberOf owner kind v = .error (.report report) := hend
  rw [memberOf_of_nameless h] at hend'
  unfold Fault.showing at hend'
  split at hend'
  · cases hend'
    exact ⟨[], .nameless h ‹_›, rfl, .inr rfl⟩
  · cases hend'

theorem typeOf_of_noType {v : Value} (ht : ∀ s, v ≠ .text s) (hm : ∀ fields, v ≠ .map fields) :
    typeOf owner v = .error (misfit v (.notAType v)) := by
  cases v with
  | text s => exact absurd rfl (ht s)
  | map fields => exact absurd rfl (hm fields)
  | _ => rfl

theorem explained_noType {v : Value} (ht : ∀ s, v ≠ .text s) (hm : ∀ fields, v ≠ .map fields) :
    (Part.type v).Explained owner := by
  intro report hend
  have hend' : typeOf owner v = .error (.report report) := hend
  rw [typeOf_of_noType ht hm] at hend'
  unfold misfit Fault.showing at hend'
  split at hend'
  · cases hend'
    exact ⟨[], .noType ht hm ‹_›, atTrail_nil _ _⟩
  · cases hend'

/-- **Every report is explained** by the rules: a type, and a member of any kind. -/
theorem explained (owner : String) (v : Value) :
    (Part.type v).Explained owner ∧ ∀ kind, (Part.member kind v).Explained owner := by
  induction v using reading_induction with
  | h v ih =>
    constructor
    · cases v with
      | map fields => exact explained_type_map ih
      | text s =>
        intro report h
        have h' : typeOf owner (.text s) = .error (.report report) := h
        rw [typeOf] at h'
        obtain ⟨rfl, h'⟩ := typeNamed_eq_error.mp h'
        cases h'
        exact ⟨[], .noName, atTrail_nil _ _⟩
      | _ => exact explained_noType (by simp) (by simp)
    · intro kind
      cases hname : nameValue? v with
      | none => exact explained_nameless hname kind
      | some w =>
        cases v with
        | map fields => exact explained_member_map ih kind hname
        | _ => cases hname

theorem explained_content (owner : String) (fields : Fields) :
    (Part.content fields).Explained owner := by
  intro report h
  rcases bind_eq_error_iff.mp h with h' | ⟨items, hitems, h'⟩
  · obtain ⟨c, rfl⟩ := unplaced_listField _ fields report h'
    exact ⟨[], .noMembers h', atTrail_nil _ _⟩
  rcases bind_eq_error_iff.mp h' with h' | ⟨members, hmembers, h'⟩
  · obtain ⟨m, hm, hend⟩ := mapM_eq_error_iff.mp h'
    obtain ⟨trail, hfails, hat⟩ := (explained owner m).2 none report hend
    exact ⟨trail, .inMember hitems hm hfails, hat⟩
  rcases bind_eq_error_iff.mp h' with h' | ⟨doc, -, h'⟩
  · obtain ⟨c, rfl⟩ := unplaced_docField fields report h'
    exact ⟨[], .inClassDoc hitems hmembers h', atTrail_nil _ _⟩
  · cases h'

end Explained

/-- A part of a member that fails makes the member fail, one name further out. -/
theorem memberOf_eq_error {owner name k : String} {kind : Option String} {fields : Fields}
    {inner : Report} (hn : Named (.map fields) name) (hk : kindOf kind fields = .ok k)
    (h : memberParts owner fields = .error (.report inner)) :
    memberOf owner kind (.map fields) = .error (.report (inner.locate owner name)) := by
  obtain ⟨v, hname, hwritten⟩ := hn
  rw [memberOf_map hname, hwritten, hk, h]
  rfl

/-- **What fails by the rules** ends with a report for the cause, at the end of the trail. -/
theorem ends_of_fails {owner : String} {part : Part} {trail : List String} {c : Cause}
    (h : Fails owner part trail c) :
    ∃ report, part.Ends owner report ∧ report.cause = c ∧ AtTrail owner trail report := by
  -- a member puts its name in front of the trail of the part that fails
  have hlocated : ∀ {kind : Option String} {k name : String} {fields : Fields}
      {trail : List String} {c : Cause}, Named (.map fields) name → kindOf kind fields = .ok k →
      (∃ inner, memberParts owner fields = .error (.report inner) ∧ inner.cause = c ∧
        AtTrail owner trail inner) →
      ∃ report, (Part.member kind (.map fields)).Ends owner report ∧ report.cause = c ∧
        AtTrail owner (name :: trail) report := by
    rintro kind k name fields trail c hn hk ⟨inner, hinner, hc, hat⟩
    exact ⟨_, memberOf_eq_error hn hk hinner, hc, hat.locate name⟩
  induction h with
  | @noType v ht hm hw =>
    refine ⟨⟨.notAType v, "", ""⟩, ?_, rfl, atTrail_nil _ _⟩
    show typeOf owner v = _
    rw [typeOf_of_noType ht hm, misfit, Fault.showing, if_pos hw]
  | noName => exact ⟨_, rfl, rfl, atTrail_nil _ _⟩
  | @noForm fields c h =>
    refine ⟨⟨c, "", ""⟩, ?_, rfl, atTrail_nil _ _⟩
    show typeOf owner (.map fields) = _
    rw [typeOf_map, h]
    rfl
  | emptyForm h => exact ⟨_, typeOf_of_form h, rfl, atTrail_nil _ _⟩
  | @shortUnion fields vs es h hread hlen =>
    refine ⟨⟨.shortUnion, "", ""⟩, (typeOf_of_form h).trans ?_, rfl, atTrail_nil _ _⟩
    exact bind_eq_error_iff.mpr (.inr ⟨es, hread, if_pos hlen⟩)
  | inUnion h hv _ ih =>
    obtain ⟨report, hend, hc, hat⟩ := ih
    refine ⟨report, (typeOf_of_form h).trans ?_, hc, hat⟩
    exact bind_eq_error_iff.mpr (.inl (mapM_eq_error_iff.mpr ⟨_, hv, hend⟩))
  | inArray h _ ih =>
    obtain ⟨report, hend, hc, hat⟩ := ih
    refine ⟨report, (typeOf_of_form h).trans ?_, hc, hat⟩
    exact bind_eq_error_iff.mpr (.inl hend)
  | inKey h _ ih =>
    obtain ⟨report, hend, hc, hat⟩ := ih
    refine ⟨report, (typeOf_of_form h).trans ?_, hc, hat⟩
    exact bind_eq_error_iff.mpr (.inl hend)
  | inValue h hk _ ih =>
    obtain ⟨report, hend, hc, hat⟩ := ih
    refine ⟨report, (typeOf_of_form h).trans ?_, hc, hat⟩
    exact bind_eq_error_iff.mpr (.inr ⟨_, hk, bind_eq_error_iff.mpr (.inl hend)⟩)
  | inShape h hp _ ih =>
    obtain ⟨report, hend, hc, hat⟩ := ih
    refine ⟨report, (typeOf_of_form h).trans ?_, hc, hat⟩
    exact bind_eq_error_iff.mpr (.inl (mapM_eq_error_iff.mpr ⟨_, hp, hend⟩))
  | @nameless kind v h hw =>
    refine ⟨⟨.memberWithoutName v, owner, ""⟩, ?_, rfl, rfl, .inr rfl⟩
    show memberOf owner kind v = _
    rw [memberOf_of_nameless h, Fault.showing, if_pos hw]
  | inType hn hk hv _ ih =>
    obtain ⟨inner, hend, hc, hat⟩ := ih
    refine hlocated hn hk ⟨inner, bind_eq_error_iff.mpr (.inl ?_), hc, hat⟩
    rw [memberType_eq, hv]
    exact hend
  | noArguments hn hk he h =>
    exact hlocated hn hk ⟨_, bind_eq_error_iff.mpr (.inr ⟨_, he, bind_eq_error_iff.mpr (.inl h)⟩),
      rfl, atTrail_nil _ _⟩
  | inArgument hn hk he h ha _ ih =>
    obtain ⟨inner, hend, hc, hat⟩ := ih
    refine hlocated hn hk ⟨inner, ?_, hc, hat⟩
    refine bind_eq_error_iff.mpr (.inr ⟨_, he, bind_eq_error_iff.mpr (.inr ⟨_, h, ?_⟩)⟩)
    exact bind_eq_error_iff.mpr (.inl (mapM_eq_error_iff.mpr ⟨_, ha, hend⟩))
  | inMemberDoc hn hk he h hargs hdoc =>
    refine hlocated hn hk ⟨_, ?_, rfl, atTrail_nil _ _⟩
    refine bind_eq_error_iff.mpr (.inr ⟨_, he, bind_eq_error_iff.mpr (.inr ⟨_, h, ?_⟩)⟩)
    exact bind_eq_error_iff.mpr (.inr ⟨_, hargs, bind_eq_error_iff.mpr (.inl hdoc)⟩)
  | noMembers h => exact ⟨_, bind_eq_error_iff.mpr (.inl h), rfl, atTrail_nil _ _⟩
  | inMember h hm _ ih =>
    obtain ⟨report, hend, hc, hat⟩ := ih
    exact ⟨report, bind_eq_error_iff.mpr (.inr ⟨_, h, bind_eq_error_iff.mpr (.inl
      (mapM_eq_error_iff.mpr ⟨_, hm, hend⟩))⟩), hc, hat⟩
  | inClassDoc h hmembers hdoc =>
    exact ⟨_, bind_eq_error_iff.mpr (.inr ⟨_, h, bind_eq_error_iff.mpr (.inr
      ⟨_, hmembers, bind_eq_error_iff.mpr (.inl hdoc)⟩)⟩), rfl, atTrail_nil _ _⟩

/-! ### Classes and documents -/

/-- **The reports of a class** with a name are those of the rules for what stands in it.  They name
the class and the innermost name of the trail. -/
theorem classOf_report_iff {fields : Fields} {name : String} (hn : Named (.map fields) name)
    {report : Report} : classOf (.map fields) = .error (.report report) ↔
      ∃ trail, Fails name (.content fields) trail report.cause ∧
        report = ⟨report.cause, name, innermost trail⟩ := by
  obtain ⟨v, hname, hwritten⟩ := hn
  have hclass : classOf (.map fields) =
      (classParts name fields).mapError (·.locate name "") >>= fun parts =>
        pure { name, members := parts.1, doc := parts.2 } := by
    rw [classOf_map hname, hwritten]
    rfl
  -- the class fills in its name, and no name of a member
  have hlocate : ∀ {trail : List String} {inner : Report}, AtTrail name trail inner →
      inner.locate name "" = ⟨inner.cause, name, innermost trail⟩ := by
    rintro trail ⟨c, o, m⟩ ⟨rfl, ho⟩
    rcases ho with ho | ho <;> simp_all [Report.locate]
  rw [hclass, bind_eq_error_iff, mapError_locate_eq]
  constructor
  · rintro (⟨inner, hinner, rfl⟩ | ⟨_, -, h⟩)
    · obtain ⟨trail, hfails, hat⟩ := explained_content name fields inner hinner
      rw [hlocate hat]
      exact ⟨trail, hfails, rfl⟩
    · cases h
  · rintro ⟨trail, hfails, hreport⟩
    obtain ⟨inner, hinner, hc, hat⟩ := ends_of_fails hfails
    exact .inl ⟨inner, hinner, by rw [hlocate hat, hc, hreport]⟩

theorem classOf_of_nameless {entry : Value} (h : nameValue? entry = none) :
    classOf entry = .error (misfit entry (.classWithoutName entry)) := by
  cases entry with
  | map fields => exact classOf_nameless h
  | _ => rfl

/-- **A list of classes** cannot be read at the first entry that cannot be read, or whose name is
taken by an entry before it. -/
theorem classesFrom_eq_error {taken : List String} {vs : List Value} {fault : Fault}
    (h : classesFrom taken vs = .error fault) :
    ∃ before entry after classes, vs = before ++ entry :: after ∧
      classesFrom taken before = .ok classes ∧
      (classOf entry = .error fault ∨ ∃ c, classOf entry = .ok c ∧
        (c.name ∈ taken ∨ c.name ∈ classes.map (·.name)) ∧
        fault = .report ⟨.classDeclaredTwice, c.name, ""⟩) := by
  induction vs generalizing taken with
  | nil => cases h
  | cons v vs ih =>
    unfold classesFrom at h
    rcases bind_eq_error_iff.mp h with h | ⟨c, hc, h⟩
    · exact ⟨[], v, vs, [], rfl, rfl, .inl h⟩
    by_cases htaken : taken.contains c.name = true
    · rw [if_pos htaken] at h
      cases h
      exact ⟨[], v, vs, [], rfl, rfl, .inr ⟨c, hc, .inl (by simpa using htaken), rfl⟩⟩
    · rw [if_neg htaken] at h
      rcases bind_eq_error_iff.mp h with h | ⟨_, -, h⟩
      · obtain ⟨before, entry, after, classes, rfl, hbefore, hentry⟩ := ih h
        refine ⟨v :: before, entry, after, c :: classes, rfl, ?_, ?_⟩
        · unfold classesFrom
          rw [hc]
          show (if taken.contains c.name = true then _ else _) = _
          rw [if_neg htaken, hbefore]
          rfl
        · rcases hentry with hentry | ⟨c', hc', hname, rfl⟩
          · exact .inl hentry
          · refine .inr ⟨c', hc', ?_, rfl⟩
            rcases hname with hname | hname
            · rcases List.mem_cons.mp hname with hown | hname
              · exact .inr (List.mem_cons.mpr (.inl hown))
              · exact .inl hname
            · exact .inr (List.mem_cons_of_mem _ hname)
      · cases h

theorem named_of_classOf {entry : Value} {c : ApiClass} (h : classOf entry = .ok c) :
    Named entry c.name := by
  obtain ⟨fields, nameValue, rfl, hname, hwritten, -⟩ := classOf_eq_ok h
  exact ⟨nameValue, hname, hwritten⟩

/-- The place of a report on an entry of a list of classes, after some classes that have been
read. -/
inductive EntryReport (classes : List ApiClass) (entry : Value) : Report → Prop
  /-- An entry without a name is reported without a place. -/
  | nameless (h : nameValue? entry = none) :
    EntryReport classes entry ⟨.classWithoutName entry, "", ""⟩
  /-- What stands in a class is reported at the class and at the innermost name around it. -/
  | content {fields : Fields} {name : String} {trail : List String} {c : Cause}
    (he : entry = .map fields) (hn : Named entry name) (h : Fails name (.content fields) trail c) :
    EntryReport classes entry ⟨c, name, innermost trail⟩
  /-- A class whose name is taken is reported at its name. -/
  | twice {c : ApiClass} (hn : Named entry c.name) (h : classOf entry = .ok c)
    (htaken : c.name ∈ classes.map (·.name)) :
    EntryReport classes entry ⟨.classDeclaredTwice, c.name, ""⟩

/-- An entry that cannot be read is reported by its name or for the lack of one. -/
theorem entryReport_of_classOf {entry : Value} {report : Report}
    (h : classOf entry = .error (.report report)) (classes : List ApiClass) :
    EntryReport classes entry report := by
  cases hname : nameValue? entry with
  | none =>
    rw [classOf_of_nameless hname] at h
    unfold misfit Fault.showing at h
    split at h
    · cases h
      exact .nameless hname
    · cases h
  | some v =>
    cases entry with
    | map fields =>
      have hclass := h
      rw [classOf_map hname] at hclass
      rcases bind_eq_error_iff.mp hclass with hclass | ⟨name, hwritten, -⟩
      · exact absurd hclass (written_ne_report v report)
      have hn : Named (.map fields) name := ⟨v, hname, hwritten⟩
      obtain ⟨trail, hfails, hreport⟩ := (classOf_report_iff hn).mp h
      rw [hreport]
      exact .content rfl hn hfails
    | _ => cases hname

/-- **Reading reports at the class and at the innermost name.**  A document that is no list of
classes is reported without a place.  Any other report is on the first entry that cannot be read or
whose name is taken:

* if the entry has a name, the report names it and, of the names of the members, arguments and
  properties around the fault, the innermost that is not empty;
* if it has none, the report has no place.

So a report names a class unless it is on the document as a whole, on an entry without a name or on
one whose name is empty. -/
theorem reading_report_place {document : Value} {report : Report}
    (h : classesOf document = .error (.report report)) :
    (((∀ entries, classList document ≠ .list entries) ∧ report = ⟨.notAClassList, "", ""⟩) ∨
      ∃ before entry after classes, classList document = .list (before ++ entry :: after) ∧
        classesOf (.list before) = .ok classes ∧ EntryReport classes entry report) ∧
    (report.owner = "" → (∀ entries, classList document ≠ .list entries) ∨
      ∃ entries entry, classList document = .list entries ∧ entry ∈ entries ∧
        (nameValue? entry = none ∨ Named entry "")) := by
  have hreport : ((∀ entries, classList document ≠ .list entries) ∧
      report = ⟨.notAClassList, "", ""⟩) ∨
      ∃ before entry after classes, classList document = .list (before ++ entry :: after) ∧
        classesOf (.list before) = .ok classes ∧ EntryReport classes entry report := by
    unfold classesOf at h
    split at h
    · rename_i entries hlist
      obtain ⟨before, entry, after, classes, rfl, hbefore, hentry⟩ := classesFrom_eq_error h
      refine .inr ⟨before, entry, after, classes, hlist, hbefore, ?_⟩
      rcases hentry with hentry | ⟨c, hc, hname, hfault⟩
      · exact entryReport_of_classOf hentry classes
      · cases hfault
        exact .twice (named_of_classOf hc) hc (hname.resolve_left List.not_mem_nil)
    · rename_i hlist
      cases h
      exact .inl ⟨hlist, rfl⟩
  refine ⟨hreport, fun howner => ?_⟩
  rcases hreport with ⟨hlist, -⟩ | ⟨before, entry, after, classes, hlist, -, hentry⟩
  · exact .inl hlist
  · refine .inr ⟨_, entry, hlist, by simp, ?_⟩
    cases hentry with
    | nameless hname => exact .inl hname
    | content _ hn _ => exact .inr (howner ▸ hn)
    | twice hn _ _ => exact .inr (howner ▸ hn)

/-- A class with a property that has an empty name and an array type without an element, in the
options of a method. -/
def gotoDocument : Value :=
  .list [.map [(.text "name", .text "Page"), (.text "members", .list [
    .map [(.text "name", .text "goto"), (.text "args", .list [
      .map [(.text "name", .text "options"), (.text "type", .map [
        (.text "name", .text "Object"), (.text "properties", .list [
          .map [(.text "name", .text ""), (.text "type", .map [
            (.text "name", .text "Array")])]])])]])]])]]

theorem reading_report_gotoDocument :
    classesOf gotoDocument = .error (.report ⟨.arrayArity 0, "Page", "options"⟩) ∧
      ∃ entry, classList gotoDocument = .list [entry] ∧
        EntryReport [] entry ⟨.arrayArity 0, "Page", "options"⟩ := by
  refine ⟨rfl, _, rfl, ?_⟩
  rcases (@reading_report_place gotoDocument _ rfl).1 with
    ⟨-, hreport⟩ | ⟨before, entry, after, classes, hlist, hbefore, hentry⟩
  · cases hreport
  · have hsplit := Value.list.inj hlist
    cases before with
    | nil =>
      obtain ⟨rfl, rfl⟩ := List.cons.inj hsplit
      cases hbefore
      exact hentry
    | cons b before =>
      obtain ⟨-, hnil⟩ := List.cons.inj hsplit
      cases before <;> cases hnil

end ApiSurface.Description
