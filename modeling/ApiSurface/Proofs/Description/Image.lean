import ApiSurface.Proofs.Description.Reading

/-!
# What descriptions can describe

Not every list of classes has a description.  `AdmissibleType` and `AdmissibleMember` say which
types and members have one, at every depth; the classes must have different names, too.
-/

namespace ApiSurface.Description

/-! ### Admissible types -/

/-- The first character of a text exists and is of some sort. -/
def StartsWith (P : Char → Prop) (s : String) : Prop := ∃ c cs, s.toList = c :: cs ∧ P c

/-- The two quote marks. -/
def IsQuote (c : Char) : Prop := c = '"' ∨ c = '\''

/-- The names of types that are not those of classes: the names that are built in, and all that
start with a lowercase letter. -/
def IsPrimitiveName (name : String) : Prop :=
  name ∈ builtinNames ∨ StartsWith (fun c => Text.isLowercase c = true) name

mutual
/-- A type that has a description. -/
inductive AdmissibleType : TypeExpr → Prop
  | primitive {name : String} (h : IsPrimitiveName name) : AdmissibleType (.primitive name)
  | literal {text : String} (h : StartsWith IsQuote text) : AdmissibleType (.literal text)
  | named {name : String} (hne : name ≠ "") (hprimitive : ¬ IsPrimitiveName name)
    (hquote : ¬ StartsWith IsQuote name) : AdmissibleType (.named name)
  | array {e : TypeExpr} (h : AdmissibleType e) : AdmissibleType (.array e)
  | union {es : List TypeExpr} (hlen : 2 ≤ es.length) (h : ∀ e ∈ es, AdmissibleType e) :
    AdmissibleType (.union es)
  | shape {ps : List Member} (hkind : ∀ p ∈ ps, p.kind = "property")
    (h : ∀ p ∈ ps, AdmissibleMember p) : AdmissibleType (.shape ps)
  | map {k v : TypeExpr} (hk : AdmissibleType k) (hv : AdmissibleType v) :
    AdmissibleType (.map k v)
/-- A member that has a description. -/
inductive AdmissibleMember : Member → Prop
  | intro {m : Member} (htype : AdmissibleType m.type) (hkind : ∀ a ∈ m.args, a.kind = "argument")
    (h : ∀ a ∈ m.args, AdmissibleMember a) : AdmissibleMember m
end

/-- A list of classes that has a description. -/
structure AdmissibleClasses (classes : List ApiClass) : Prop where
  names_nodup : (classes.map (·.name)).Nodup
  members : ∀ c ∈ classes, ∀ m ∈ c.members, AdmissibleMember m

/-! ### Names -/

theorem not_isLowercase_of_isQuote {c : Char} (h : IsQuote c) : Text.isLowercase c = false := by
  rcases h with rfl | rfl <;> decide

/-- A name with a first character is told by this character and by the names that are built in. -/
theorem typeNamed_of_head {name : String} {c : Char} {cs : List Char} (h : name.toList = c :: cs) :
    typeNamed name = if c = '"' || c = '\'' then .ok (.literal name)
      else if builtinNames.contains name || Text.isLowercase c then .ok (.primitive name)
      else .ok (.named name) := by
  unfold typeNamed
  rw [h]

theorem startsWith_iff {P : Char → Prop} {name : String} {c : Char} {cs : List Char}
    (h : name.toList = c :: cs) : StartsWith P name ↔ P c := by
  constructor
  · rintro ⟨d, ds, hd, hP⟩
    rw [h] at hd
    cases hd
    exact hP
  · exact fun hP => ⟨c, cs, h, hP⟩

theorem isPrimitiveName_iff {name : String} {c : Char} {cs : List Char} (h : name.toList = c :: cs) :
    IsPrimitiveName name ↔ (builtinNames.contains name || Text.isLowercase c) = true := by
  unfold IsPrimitiveName
  rw [startsWith_iff h, Bool.or_eq_true, List.contains_iff_mem]

theorem isQuote_iff {c : Char} : IsQuote c ↔ (c = '"' || c = '\'') = true := by
  simp [IsQuote]

theorem not_startsWith_of_isPrimitiveName {name : String} (h : IsPrimitiveName name) :
    ¬ StartsWith IsQuote name := by
  rintro ⟨c, cs, hname, hquote⟩
  rcases h with h | h
  · have hbuiltin : builtinNames.all (fun name =>
        name.toList.head?.all fun c => !(c = '"' || c = '\'')) = true := by decide
    have hhead := List.all_eq_true.mp hbuiltin name h
    rw [hname, List.head?_cons, Option.all_some, isQuote_iff.mp hquote] at hhead
    cases hhead
  · have hlower := (startsWith_iff hname).mp h
    rw [not_isLowercase_of_isQuote hquote] at hlower
    cases hlower

/-- **A name on its own** stands for a type that is admissible. -/
theorem admissible_of_typeNamed {name : String} {e : TypeExpr} (h : typeNamed name = .ok e) :
    AdmissibleType e := by
  cases hname : name.toList with
  | nil =>
    unfold typeNamed at h
    rw [hname] at h
    cases h
  | cons c cs =>
    rw [typeNamed_of_head hname] at h
    split at h
    · cases h
      exact .literal ((startsWith_iff hname).mpr (isQuote_iff.mpr ‹_›))
    · rename_i hquote
      split at h
      · cases h
        exact .primitive ((isPrimitiveName_iff hname).mpr ‹_›)
      · cases h
        refine .named ?_ (mt (isPrimitiveName_iff hname).mp ‹_›) ?_
        · rintro rfl
          cases hname
        · exact mt (startsWith_iff hname).mp (mt isQuote_iff.mp hquote)

theorem typeNamed_primitive {name : String} (h : IsPrimitiveName name) :
    typeNamed name = .ok (.primitive name) := by
  cases hname : name.toList with
  | nil =>
    rw [String.toList_eq_nil_iff] at hname
    subst hname
    rcases h with h | ⟨c, cs, hc, -⟩
    · exact absurd h (by decide)
    · cases hc
  | cons c cs =>
    have hquote := mt (startsWith_iff hname).mpr (not_startsWith_of_isPrimitiveName h)
    rw [typeNamed_of_head hname, if_neg (mt isQuote_iff.mpr hquote),
      if_pos ((isPrimitiveName_iff hname).mp h)]

theorem typeNamed_literal {text : String} (h : StartsWith IsQuote text) :
    typeNamed text = .ok (.literal text) := by
  obtain ⟨c, cs, htext, hquote⟩ := h
  rw [typeNamed_of_head htext, if_pos (isQuote_iff.mp hquote)]

theorem typeNamed_named {name : String} (hne : name ≠ "") (hprimitive : ¬ IsPrimitiveName name)
    (hquote : ¬ StartsWith IsQuote name) : typeNamed name = .ok (.named name) := by
  cases hname : name.toList with
  | nil => exact absurd (String.toList_eq_nil_iff.mp hname) hne
  | cons c cs =>
    rw [typeNamed_of_head hname,
      if_neg (mt isQuote_iff.mpr (mt (startsWith_iff hname).mpr hquote)),
      if_neg (mt (isPrimitiveName_iff hname).mpr hprimitive)]

/-! ### Whatever is read is admissible -/

theorem kind_of_memberOf {owner kind : String} {v : Value} {m : Member}
    (h : memberOf owner (some kind) v = .ok m) : m.kind = kind := by
  obtain ⟨fields, -, hkind, -⟩ := memberOf_eq_ok h
  exact (Except.ok.inj hkind).symm

/-- What the induction over a document shows of each value. -/
def ReadsAdmissible (owner : String) (v : Value) : Prop :=
  (∀ e, typeOf owner v = .ok e → AdmissibleType e) ∧
    ∀ kind m, memberOf owner kind v = .ok m → AdmissibleMember m

theorem admissible_of_form {owner : String} {form : Form} {e : TypeExpr}
    (ih : ∀ v ∈ form.parts, ReadsAdmissible owner v) (h : form.read owner = .ok e) :
    AdmissibleType e := by
  cases form with
  | union vs =>
    obtain ⟨es, hes, h⟩ := exists_ok_of_bind h
    unfold unionOf at h
    split at h
    · cases h
    · cases h
      exact .union (by omega) (forall_of_mapM hes fun v hv => (ih v hv).1)
  | array v =>
    obtain ⟨e, he, h⟩ := exists_ok_of_bind h
    cases h
    exact .array ((ih v (by simp [Form.parts])).1 e he)
  | shape vs =>
    obtain ⟨ps, hps, h⟩ := exists_ok_of_bind h
    cases h
    exact .shape (forall_of_mapM hps fun _ _ _ => kind_of_memberOf)
      (forall_of_mapM hps fun v hv => (ih v hv).2 _)
  | table k v =>
    obtain ⟨key, hkey, h⟩ := exists_ok_of_bind h
    obtain ⟨value, hvalue, h⟩ := exists_ok_of_bind h
    cases h
    exact .map ((ih k (by simp [Form.parts])).1 key hkey)
      ((ih v (by simp [Form.parts])).1 value hvalue)
  | name text => exact admissible_of_typeNamed h

theorem admissible_of_memberParts {owner : String} {fields : Fields}
    {parts : TypeExpr × List Member × List DocNode}
    (ih : ∀ w, Below w (.map fields) → ReadsAdmissible owner w)
    (h : memberParts owner fields = .ok parts) :
    AdmissibleType parts.1 ∧ (∀ a ∈ parts.2.1, a.kind = "argument") ∧
      ∀ a ∈ parts.2.1, AdmissibleMember a := by
  obtain ⟨e, he, h⟩ := exists_ok_of_bind h
  obtain ⟨items, hitems, h⟩ := exists_ok_of_bind h
  obtain ⟨args, hargs, h⟩ := exists_ok_of_bind h
  obtain ⟨doc, -, h⟩ := exists_ok_of_bind h
  cases h
  refine ⟨?_, forall_of_mapM hargs fun _ _ _ => kind_of_memberOf,
    forall_of_mapM hargs fun v hv => (ih v (.item hitems hv)).2 _⟩
  rw [memberType_eq] at he
  cases htype : Value.field? "type" fields with
  | none =>
    rw [htype] at he
    exact admissible_of_typeNamed he
  | some v =>
    rw [htype] at he
    exact (ih v (.field htype)).1 e he

/-- **Whatever is read** from a value is admissible. -/
theorem admissible_of_read (owner : String) (v : Value) : ReadsAdmissible owner v := by
  induction v using reading_induction with
  | h v ih =>
    constructor
    · intro e h
      cases v with
      | text name => exact admissible_of_typeNamed (by rwa [typeOf] at h)
      | map fields =>
        rw [typeOf_map] at h
        obtain ⟨form, hform, h⟩ := exists_ok_of_bind h
        exact admissible_of_form (fun w hw => ih w (below_of_formOf hform hw)) h
      | _ => cases h
    · intro kind m h
      obtain ⟨fields, rfl, -, hparts⟩ := memberOf_eq_ok h
      obtain ⟨htype, hkind, hargs⟩ := admissible_of_memberParts ih hparts
      exact .intro htype hkind hargs

theorem admissible_of_classOf {entry : Value} {c : ApiClass} (h : classOf entry = .ok c) :
    ∀ m ∈ c.members, AdmissibleMember m := by
  obtain ⟨fields, nameValue, -, -, -, hparts⟩ := classOf_eq_ok h
  obtain ⟨items, -, hread⟩ := exists_ok_of_bind hparts
  obtain ⟨members, hmembers, hrest⟩ := exists_ok_of_bind hread
  obtain ⟨doc, -, hret⟩ := exists_ok_of_bind hrest
  obtain ⟨rfl, -⟩ := Prod.mk.inj (Except.ok.inj hret)
  exact forall_of_mapM hmembers fun v _ => (admissible_of_read c.name v).2 none

/-- **The classes of a list** are those of its entries, with names that differ from each other and
from those taken. -/
theorem classesFrom_eq_ok_iff {taken : List String} {vs : List Value} {classes : List ApiClass} :
    classesFrom taken vs = .ok classes ↔ vs.mapM classOf = .ok classes ∧
      (classes.map (·.name)).Nodup ∧ ∀ c ∈ classes, c.name ∉ taken := by
  induction vs generalizing taken classes with
  | nil =>
    unfold classesFrom
    rw [List.mapM_nil]
    constructor
    · intro h
      cases h
      exact ⟨rfl, List.nodup_nil, nofun⟩
    · exact fun h => h.1
  | cons v vs ih =>
    unfold classesFrom
    rw [List.mapM_cons]
    constructor
    · intro h
      obtain ⟨c, hc, h⟩ := exists_ok_of_bind h
      split at h
      · cases h
      · rename_i hfree
        obtain ⟨rest, hrest, h⟩ := exists_ok_of_bind h
        cases h
        obtain ⟨hread, hnodup, hnew⟩ := ih.mp hrest
        refine ⟨bind_eq_ok_iff.mpr ⟨c, hc, bind_eq_ok_iff.mpr ⟨rest, hread, rfl⟩⟩, ?_, ?_⟩
        · rw [List.map_cons, List.nodup_cons]
          refine ⟨?_, hnodup⟩
          rintro hmem
          obtain ⟨d, hd, hname⟩ := List.mem_map.mp hmem
          exact hnew d hd (hname ▸ List.mem_cons_self)
        · refine List.forall_mem_cons.mpr ⟨by simpa using hfree, fun d hd => ?_⟩
          exact fun htaken => hnew d hd (List.mem_cons_of_mem _ htaken)
    · rintro ⟨h, hnodup, hnew⟩
      obtain ⟨c, hc, h⟩ := exists_ok_of_bind h
      obtain ⟨rest, hrest, h⟩ := exists_ok_of_bind h
      cases h
      rw [List.map_cons, List.nodup_cons] at hnodup
      obtain ⟨hcnew, hnew⟩ := List.forall_mem_cons.mp hnew
      refine bind_eq_ok_iff.mpr ⟨c, hc, ?_⟩
      rw [if_neg (by simpa using hcnew)]
      refine bind_eq_ok_iff.mpr ⟨rest, ih.mpr ⟨hrest, hnodup.2, fun d hd => ?_⟩, rfl⟩
      rw [List.mem_cons, not_or]
      exact ⟨fun hname => hnodup.1 (List.mem_map.mpr ⟨d, hd, hname⟩), hnew d hd⟩

/-- **The classes of a document** are admissible. -/
theorem admissible_of_classesOf {document : Value} {classes : List ApiClass}
    (h : classesOf document = .ok classes) : AdmissibleClasses classes := by
  unfold classesOf at h
  split at h
  · obtain ⟨hread, hnodup, -⟩ := classesFrom_eq_ok_iff.mp h
    exact ⟨hnodup, forall_of_mapM hread fun _ _ _ => admissible_of_classOf⟩
  · cases h

/-! ### Descriptions -/

/-- A mapping with texts as keys. -/
def record (entries : List (String × Value)) : Value :=
  .map (entries.map fun entry => (.text entry.1, entry.2))

/-- A documentation node as a value. -/
def nodeValue (node : DocNode) : Value :=
  record [("type", .text node.kind), ("text", .text node.text),
    ("lines", .list (node.lines.map .text)), ("liType", .text node.listType)]

mutual
/-- A description of a type. -/
def typeValue : TypeExpr → Value
  | .primitive name => .text name
  | .literal text => .text text
  | .named name => .text name
  | .array e => record [("name", .text "Array"), ("templates", .list [typeValue e])]
  | .union es => record [("union", .list (typeValues es))]
  | .shape ps => record [("name", .text "Object"), ("properties", .list (memberValues ps))]
  | .map k v => record [("name", .text "Object"),
      ("templates", .list [typeValue k, typeValue v])]
termination_by structural e => e
/-- Descriptions of some types. -/
def typeValues : List TypeExpr → List Value
  | [] => []
  | e :: es => typeValue e :: typeValues es
termination_by structural es => es
/-- A description of a member. -/
def memberValue : Member → Value
  | ⟨kind, name, type, preferredName, isAsync, args, doc, deprecated⟩ =>
    record [("kind", .text kind), ("name", .text name), ("type", typeValue type),
      ("alias", preferredName.elim .null .text), ("async", .bool isAsync),
      ("args", .list (memberValues args)), ("spec", .list (doc.map nodeValue)),
      ("deprecated", .bool deprecated)]
termination_by structural m => m
/-- Descriptions of some members. -/
def memberValues : List Member → List Value
  | [] => []
  | m :: ms => memberValue m :: memberValues ms
termination_by structural ms => ms
end

/-- A description of a class. -/
def classValue (c : ApiClass) : Value :=
  record [("name", .text c.name), ("members", .list (c.members.map memberValue)),
    ("spec", .list (c.doc.map nodeValue))]

/-- The document that describes some classes. -/
def documentValue (classes : List ApiClass) : Value := .list (classes.map classValue)

theorem typeValues_eq_map (es : List TypeExpr) : typeValues es = es.map typeValue := by
  induction es with
  | nil => rfl
  | cons e es ih => rw [typeValues, ih, List.map_cons]

theorem memberValues_eq_map (ms : List Member) : memberValues ms = ms.map memberValue := by
  induction ms with
  | nil => rfl
  | cons m ms ih => rw [memberValues, ih, List.map_cons]

/-! ### Reading a description back -/

theorem docNodeOf_nodeValue (node : DocNode) : docNodeOf (nodeValue node) = .ok node := by
  have hlines : (node.lines.map Value.text).mapM Value.written = .ok node.lines :=
    mapM_map_eq_ok fun _ _ => rfl
  show (node.lines.map Value.text).mapM Value.written >>= _ = _
  rw [hlines]
  rfl

theorem docOf_nodeValues (doc : List DocNode) : docOf (.list (doc.map nodeValue)) = .ok doc :=
  mapM_map_eq_ok fun node _ => docNodeOf_nodeValue node

theorem memberOf_of_parts {owner : String} {kind : Option String} {m : Member}
    (hkind : kind.getD m.kind = m.kind) (htype : typeOf owner (typeValue m.type) = .ok m.type)
    (hargs : ∀ a ∈ m.args, memberOf owner (some "argument") (memberValue a) = .ok a) :
    memberOf owner kind (memberValue m) = .ok m := by
  obtain ⟨k, name, type, preferredName, isAsync, args, doc, deprecated⟩ := m
  rw [memberValue, record, @memberOf_map owner kind _ (.text name) rfl, memberValues_eq_map]
  set fields : Fields := List.map _ _
  have hread : memberParts owner fields = .ok (type, args, doc) := by
    refine bind_eq_ok_iff.mpr ⟨type, (memberType_eq owner fields).trans htype, ?_⟩
    refine bind_eq_ok_iff.mpr ⟨args.map memberValue, rfl, ?_⟩
    refine bind_eq_ok_iff.mpr ⟨args, mapM_map_eq_ok hargs, ?_⟩
    exact bind_eq_ok_iff.mpr ⟨doc, docOf_nodeValues doc, rfl⟩
  have hk : kindOf kind fields = .ok k := by
    cases kind with
    | none => rfl
    | some kind => exact congrArg Except.ok hkind
  have halias : aliasOf (Value.field? "alias" fields) = .ok preferredName := by
    cases preferredName <;> rfl
  have hasync : flagField "async" fields = isAsync := rfl
  have hdeprecated : flagField "deprecated" fields = deprecated := rfl
  rw [hread, hk, halias, hasync, hdeprecated]
  rfl

mutual
/-- **An admissible type** is read back from its description. -/
theorem typeOf_typeValue (owner : String) {e : TypeExpr} :
    AdmissibleType e → typeOf owner (typeValue e) = .ok e
  | .primitive h => typeNamed_primitive h
  | .literal h => typeNamed_literal h
  | .named hne hprimitive hquote => typeNamed_named hne hprimitive hquote
  | @AdmissibleType.array e h => by
    rw [typeValue, record, @typeOf_of_form owner _ (.array (typeValue e)) rfl]
    exact bind_eq_ok_iff.mpr ⟨e, typeOf_typeValue owner h, rfl⟩
  | @AdmissibleType.union es hlen h => by
    rw [typeValue, record, typeValues_eq_map,
      @typeOf_of_form owner _ (.union (es.map typeValue)) rfl]
    refine bind_eq_ok_iff.mpr ⟨es, mapM_map_eq_ok fun e he => typeOf_typeValue owner (h e he), ?_⟩
    exact if_neg (by omega)
  | @AdmissibleType.shape ps hkind h => by
    rw [typeValue, record, memberValues_eq_map,
      @typeOf_of_form owner _ (.shape (ps.map memberValue)) rfl]
    exact bind_eq_ok_iff.mpr ⟨ps, mapM_map_eq_ok fun p hp =>
      memberOf_memberValue owner (hkind p hp).symm (h p hp), rfl⟩
  | @AdmissibleType.map k v hk hv => by
    rw [typeValue, record, @typeOf_of_form owner _ (.table (typeValue k) (typeValue v)) rfl]
    exact bind_eq_ok_iff.mpr ⟨k, typeOf_typeValue owner hk,
      bind_eq_ok_iff.mpr ⟨v, typeOf_typeValue owner hv, rfl⟩⟩
/-- **An admissible member** is read back from its description, where a member of its kind stands. -/
theorem memberOf_memberValue (owner : String) {kind : Option String} {m : Member}
    (hm : kind.getD m.kind = m.kind) :
    AdmissibleMember m → memberOf owner kind (memberValue m) = .ok m
  | .intro htype hkind h => memberOf_of_parts hm (typeOf_typeValue owner htype) fun a ha =>
      memberOf_memberValue owner (hkind a ha).symm (h a ha)
end

/-- On its own, the name of the array type is that of a class. -/
example : typeOf "" (typeValue (.named "Array")) = .ok (.named "Array") := rfl

theorem classOf_classValue {c : ApiClass} (h : ∀ m ∈ c.members, AdmissibleMember m) :
    classOf (classValue c) = .ok c := by
  rw [classValue, record, @classOf_map _ (.text c.name) rfl]
  set fields : Fields := List.map _ _
  have hread : classParts c.name fields = .ok (c.members, c.doc) := by
    refine bind_eq_ok_iff.mpr ⟨c.members.map memberValue, rfl, ?_⟩
    refine bind_eq_ok_iff.mpr ⟨c.members, mapM_map_eq_ok fun m hm =>
      memberOf_memberValue c.name rfl (h m hm), ?_⟩
    exact bind_eq_ok_iff.mpr ⟨c.doc, docOf_nodeValues c.doc, rfl⟩
  exact bind_eq_ok_iff.mpr ⟨c.name, rfl,
    bind_eq_ok_iff.mpr ⟨_, mapError_eq_ok_iff.mpr hread, rfl⟩⟩

/-- **Admissible classes** are read back from their document. -/
theorem classesOf_documentValue {classes : List ApiClass} (h : AdmissibleClasses classes) :
    classesOf (documentValue classes) = .ok classes := by
  refine classesFrom_eq_ok_iff.mpr ⟨?_, h.names_nodup, fun c _ => List.not_mem_nil⟩
  exact mapM_map_eq_ok fun c hc => classOf_classValue (h.members c hc)

/-! ### The keys of a description -/

/-- A value as a document can hold it: no mapping has a key twice, or a list or a mapping as a
key. -/
inductive WellFormed : Value → Prop
  | null : WellFormed .null
  | bool (b : Bool) : WellFormed (.bool b)
  | int (n : Int) : WellFormed (.int n)
  | float (x : Binary64) : WellFormed (.float x)
  | text (s : String) : WellFormed (.text s)
  | list {vs : List Value} (h : ∀ v ∈ vs, WellFormed v) : WellFormed (.list vs)
  | map {fields : Fields} (hkeys : fields.Pairwise fun a b => a.1.sameKey b.1 = false)
    (hkey : ∀ entry ∈ fields, entry.1.isKey = true) (h : ∀ entry ∈ fields, WellFormed entry.2) :
    WellFormed (.map fields)

theorem wellFormed_record {entries : List (String × Value)} (hnames : (entries.map (·.1)).Nodup)
    (h : ∀ entry ∈ entries, WellFormed entry.2) : WellFormed (record entries) := by
  refine .map ?_ ?_ ?_
  · rw [List.pairwise_map]
    refine (List.pairwise_map.mp hnames).imp fun {a b} hne => ?_
    show decide (Value.text a.1 = Value.text b.1) = false
    exact decide_eq_false fun heq => hne (Value.text.inj heq)
  · exact List.forall_mem_map.mpr fun _ _ => rfl
  · exact List.forall_mem_map.mpr h

theorem wellFormed_items {α : Type} {f : α → Value} {as : List α}
    (h : ∀ a ∈ as, WellFormed (f a)) : WellFormed (.list (as.map f)) :=
  .list (List.forall_mem_map.mpr h)

theorem wellFormed_nodeValue (node : DocNode) : WellFormed (nodeValue node) := by
  refine wellFormed_record (by simp) ?_
  simp only [List.forall_mem_cons]
  exact ⟨.text _, .text _, wellFormed_items fun _ _ => .text _, .text _, nofun⟩

mutual
theorem wellFormed_typeValue : ∀ e : TypeExpr, WellFormed (typeValue e)
  | .primitive name => .text name
  | .literal text => .text text
  | .named name => .text name
  | .array e => by
    refine wellFormed_record (by simp) ?_
    simp only [List.forall_mem_cons]
    exact ⟨.text _, .list (List.forall_mem_singleton.mpr (wellFormed_typeValue e)), nofun⟩
  | .union es => by
    refine wellFormed_record (by simp) ?_
    simp only [List.forall_mem_cons]
    exact ⟨.list (wellFormed_typeValues es), nofun⟩
  | .shape ps => by
    refine wellFormed_record (by simp) ?_
    simp only [List.forall_mem_cons]
    exact ⟨.text _, .list (wellFormed_memberValues ps), nofun⟩
  | .map k v => by
    refine wellFormed_record (by simp) ?_
    simp only [List.forall_mem_cons]
    refine ⟨.text _, .list ?_, nofun⟩
    simp only [List.forall_mem_cons]
    exact ⟨wellFormed_typeValue k, wellFormed_typeValue v, nofun⟩
theorem wellFormed_typeValues : ∀ es : List TypeExpr, ∀ v ∈ typeValues es, WellFormed v
  | [] => nofun
  | e :: es => List.forall_mem_cons.mpr ⟨wellFormed_typeValue e, wellFormed_typeValues es⟩
theorem wellFormed_memberValue : ∀ m : Member, WellFormed (memberValue m)
  | ⟨kind, name, type, preferredName, isAsync, args, doc, deprecated⟩ => by
    have halias : WellFormed (preferredName.elim .null .text) := by
      cases preferredName with
      | none => exact .null
      | some preferred => exact .text preferred
    refine wellFormed_record (by simp) ?_
    simp only [List.forall_mem_cons]
    exact ⟨.text _, .text _, wellFormed_typeValue type, halias, .bool _,
      .list (wellFormed_memberValues args), wellFormed_items fun node _ => wellFormed_nodeValue node,
      .bool _, nofun⟩
theorem wellFormed_memberValues : ∀ ms : List Member, ∀ v ∈ memberValues ms, WellFormed v
  | [] => nofun
  | m :: ms => List.forall_mem_cons.mpr ⟨wellFormed_memberValue m, wellFormed_memberValues ms⟩
end

theorem wellFormed_documentValue (classes : List ApiClass) : WellFormed (documentValue classes) := by
  refine wellFormed_items fun c _ => wellFormed_record (by simp) ?_
  simp only [List.forall_mem_cons]
  exact ⟨.text _, wellFormed_items fun m _ => wellFormed_memberValue m,
    wellFormed_items fun node _ => wellFormed_nodeValue node, nofun⟩

/-- **The classes that documents describe** are the admissible ones: whatever is read from a document
is admissible, and all admissible classes are read from some document. -/
theorem classesOf_image (classes : List ApiClass) :
    (∀ document, classesOf document = .ok classes → AdmissibleClasses classes) ∧
      (AdmissibleClasses classes →
        ∃ document, WellFormed document ∧ classesOf document = .ok classes) :=
  ⟨fun _ => admissible_of_classesOf, fun h =>
    ⟨documentValue classes, wellFormed_documentValue classes, classesOf_documentValue h⟩⟩

end ApiSurface.Description
