import ApiSurface.Proofs.Code.Faults
import ApiSurface.Proofs.Protocol.Unreported
import Mathlib.Data.List.ReduceOption

/-!
# How documents fail

A protocol is read entry by entry, and its items are rendered property by property.  Either ends at
the first fault, which is a report unless something cannot be written, or a property that the run
comes to has a type without a report.
-/

namespace ApiSurface.Protocol

/-! ### Entries -/

/-- The item that an entry of a protocol is read as, if it is kept. -/
def itemOf : Value × Value → Except Fault (Option Item)
  | (key, .map fields) =>
    match keptKind? fields with
    | none => .ok none
    | some kind => do
      let properties ← propertiesOf key fields
      let name ← key.written
      return some ⟨name, kind, properties⟩
  | (key, _) => do throw (.report ⟨.notAProtocolItem, ← key.written, ""⟩)

/-- **The entries of a protocol** are read one after the other. -/
theorem itemsFrom_eq (entries : List (Value × Value)) :
    itemsFrom entries = (entries.mapM itemOf).map List.reduceOption := by
  induction entries with
  | nil => rfl
  | cons entry entries ih =>
    obtain ⟨key, v⟩ := entry
    rw [List.mapM_cons]
    cases v with
    | map fields =>
      rw [itemsFrom, itemOf, ih]
      cases keptKind? fields with
      | none => cases entries.mapM itemOf <;> rfl
      | some kind =>
        cases propertiesOf key fields with
        | error fault => rfl
        | ok properties =>
          cases key.written with
          | error fault => rfl
          | ok name => cases entries.mapM itemOf <;> rfl
    | null | bool _ | int _ | float _ | text _ | list _ =>
      cases hkey : key.written with
      | error fault => simp [itemsFrom, itemOf, hkey, bind, Except.bind, Except.map]
      | ok name =>
        simp [itemsFrom, itemOf, hkey, bind, Except.bind, Except.map, throw, throwThe,
          MonadExceptOf.throw]

/-- An entry of which a name cannot be written: its own, unless the entry is left out, or that of a
property. -/
inductive Illegible : Value × Value → Prop
  | entry {key v : Value} (hno : ∀ fields, v ≠ .map fields) (h : key.isWritable = false) :
    Illegible (key, v)
  | item {key : Value} {fields : List (Value × Value)} {kind : String}
    (hkept : keptKind? fields = some kind) (h : key.isWritable = false) :
    Illegible (key, .map fields)
  | property {key : Value} {fields entries : List (Value × Value)} {kind : String}
    {p : Value × Value} (hkept : keptKind? fields = some kind)
    (hproperties : Value.field? "properties" fields = some (.map entries)) (hp : p ∈ entries)
    (h : p.1.isWritable = false) : Illegible (key, .map fields)

theorem throw_named_error {α : Type} {key : Value} {c : Cause} {fault : Fault}
    (h : (do throw (.report ⟨c, ← key.written, ""⟩) : Except Fault α) = .error fault) :
    (key.isWritable = false ∧ fault = .numeral .unwritable) ∨
      (key.isWritable = true ∧ ∃ name, fault = .report ⟨c, name, ""⟩) := by
  rcases bind_eq_error_iff.mp h with hkey | ⟨name, hkey, hthrow⟩
  · exact .inl (written_eq_error_iff.mp hkey)
  · refine .inr ⟨?_, name, (Except.error.inj hthrow).symm⟩
    by_contra hno
    rw [written_eq_error_iff.mpr ⟨eq_false_of_ne_true hno, rfl⟩] at hkey
    cases hkey

/-- A property with its name. -/
def namedProperty (p : Value × Value) : Except Fault (String × Value) := do
  return (← p.1.written, p.2)

theorem namedProperty_error_iff {p : Value × Value} {fault : Fault} :
    namedProperty p = .error fault ↔ p.1.isWritable = false ∧ fault = .numeral .unwritable := by
  rw [← written_eq_error_iff]
  unfold namedProperty
  cases p.1.written <;> simp [bind, Except.bind, pure, Except.pure]

theorem propertiesOf_map {key : Value} {fields entries : List (Value × Value)}
    (h : Value.field? "properties" fields = some (.map entries)) :
    propertiesOf key fields = entries.mapM namedProperty := by
  unfold propertiesOf
  rw [h]
  rfl

/-- The properties of an item cannot be read: they are reported under its name, or a name cannot be
written. -/
theorem propertiesOf_error {key : Value} {fields : List (Value × Value)} {kind : String}
    (hkept : keptKind? fields = some kind) {fault : Fault}
    (h : propertiesOf key fields = .error fault) :
    (key.isWritable = true ∧ fault.ReportsOf [.input]) ∨
      (Illegible (key, .map fields) ∧ fault = .numeral .unwritable) := by
  unfold propertiesOf at h
  split at h
  · cases h
  · next entries hproperties =>
    obtain ⟨p, hreached, hp⟩ := mapM_eq_error_iff.mp h
    obtain ⟨hunwritable, rfl⟩ := namedProperty_error_iff.mp hp
    exact .inr ⟨.property hkept hproperties hreached.mem hunwritable, rfl⟩
  · split at h
    · rcases throw_named_error h with ⟨hkey, rfl⟩ | ⟨hkey, name, rfl⟩
      · exact .inr ⟨.item hkept hkey, rfl⟩
      · exact .inl ⟨hkey, _, rfl, List.mem_singleton_self _⟩
    · cases h

/-- **An entry cannot be read**: it is reported, or a name in it cannot be written. -/
theorem itemOf_error {entry : Value × Value} {fault : Fault} (h : itemOf entry = .error fault) :
    fault.ReportsOf [.input] ∨ (Illegible entry ∧ fault = .numeral .unwritable) := by
  unfold itemOf at h
  split at h
  · next key fields =>
    split at h
    · cases h
    · next kind hkept =>
      rcases bind_eq_error_iff.mp h with hproperties | ⟨properties, -, hrest⟩
      · exact (propertiesOf_error hkept hproperties).imp_left And.right
      · rcases bind_eq_error_iff.mp hrest with hkey | ⟨name, -, hret⟩
        · obtain ⟨hunwritable, rfl⟩ := written_eq_error_iff.mp hkey
          exact .inr ⟨.item hkept hunwritable, rfl⟩
        · cases hret
  · next key v hno =>
    rcases throw_named_error h with ⟨hkey, rfl⟩ | ⟨-, name, rfl⟩
    · exact .inr ⟨.entry hno hkey, rfl⟩
    · exact .inl ⟨_, rfl, List.mem_singleton_self _⟩

/-- **An entry with a name that cannot be written** ends in this fault, whatever else is wrong with
it. -/
theorem itemOf_of_illegible {entry : Value × Value} (h : Illegible entry) :
    itemOf entry = .error (.numeral .unwritable) := by
  cases h with
  | @entry key v hno h =>
    have hwritten : key.written = .error (.numeral .unwritable) :=
      written_eq_error_iff.mpr ⟨h, rfl⟩
    rw [itemOf]
    · exact bind_eq_error_iff.mpr (.inl hwritten)
    · exact hno
  | @item key fields kind hkept h =>
    rw [itemOf, hkept]
    refine bind_eq_error_iff.mpr ?_
    cases hproperties : propertiesOf key fields with
    | error fault =>
      obtain ⟨hkey, -⟩ | ⟨-, rfl⟩ := propertiesOf_error hkept hproperties
      · rw [h] at hkey
        cases hkey
      · exact .inl rfl
    | ok properties =>
      refine .inr ⟨properties, rfl, bind_eq_error_iff.mpr (.inl ?_)⟩
      exact written_eq_error_iff.mpr ⟨h, rfl⟩
  | @property key fields entries kind p hkept hproperties hp h =>
    rw [itemOf, hkept]
    refine bind_eq_error_iff.mpr (.inl ?_)
    rw [propertiesOf_map hproperties]
    cases hnames : entries.mapM namedProperty with
    | ok properties =>
      obtain ⟨property, hproperty⟩ := exists_ok_of_mapM hnames p hp
      rw [namedProperty_error_iff.mpr ⟨h, rfl⟩] at hproperty
      cases hproperty
    | error fault =>
      obtain ⟨q, -, hq⟩ := mapM_eq_error_iff.mp hnames
      obtain ⟨-, rfl⟩ := namedProperty_error_iff.mp hq
      rfl

/-! ### Properties -/

/-- What the items of a protocol can be reported for once they are read. -/
def itemCategories : List Category := [.malformedType, .nameCollision, .emptyName]

section Runs

variable {settings : Settings} {items : List Item} {objects : List String} {item : Item}

theorem run_propertyLines_error_iff {property : String} {v : Value} {r : Registry}
    {fault : Fault} :
    ((propertyLines objects item property v).run r).outcome = .error fault ↔
      ((channelType objects ⟨item.name, property, none⟩ (channelName "property" property) v).run
        r).outcome = .error fault :=
  Plan.run_bind_pure_error_iff

theorem run_itemClass_error_iff {indent : String} {r : Registry} {fault : Fault} :
    ((itemClass indent objects item).run r).outcome = .error fault ↔
      ((Plan.forEach (fun (p, v) => propertyLines objects item p v) item.properties).run
        r).outcome = .error fault :=
  Plan.run_bind_pure_error_iff

/-- **A run comes to a property** with a registry: the items in front of its item can be rendered,
and then the properties in front of it, and they leave the registry. -/
def ComesTo (settings : Settings) (items : List Item) (item : Item) (p : String × Value)
    (r : Registry) : Prop :=
  ∃ before after front back ds lines, items = before ++ item :: after ∧
    item.properties = front ++ p :: back ∧
    let classes := (Plan.forEach (itemClass settings.indent (objectNames items)) before).run
      (.empty [])
    let blocks := (Plan.forEach (fun (p, v) => propertyLines (objectNames items) item p v)
      front).run classes.registry
    classes.outcome = .ok ds ∧ blocks.outcome = .ok lines ∧ blocks.registry = r

/-- The type of a property, as it is rendered in its item. -/
def typePlan (items : List Item) (item : Item) (p : String × Value) : Plan String :=
  channelType (objectNames items) ⟨item.name, p.1, none⟩ (channelName "property" p.1) p.2

/-- **The items cannot be rendered** if and only if the type of a property that the run comes to
cannot. -/
theorem run_classes_error_iff {fault : Fault} :
    ((Plan.forEach (itemClass settings.indent (objectNames items)) items).run
        (.empty [])).outcome = .error fault ↔
      ∃ item p r, ComesTo settings items item p r ∧
        ((typePlan items item p).run r).outcome = .error fault := by
  rw [Plan.run_forEach_error_iff]
  constructor
  · rintro ⟨before, item, after, ds, hitems, hbefore, hitem⟩
    obtain ⟨front, p, back, lines, hproperties, hfront, hp⟩ :=
      Plan.run_forEach_error_iff.mp (run_itemClass_error_iff.mp hitem)
    exact ⟨item, p, _, ⟨before, after, front, back, ds, lines, hitems, hproperties, hbefore, hfront,
      rfl⟩, run_propertyLines_error_iff.mp hp⟩
  · rintro ⟨item, p, r, ⟨before, after, front, back, ds, lines, hitems, hproperties, hbefore, hfront,
      rfl⟩, hp⟩
    refine ⟨before, item, after, ds, hitems, hbefore, run_itemClass_error_iff.mpr ?_⟩
    exact Plan.run_forEach_error_iff.mpr
      ⟨front, p, back, lines, hproperties, hfront, run_propertyLines_error_iff.mpr hp⟩

/-- The registry takes registrations, and knows no predefined enum. -/
theorem ComesTo.registry {p : String × Value} {r : Registry}
    (h : ComesTo settings items item p r) : r.closed = false ∧ r.predefined = [] := by
  obtain ⟨before, after, front, back, ds, lines, -, -, -, -, rfl⟩ := h
  rw [Plan.run_closed, Plan.run_closed, Plan.run_predefined, Plan.run_predefined]
  exact ⟨rfl, rfl⟩

theorem assemble_error {rendered : List Declaration} {r : Registry} (hopen : r.closed = false)
    {fault : Fault} (h : assemble settings items rendered r = .error fault) :
    fault.ReportsOf itemCategories := by
  unfold assemble at h
  rw [Registry.drain, if_neg (by simp [hopen])] at h
  rcases bind_eq_error_iff.mp h with henums | ⟨enums, -, hret⟩
  · cases hdeclared : enumDeclarations settings.indent r.entries with
    | ok enums =>
      rw [hdeclared] at henums
      cases henums
    | error report =>
      rw [hdeclared] at henums
      obtain rfl : Fault.report report = fault := Except.error.inj henums
      rw [enumDeclarations_eq_mapM] at hdeclared
      obtain ⟨entry, -, hentry⟩ := mapM_eq_error_iff.mp hdeclared
      have hreport : (Fault.report report).ReportsOf [.emptyName, .nameCollision] :=
        ⟨report, rfl, enumDeclaration_error hentry⟩
      exact hreport.mono (by decide)
  · cases hret

/-- **The items fail** with a report, or the run comes to a property whose type has none. -/
theorem generateChannels_error {fault : Fault}
    (h : generateChannels settings items = .error fault) :
    fault.ReportsOf itemCategories ∨
      ∃ item p r, ComesTo settings items item p r ∧ Unreported p.2 fault := by
  unfold generateChannels at h
  simp only at h
  split at h
  · next fault' hrun =>
    obtain rfl := Except.error.inj h
    obtain ⟨item, p, r, hcomes, hp⟩ := run_classes_error_iff.mp hrun
    obtain ⟨hopen, hpredefined⟩ := hcomes.registry
    rcases (failsIn_channelType p.2).of_run hopen hpredefined hp with hreport | hp
    · exact .inl (hreport.mono (by decide))
    · exact .inr ⟨item, p, r, hcomes, hp⟩
  · refine .inl (assemble_error ?_ h)
    rw [Plan.run_closed]
    rfl

/-- **A property whose type has no report** ends every run that comes to it. -/
theorem generateChannels_of_unreported {p : String × Value} {r : Registry} {fault : Fault}
    (hcomes : ComesTo settings items item p r) (h : Unreported p.2 fault) :
    generateChannels settings items = .error fault := by
  have hp : ((typePlan items item p).run r).outcome = .error fault := by
    rw [typePlan, channelType_of_unreported h]
    rfl
  have hrun := run_classes_error_iff.mpr ⟨item, p, r, hcomes, hp⟩
  unfold generateChannels
  simp only [hrun]

end Runs

/-! ### Documents -/

/-- The channels for a document. -/
def generateDocument (settings : Settings) (d : Value) : Except Fault Channels := do
  generateChannels settings (← itemsOf d)

/-- What a document can be reported for. -/
def documentCategories : List Category := .input :: itemCategories

/-- **The documents for which there is no report**, with the fault that they end in.  A name cannot be
written that is read before any other fault, or the run over the items comes to a property whose type
has no report. -/
inductive EndsUnreported (settings : Settings) : Value → Fault → Prop
  | entry {entries : List (Value × Value)} {entry : Value × Value}
    (hreached : Reached itemOf entries entry) (h : Illegible entry) :
    EndsUnreported settings (.map entries) (.numeral .unwritable)
  | property {d : Value} {items : List Item} {item : Item} {p : String × Value} {r : Registry}
    {fault : Fault} (hitems : itemsOf d = .ok items) (hcomes : ComesTo settings items item p r)
    (h : Unreported p.2 fault) : EndsUnreported settings d fault

theorem EndsUnreported.not_report {settings : Settings} {d : Value} {fault : Fault}
    (h : EndsUnreported settings d fault) (report : Report) : fault ≠ .report report := by
  cases h with
  | entry => nofun
  | property _ _ h => exact h.not_report report

/-- The items of a document cannot be read: it is reported, or a name in it cannot be written. -/
theorem itemsOf_error {settings : Settings} {d : Value} {fault : Fault}
    (h : itemsOf d = .error fault) :
    fault.ReportsOf [.input] ∨ EndsUnreported settings d fault := by
  unfold itemsOf at h
  split at h
  · cases h
  · next entries =>
    rw [itemsFrom_eq] at h
    cases hitems : entries.mapM itemOf with
    | ok items =>
      rw [hitems] at h
      cases h
    | error fault' =>
      rw [hitems] at h
      obtain rfl : fault' = fault := Except.error.inj h
      obtain ⟨entry, hreached, hentry⟩ := mapM_eq_error_iff.mp hitems
      rcases itemOf_error hentry with hreport | ⟨hillegible, rfl⟩
      · exact .inl hreport
      · exact .inr (.entry hreached hillegible)
  · obtain rfl := Except.error.inj h
    exact .inl ⟨_, rfl, List.mem_singleton_self _⟩

/-- **A document fails** with a report, or in one of the ways for which there is none. -/
theorem generateDocument_error {settings : Settings} {d : Value} {fault : Fault}
    (h : generateDocument settings d = .error fault) :
    fault.ReportsOf documentCategories ∨ EndsUnreported settings d fault := by
  rcases bind_eq_error_iff.mp h with hread | ⟨items, hread, hrun⟩
  · exact (itemsOf_error hread).imp_left (·.mono (by decide))
  · rcases generateChannels_error hrun with hreport | ⟨item, p, r, hcomes, hp⟩
    · exact .inl (hreport.mono (List.subset_cons_self _ _))
    · exact .inr (.property hread hcomes hp)

/-- **The documents without a report** end in the fault that they are given. -/
theorem generateDocument_of_unreported {settings : Settings} {d : Value} {fault : Fault}
    (h : EndsUnreported settings d fault) : generateDocument settings d = .error fault := by
  unfold generateDocument
  cases h with
  | @entry entries entry hreached h =>
    have hread : itemsOf (.map entries) = .error (.numeral .unwritable) := by
      have hentries := mapM_eq_error_iff.mpr ⟨entry, hreached, itemOf_of_illegible h⟩
      show itemsFrom entries = _
      rw [itemsFrom_eq, hentries]
      rfl
    rw [hread]
    rfl
  | @property d items item p r fault hitems hcomes h =>
    rw [hitems]
    exact generateChannels_of_unreported hcomes h

/-- **A document ends without a report** if and only if it is one of those for which there is none. -/
theorem generateDocument_error_iff {settings : Settings} {d : Value} {fault : Fault} :
    (generateDocument settings d = .error fault ∧ ∀ report, fault ≠ .report report) ↔
      EndsUnreported settings d fault := by
  constructor
  · rintro ⟨h, hno⟩
    rcases generateDocument_error h with ⟨report, rfl, -⟩ | hunreported
    · exact absurd rfl (hno report)
    · exact hunreported
  · exact fun h => ⟨generateDocument_of_unreported h, h.not_report⟩

end ApiSurface.Protocol
