import ApiSurface.Proofs.Generation.Order
import ApiSurface.Proofs.Protocol.Groups
import Mathlib.Data.List.Perm.Basic

/-!
# What a rendered protocol is made of

The class of an item depends on the item and on the names of the objects only, and the declarations
of the enums on the entries of the registry.
-/

namespace ApiSurface.Protocol

open Registry

/-! ### Classes -/

section Agreement

variable {objects objects' : List String}

theorem typeNamed?_congr (h : ∀ name, name ∈ objects ↔ name ∈ objects') (name : String) :
    typeNamed? objects name = typeNamed? objects' name := by
  have hcontains : objects.contains name = objects'.contains name := by
    rw [Bool.eq_iff_iff, List.contains_iff_mem, List.contains_iff_mem, h]
  unfold typeNamed?
  rw [hcontains]

theorem textType_congr (h : ∀ name, name ∈ objects ↔ name ∈ objects') (place : Place)
    (cs : List Char) : textType objects place cs = textType objects' place cs := by
  have hmarked : ∀ isNullable written name,
      markedType objects place isNullable written name =
        markedType objects' place isNullable written name := by
    intro isNullable written name
    unfold markedType
    rw [typeNamed?_congr h]
  induction cs using textType.induct with
  | case1 rest ih => rw [textType, textType, ih]
  | case2 rest ih => rw [textType, textType, ih]
  | case3 name hno =>
    rw [textType, textType, hmarked]
    · exact hno
    · exact hno
  | case4 name h₁ h₂ h₃ =>
    rw [textType, textType, hmarked]
    all_goals assumption

mutual
/-- **The type of a property** is the same wherever the same names are objects. -/
theorem channelType_congr (h : ∀ name, name ∈ objects ↔ name ∈ objects') (place : Place)
    (owner : String) : ∀ v : Value,
      channelType objects place owner v = channelType objects' place owner v
  | .text s => by
    rw [channelType, channelType]
    exact textType_congr h place _
  | .map fields => by
    rw [channelType, channelType, itemType_congr h place owner fields]
  | .null => rfl
  | .bool _ => rfl
  | .int _ => rfl
  | .float _ => rfl
  | .list _ => rfl
theorem itemType_congr (h : ∀ name, name ∈ objects ↔ name ∈ objects') (place : Place)
    (owner : String) : ∀ fields : List (Value × Value),
      itemType objects place owner fields = itemType objects' place owner fields
  | [] => by
    rw [itemType, itemType]
    exact textType_congr h place _
  | (k, v) :: rest => by
    rw [itemType, itemType, channelType_congr h place owner v, itemType_congr h place owner rest]
end

/-- **The class of an item** is the same wherever the same names are objects. -/
theorem itemClass_congr (h : ∀ name, name ∈ objects ↔ name ∈ objects') (indent : String)
    (item : Item) : itemClass indent objects item = itemClass indent objects' item := by
  unfold itemClass propertyLines
  simp only [channelType_congr h]

end Agreement

/-- The class of an item of a protocol; one without a name if it cannot be rendered. -/
def classOf (settings : Settings) (items : List Item) (item : Item) : Declaration :=
  (itemClass settings.indent (objectNames items) item).declared

theorem mem_objectNames {items : List Item} {name : String} :
    name ∈ objectNames items ↔ ∃ item ∈ items, item.kind = "object" ∧ item.name = name := by
  simp [objectNames, and_assoc]

theorem classOf_perm (settings : Settings) {items items' : List Item} (hp : items.Perm items') :
    classOf settings items = classOf settings items' := by
  funext item
  have hobjects : ∀ name, name ∈ objectNames items ↔ name ∈ objectNames items' := by
    intro name
    simp only [mem_objectNames, hp.mem_iff]
  unfold classOf
  rw [itemClass_congr hobjects]

/-! ### Enums -/

/-- An entry that is an enum, with its literals. -/
def enumEntry? : String × Shape → Option (String × List String)
  | (key, .enum literals) => some (key, literals)
  | (_, .object _) => none

theorem enumDeclarations_eq_mapM (indent : String) (es : List (String × Shape)) :
    enumDeclarations indent es =
      (es.filterMap enumEntry?).mapM fun e => enumDeclaration indent e.1 e.2 := by
  induction es with
  | nil => rfl
  | cons e es ih =>
    obtain ⟨key, shape⟩ := e
    cases shape with
    | object properties =>
      rw [enumDeclarations, ih]
      rfl
    | enum literals =>
      have hentry : ((key, .enum literals) :: es).filterMap enumEntry? =
          (key, literals) :: es.filterMap enumEntry? := rfl
      rw [enumDeclarations, ih, hentry, List.mapM_cons]

theorem mapM_perm {ε α β : Type} {f : α → Except ε β} {as as' : List α} (hp : as.Perm as')
    {bs : List β} (h : as.mapM f = .ok bs) : ∃ bs', as'.mapM f = .ok bs' ∧ bs.Perm bs' := by
  obtain ⟨bs', hbs', hperm⟩ := List.perm_comp_forall₂ hp.symm (mapM_eq_ok_iff.mp h)
  exact ⟨bs', mapM_eq_ok_iff.mpr hbs', hperm.symm⟩

/-- **Entries in another order** have the same declarations, in another order. -/
theorem enumDeclarations_perm {indent : String} {es es' : List (String × Shape)}
    (hp : es.Perm es') {ds : List Declaration} (h : enumDeclarations indent es = .ok ds) :
    ∃ ds', enumDeclarations indent es' = .ok ds' ∧ ds.Perm ds' := by
  rw [enumDeclarations_eq_mapM] at h ⊢
  exact mapM_perm (hp.filterMap _) h

/-! ### Runs -/

/-- What a run that succeeds is made of: the requests of its classes, and the declarations of its
enums. -/
structure Rendered (settings : Settings) (items : List Item) (qs : List Request)
    (enums : List Declaration) : Prop where
  classes : (Plan.forEach (itemClass settings.indent (objectNames items)) items).Yields qs
    (items.map (classOf settings items))
  granted : ((Registry.empty []).file qs).refused = none
  enums : enumDeclarations settings.indent ((Registry.empty []).file qs).registry.entries = .ok enums

/-- The declarations of a run, by the folder they belong in. -/
def channelsOf (settings : Settings) (items : List Item) (enums : List Declaration) : Channels where
  models := (items.filter (!·.isChannel)).map (classOf settings items)
  channels := (items.filter (·.isChannel)).map (classOf settings items)
  enums

theorem map_filter_zip_map {α β : Type} (f : α → β) (keep : α → Bool) (as : List α) :
    ((as.zip (as.map f)).filter (keep ·.1)).map (·.2) = (as.filter keep).map f := by
  induction as with
  | nil => rfl
  | cons a as ih =>
    rw [List.map_cons, List.zip_cons_cons, List.filter_cons, List.filter_cons]
    cases keep a with
    | true => simp [ih]
    | false => simpa using ih

theorem yields_classes {settings : Settings} {items : List Item} {qs : List Request}
    {ds : List Declaration}
    (h : (Plan.forEach (itemClass settings.indent (objectNames items)) items).Yields qs ds) :
    ds = items.map (classOf settings items) := by
  obtain ⟨parts, hparts, -, rfl⟩ := Plan.yields_forEach_iff.mp h
  rw [← List.forall₂_eq_eq_eq, List.forall₂_map_left_iff, List.forall₂_map_right_iff]
  exact hparts.flip.imp fun part item hyield => Plan.Yields.declared_eq hyield

theorem drain_of_granted {qs : List Request} (h : ((Registry.empty []).file qs).refused = none) :
    ∃ r, ((Registry.empty []).file qs).registry.drain =
      .ok (((Registry.empty []).file qs).registry.entries, r) := by
  obtain ⟨es, -, hreg, -, hs, -⟩ := file_ok (sound_empty []) h
  unfold drain
  rw [if_neg (by rw [hreg, hs.isOpen]; simp)]
  exact ⟨_, rfl⟩

/-- **A run succeeds** if and only if each class can be rendered, all requests are granted, and the
enums can be declared. -/
theorem generateChannels_ok_iff {settings : Settings} {items : List Item} {c : Channels} :
    generateChannels settings items = .ok c ↔
      ∃ qs enums, Rendered settings items qs enums ∧ c = channelsOf settings items enums := by
  have hgroups : ∀ enums, (⟨((items.zip (items.map (classOf settings items))).filter
      (!·.1.isChannel)).map (·.2), ((items.zip (items.map (classOf settings items))).filter
      (·.1.isChannel)).map (·.2), enums⟩ : Channels) = channelsOf settings items enums := by
    intro enums
    rw [map_filter_zip_map _ Item.isChannel, map_filter_zip_map _ fun item : Item => !item.isChannel]
    rfl
  unfold generateChannels
  simp only
  constructor
  · intro h
    split at h
    · cases h
    · rename_i rendered hrun
      obtain ⟨hgranted, houtcome⟩ := Plan.run_ok_iff.mp hrun
      obtain rfl := yields_classes ⟨rfl, houtcome⟩
      obtain ⟨r, hdrain⟩ := drain_of_granted hgranted
      unfold assemble at h
      rw [Plan.run_registry, hdrain] at h
      obtain ⟨enums, henums, hret⟩ := exists_ok_of_bind h
      cases hret
      exact ⟨_, enums, ⟨⟨rfl, houtcome⟩, hgranted, mapError_eq_ok_iff.mp henums⟩, hgroups enums⟩
  · rintro ⟨qs, enums, ⟨⟨hqs, houtcome⟩, hgranted, henums⟩, rfl⟩
    subst hqs
    obtain ⟨r, hdrain⟩ := drain_of_granted hgranted
    rw [Plan.run_ok_iff.mpr ⟨hgranted, houtcome⟩]
    simp only
    unfold assemble
    rw [Plan.run_registry, hdrain]
    simp only [henums]
    exact congrArg Except.ok (hgroups enums)

end ApiSurface.Protocol
