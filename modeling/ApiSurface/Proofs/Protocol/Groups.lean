import ApiSurface.Proofs.Code.Outline
import ApiSurface.Proofs.Protocol.Enums
import ApiSurface.Proofs.Registry.Extension
import Mathlib.Data.List.Nodup

/-!
# The groups of channel generation

The items of a protocol are rendered one after the other, with one registry for the enums in all of
them.  The registry is drained at the end.
-/

namespace ApiSurface.Protocol

open Registry

/-! ### Items -/

/-- The lines of a property of an item. The name of an enum in its type is written in them. -/
inductive ShowsItemProperty (objects : List String) (item : Item) :
    String × Value → List String → Prop
  | intro {name t : String} {v : Value}
    (h : ShowsType objects ⟨item.name, name, none⟩ (Identifier.capitalize name) v t)
    (henum : ∀ use ∈ propertyUses (name, v), use.WrittenIn t) :
    ShowsItemProperty objects item (name, v) ["[JsonProperty(\"" ++ name ++ "\")]",
      Context.propertyLine "public " t (Identifier.capitalize name)]

/-- The class for an item. -/
structure ShowsItem (indent : String) (objects : List String) (item : Item) (d : Declaration) :
    Prop where
  name : d.name = channelName item.kind item.name
  kind : d.kind = .classType
  lines : ∃ blocks, List.Forall₂ (ShowsItemProperty objects item) item.properties blocks ∧
    d.lines = Declaration.braced indent
      ["// Generated from: " ++ item.name, "public partial class " ++ d.name]
      (Declaration.separated blocks)

/-- The uses of enums in an item, in the order of its properties. -/
def itemUses (item : Item) : List EnumUse := item.properties.flatMap propertyUses

/-- The uses of enums in some items. -/
def enumUses (items : List Item) : List EnumUse := items.flatMap itemUses

theorem channelName_property (name : String) :
    channelName "property" name = Identifier.capitalize name := by
  unfold channelName
  by_cases hname : name = ""
  · subst hname
    rfl
  · rw [if_neg hname, if_neg (by decide)]

theorem yields_forEach_uses {α β : Type} {f : α → Plan β} {Shows : α → β → Prop}
    {uses : α → List EnumUse}
    (hf : ∀ a qs b, (f a).Yields qs b →
      Shows a b ∧ List.Forall₂ EnumUse.AskedBy (uses a) (qs.map (·.demand)))
    {as : List α} {qs : List Request} {bs : List β} (h : (Plan.forEach f as).Yields qs bs) :
    List.Forall₂ Shows as bs ∧
      List.Forall₂ EnumUse.AskedBy (as.flatMap uses) (qs.map (·.demand)) := by
  obtain ⟨parts, hparts, rfl, rfl⟩ := Plan.yields_forEach_iff.mp h
  clear h
  induction hparts with
  | nil => exact ⟨.nil, .nil⟩
  | @cons a part as parts hpart _ ih =>
    obtain ⟨hshown, hasked⟩ := hf a _ _ hpart
    obtain ⟨hshowns, haskeds⟩ := ih
    refine ⟨.cons hshown hshowns, ?_⟩
    rw [List.flatMap_cons, List.flatMap_cons, List.map_append]
    exact List.rel_append hasked haskeds

/-- **The plan for a property** yields its lines, and asks for the enum in its type. -/
theorem yields_propertyLines {objects : List String} {item : Item} {p : String × Value}
    {qs : List Request} {block : List String}
    (h : (propertyLines objects item p.1 p.2).Yields qs block) :
    ShowsItemProperty objects item p block ∧
      List.Forall₂ EnumUse.AskedBy (propertyUses p) (qs.map (·.demand)) := by
  obtain ⟨name, v⟩ := p
  unfold propertyLines at h
  rw [channelName_property] at h
  obtain ⟨qs₁, t, qs₂, htype, hret, rfl⟩ := Plan.yields_bind_iff.mp h
  obtain ⟨rfl, rfl⟩ := Plan.yields_pure_iff.mp hret
  obtain ⟨hshown, hasked⟩ := yields_propertyType htype
  rw [List.append_nil]
  exact ⟨.intro hshown hshown.writtenIn, hasked⟩

/-- **The plan for an item** yields its class, and asks for the enums in its properties. -/
theorem yields_itemClass {indent : String} {objects : List String} {item : Item}
    {qs : List Request} {d : Declaration} (h : (itemClass indent objects item).Yields qs d) :
    ShowsItem indent objects item d ∧
      List.Forall₂ EnumUse.AskedBy (itemUses item) (qs.map (·.demand)) := by
  unfold itemClass at h
  obtain ⟨qs₁, blocks, qs₂, hblocks, hret, rfl⟩ := Plan.yields_bind_iff.mp h
  obtain ⟨rfl, rfl⟩ := Plan.yields_pure_iff.mp hret
  obtain ⟨hshown, hasked⟩ := yields_forEach_uses (fun _ _ _ => yields_propertyLines) hblocks
  rw [List.append_nil]
  exact ⟨⟨rfl, rfl, blocks, hshown, rfl⟩, hasked⟩

/-! ### The registry after all items -/

/-- A registry with the entries that some uses of enums ask for: one for each name, in the order of
first use. -/
structure Collects (uses : List EnumUse) (r : Registry) : Prop where
  isOpen : r.closed = false
  keys : r.keys = (uses.map (·.name)).eraseDups
  entry_of_use : ∀ use ∈ uses, ∃ literals, Lists (Value.field? "literals" use.fields) literals ∧
    (use.name, .enum literals) ∈ r.entries
  use_of_entry : ∀ e ∈ r.entries, ∃ use ∈ uses, ∃ literals,
    Lists (Value.field? "literals" use.fields) literals ∧ e = (use.name, .enum literals)

theorem collects_of_granted {uses : List EnumUse} {qs : List Request}
    (hasked : List.Forall₂ EnumUse.AskedBy uses (qs.map (·.demand)))
    (hgranted : ((Registry.empty []).file qs).refused = none) :
    Collects uses ((Registry.empty []).file qs).registry := by
  obtain ⟨es, hsub, hreg, -, hsound, hcovers⟩ := file_ok (sound_empty []) hgranted
  have hkeys := @keys_file (.empty []) [] rfl qs hgranted
  have hnames : uses.map (·.name) = qs.map (·.demand.key) := by
    rw [← List.forall₂_eq_eq_eq, List.forall₂_map_left_iff, List.forall₂_map_right_iff]
    refine (List.forall₂_map_right_iff.mp hasked).imp ?_
    rintro use q ⟨literals, -, hdemand⟩
    rw [hdemand]
    rfl
  rw [hreg] at hkeys ⊢
  refine ⟨hsound.isOpen, by rw [hkeys, hnames, List.nil_append], ?_, ?_⟩
  · intro use huse
    obtain ⟨d, hd, literals, hliterals, rfl⟩ := exists_of_forall₂_left hasked huse
    obtain ⟨e, he, hpair⟩ := hcovers.exists_pair hd
    cases hpair
    exact ⟨literals, hliterals, he⟩
  · intro e he
    obtain ⟨q, hq, hpair⟩ := mem_requested.mp (hsub.mem he)
    obtain ⟨use, huse, literals, hliterals, hdemand⟩ :=
      exists_of_forall₂_right hasked (List.mem_map_of_mem hq)
    rw [hdemand] at hpair
    cases hpair
    exact ⟨use, huse, literals, hliterals, rfl⟩

/-! ### Declarations of enums -/

/-- **The declaration of an enum** with the literals that a use lists, in their order. -/
structure DeclaresUse (indent : String) (use : EnumUse) (d : Declaration) : Prop where
  name : d.name = use.name
  kind : d.kind = .enumType
  lines : ∃ literals names, Lists (Value.field? "literals" use.fields) literals ∧
    List.Forall₂ (fun literal name => Identifier.valueName literal = .ok name) literals names ∧
    d.lines = Declaration.braced indent ["public enum " ++ use.name]
      (Declaration.separated (List.zipWith enumValueLines literals names))

theorem declaresUse_of_enumDeclaration {indent : String} {use : EnumUse} {literals : List String}
    {d : Declaration} (hliterals : Lists (Value.field? "literals" use.fields) literals)
    (h : enumDeclaration indent use.name literals = .ok d) : DeclaresUse indent use d := by
  obtain ⟨names, hnames, rfl⟩ := enumDeclaration_ok h
  exact ⟨rfl, rfl, literals, names, hliterals, hnames, rfl⟩

theorem enumDeclarations_ok {indent : String} {es : List (String × Shape)} {ds : List Declaration}
    (henum : ∀ e ∈ es, ∃ literals, e.2 = .enum literals)
    (h : enumDeclarations indent es = .ok ds) : List.Forall₂ (fun e d => d.name = e.1 ∧
      ∃ literals, e.2 = .enum literals ∧ enumDeclaration indent e.1 literals = .ok d) es ds := by
  induction es generalizing ds with
  | nil =>
    cases h
    exact .nil
  | cons e es ih =>
    obtain ⟨⟨literals, hshape⟩, henums⟩ := List.forall_mem_cons.mp henum
    obtain ⟨key, shape⟩ := e
    obtain rfl : shape = .enum literals := hshape
    unfold enumDeclarations at h
    obtain ⟨d, hd, hrest⟩ := exists_ok_of_bind h
    obtain ⟨ds', hds, hret⟩ := exists_ok_of_bind hrest
    cases hret
    obtain ⟨names, -, hlines⟩ := enumDeclaration_ok hd
    exact .cons ⟨congrArg Declaration.name hlines, literals, rfl, hd⟩ (ih henums hds)

/-- The declarations for some uses of enums: one for each name, in the order of first use. -/
structure DeclaresUses (indent : String) (uses : List EnumUse) (ds : List Declaration) : Prop where
  nodup : (ds.map (·.name)).Nodup
  names : ds.map (·.name) = (uses.map (·.name)).eraseDups
  /-- Every use has one declaration, which has the literals that the use lists. -/
  declares : ∀ use ∈ uses, ∃! d, d ∈ ds ∧ DeclaresUse indent use d
  /-- Every declaration is used. -/
  used : ∀ d ∈ ds, ∃ use ∈ uses, DeclaresUse indent use d

/-- **The enums of a registry** that collects some uses are declared for these uses. -/
theorem Collects.declaresUses {indent : String} {uses : List EnumUse} {r : Registry}
    {ds : List Declaration} (hr : Collects uses r)
    (h : enumDeclarations indent r.entries = .ok ds) : DeclaresUses indent uses ds := by
  have hall := enumDeclarations_ok (fun e he => by
    obtain ⟨use, -, literals, -, rfl⟩ := hr.use_of_entry e he
    exact ⟨literals, rfl⟩) h
  have hkeys : ds.map (·.name) = r.keys := by
    unfold Registry.keys
    rw [← List.forall₂_eq_eq_eq, List.forall₂_map_left_iff, List.forall₂_map_right_iff]
    exact (hall.imp fun _ _ hd => hd.1).flip
  have hnodup : (ds.map (·.name)).Nodup := by
    rw [hkeys, hr.keys]
    exact nodup_eraseDups _
  refine ⟨hnodup, hkeys.trans hr.keys, ?_, ?_⟩
  · intro use huse
    obtain ⟨literals, hliterals, hentry⟩ := hr.entry_of_use use huse
    obtain ⟨d, hd, -, literals', hshape, hdecl⟩ := exists_of_forall₂_left hall hentry
    cases hshape
    have hdeclares := declaresUse_of_enumDeclaration hliterals hdecl
    refine ⟨d, ⟨hd, hdeclares⟩, fun d' hd' => ?_⟩
    exact List.inj_on_of_nodup_map hnodup hd'.1 hd (hd'.2.name.trans hdeclares.name.symm)
  · intro d hd
    obtain ⟨e, he, -, literals, hshape, hdecl⟩ := exists_of_forall₂_right hall hd
    obtain ⟨use, huse, literals', hliterals, rfl⟩ := hr.use_of_entry e he
    cases hshape
    exact ⟨use, huse, declaresUse_of_enumDeclaration hliterals hdecl⟩

/-! ### Groups -/

theorem forall₂_filter_zip {α β : Type} {R : α → β → Prop} {as : List α} {bs : List β}
    (h : List.Forall₂ R as bs) (keep : α → Bool) :
    List.Forall₂ R (as.filter keep) (((as.zip bs).filter (keep ·.1)).map (·.2)) := by
  induction h with
  | nil => exact .nil
  | @cons a b as bs hab _ ih =>
    rw [List.zip_cons_cons]
    cases hkeep : keep a with
    | true =>
      simp only [List.filter_cons, hkeep, if_true, List.map_cons]
      exact .cons hab ih
    | false =>
      simp only [List.filter_cons, hkeep, Bool.false_eq_true, if_false]
      exact ih

/-- **Channel generation keeps every item and every enum.**  If the items of a protocol can be
rendered, then

* the models are one class for each item that is no interface, and the channels one for each
  interface, both in the order of the items;
* the enums are one declaration for each name of an enum in the types of properties, at any depth of
  arrays, in the order of first use;
* the declaration of an enum has exactly the literals that each of its uses lists, and no enum is
  declared that is not used. -/
theorem generateChannels_groups {settings : Settings} {items : List Item} {c : Channels}
    (h : generateChannels settings items = .ok c) :
    List.Forall₂ (ShowsItem settings.indent (objectNames items))
        (items.filter (·.kind ≠ "interface")) c.models ∧
      List.Forall₂ (ShowsItem settings.indent (objectNames items))
        (items.filter (·.kind = "interface")) c.channels ∧
      DeclaresUses settings.indent (enumUses items) c.enums := by
  unfold generateChannels at h
  simp only at h
  split at h
  · cases h
  · rename_i rendered hrun
    obtain ⟨hgranted, houtcome⟩ := Plan.run_ok_iff.mp hrun
    obtain ⟨hitems, hasked⟩ := yields_forEach_uses (fun _ _ _ => yields_itemClass) ⟨rfl, houtcome⟩
    have hcollects := collects_of_granted hasked hgranted
    unfold assemble Registry.drain at h
    rw [Plan.run_registry, if_neg (by simp [hcollects.isOpen])] at h
    obtain ⟨enums, henums, hret⟩ := exists_ok_of_bind h
    cases hret
    refine ⟨?_, ?_, hcollects.declaresUses (mapError_eq_ok_iff.mp henums)⟩
    · have hmodels := forall₂_filter_zip hitems fun item => !item.isChannel
      simpa only [Item.isChannel, decide_not] using hmodels
    · exact forall₂_filter_zip hitems Item.isChannel

/-- An enum with a null among its literals. -/
def stateEnum (kind : String) : Value :=
  .map [(.text "type", .text kind),
    (.text "literals", .list [.text "attached", .null, .text "detached"])]

/-- An interface and an object that use one enum, the object as the items of an array. -/
def frameItems : List Item :=
  [⟨"Frame", "interface", [("state", stateEnum "enum")]⟩,
    ⟨"Page", "object", [("url", .text "string"), ("state", .map [(.text "type", .text "array"),
      (.text "items", stateEnum "enum?")])]⟩]

/-- The groups for these items. -/
def frameChannels : Channels where
  models := [⟨"Page", .classType, ["// Generated from: Page", "public partial class Page", "\x7b",
    "    [JsonProperty(\"url\")]", "    public string Url \x7b get; set; \x7d", "",
    "    [JsonProperty(\"state\")]", "    public StateEnum?[] State \x7b get; set; \x7d", "\x7d"]⟩]
  channels := [⟨"FrameChannel", .classType, ["// Generated from: Frame",
    "public partial class FrameChannel", "\x7b", "    [JsonProperty(\"state\")]",
    "    public StateEnum State \x7b get; set; \x7d", "\x7d"]⟩]
  enums := [⟨"StateEnum", .enumType, ["public enum StateEnum", "\x7b",
    "    [EnumMember(Value = \"attached\")]", "    Attached,", "",
    "    [EnumMember(Value = \"detached\")]", "    Detached,", "\x7d"]⟩]

theorem generateChannels_frameItems : generateChannels {} frameItems = .ok frameChannels ∧
    (enumUses frameItems).map (·.name) = ["StateEnum", "StateEnum"] ∧
    DeclaresUses "    " (enumUses frameItems) frameChannels.enums := by
  have hrun : generateChannels {} frameItems = .ok frameChannels := by decide +kernel
  exact ⟨hrun, by decide +kernel, (generateChannels_groups hrun).2.2⟩

end ApiSurface.Protocol
