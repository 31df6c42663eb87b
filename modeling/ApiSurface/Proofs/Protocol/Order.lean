import ApiSurface.Proofs.Protocol.Rendering

/-!
# The order of the items

The registry of a run belongs to the requests as a set: if all of them are granted in one order, they
are granted in every order, since the table that the one order leaves gives each name one shape.
-/

namespace ApiSurface

/-! ### Requests in another order -/

namespace Registry

variable {r : Registry} {qs qs' : List Request}

/-- Requests that are all granted leave the entries that they stand for, beside those that were
there. -/
theorem mem_entries_of_granted (hs : r.Sound) (hok : (r.file qs).refused = none)
    {e : String × Shape} :
    e ∈ (r.file qs).registry.entries ↔ e ∈ r.entries ∨ e ∈ requested r.predefined qs := by
  obtain ⟨es, hsub, hreg, -, -, hcovers⟩ := file_ok hs hok
  rw [hreg, push_entries, List.mem_append]
  constructor
  · exact Or.imp_right fun he => hsub.subset he
  · rintro (he | he)
    · exact .inl he
    · exact List.mem_append.mp (hcovers.mem he)

/-- **Requests in another order** are granted as well, and leave the same entries. -/
theorem file_perm (hs : r.Sound) (hp : qs.Perm qs') (hok : (r.file qs).refused = none) :
    (r.file qs').refused = none ∧
      (r.file qs).registry.entries.Perm (r.file qs').registry.entries := by
  obtain ⟨es, -, hreg, -, hs₁, hcovers⟩ := file_ok hs hok
  -- the table of the one order tells every name of the other apart
  have hok' : (r.file qs').refused = none :=
    file_granted hs hs₁.consistent (table_subset_push r es) fun q hq =>
      hcovers q (hp.mem_iff.mpr hq)
  obtain ⟨es', -, hreg', -, hs₂, -⟩ := file_ok hs hok'
  have hnd : (r.file qs).registry.entries.Nodup := hreg ▸ .of_map _ hs₁.nodup
  have hnd' : (r.file qs').registry.entries.Nodup := hreg' ▸ .of_map _ hs₂.nodup
  refine ⟨hok', (List.perm_ext_iff_of_nodup hnd hnd').mpr fun e => ?_⟩
  rw [mem_entries_of_granted hs hok, mem_entries_of_granted hs hok', mem_requested, mem_requested]
  simp only [hp.mem_iff]

end Registry

/-- **Plans in another order** come to the same results, and make the same requests. -/
theorem Plan.yields_forEach_perm {α β : Type} {f : α → Plan β} {as as' : List α}
    (hp : as.Perm as') {qs : List Request} {bs : List β} (h : (Plan.forEach f as).Yields qs bs) :
    ∃ qs' bs', (Plan.forEach f as').Yields qs' bs' ∧ qs.Perm qs' ∧ bs.Perm bs' := by
  obtain ⟨parts, hparts, rfl, rfl⟩ := Plan.yields_forEach_iff.mp h
  obtain ⟨parts', hparts', hperm⟩ := List.perm_comp_forall₂ hp.symm hparts
  exact ⟨_, _, Plan.yields_forEach_iff.mpr ⟨parts', hparts', rfl, rfl⟩,
    hperm.symm.flatMap_right _, hperm.symm.map _⟩

namespace Protocol

variable {settings : Settings} {items items' : List Item}

/-- **A run over the items in another order** succeeds as well, with the same requests and the same
enums. -/
theorem Rendered.reorder {qs : List Request} {enums : List Declaration}
    (h : Rendered settings items qs enums) (hp : items.Perm items') :
    ∃ qs' enums', Rendered settings items' qs' enums' ∧ enums.Perm enums' := by
  have hobjects : ∀ name, name ∈ objectNames items ↔ name ∈ objectNames items' := by
    intro name
    simp only [mem_objectNames, hp.mem_iff]
  have hclass : itemClass settings.indent (objectNames items) =
      itemClass settings.indent (objectNames items') :=
    funext fun item => itemClass_congr hobjects settings.indent item
  obtain ⟨qs', ds', hyield, hqs, -⟩ := Plan.yields_forEach_perm hp h.classes
  rw [hclass] at hyield
  obtain rfl := yields_classes hyield
  obtain ⟨hgranted, hentries⟩ := Registry.file_perm (Registry.sound_empty []) hqs h.granted
  obtain ⟨enums', henums', hperm⟩ := enumDeclarations_perm hentries h.enums
  exact ⟨qs', enums', ⟨hyield, hgranted, henums'⟩, hperm⟩

theorem Rendered.enums_perm {qs qs' : List Request} {enums enums' : List Declaration}
    (h : Rendered settings items qs enums) (h' : Rendered settings items' qs' enums')
    (hp : items.Perm items') : enums.Perm enums' := by
  obtain ⟨qs'', enums'', h'', hperm⟩ := h.reorder hp
  obtain rfl : qs'' = qs' := h''.classes.1.symm.trans h'.classes.1
  obtain rfl : enums'' = enums' := Except.ok.inj (h''.enums.symm.trans h'.enums)
  exact hperm

theorem exists_ok_of_perm (hp : items.Perm items')
    (h : ∃ c, generateChannels settings items = .ok c) :
    ∃ c, generateChannels settings items' = .ok c := by
  obtain ⟨c, hc⟩ := h
  obtain ⟨qs, enums, hrendered, -⟩ := generateChannels_ok_iff.mp hc
  obtain ⟨qs', enums', hrendered', -⟩ := hrendered.reorder hp
  exact ⟨_, generateChannels_ok_iff.mpr ⟨qs', enums', hrendered', rfl⟩⟩

/-- **The order of the items does not matter.**  For items in two orders, both runs succeed or
neither does.  If they do, each item has the same class in both, and each of the three groups holds
the same declarations up to order. -/
theorem generateChannels_perm (settings : Settings) {items items' : List Item}
    (hp : items.Perm items') :
    ((∃ c, generateChannels settings items = .ok c) ↔
        ∃ c', generateChannels settings items' = .ok c') ∧
      ∀ c c', generateChannels settings items = .ok c →
        generateChannels settings items' = .ok c' →
          c.models.Perm c'.models ∧ c.channels.Perm c'.channels ∧ c.enums.Perm c'.enums ∧
          ∃ render : Item → Declaration,
            c.models ++ c.channels =
              (items.filter (!·.isChannel) ++ items.filter (·.isChannel)).map render ∧
            c'.models ++ c'.channels =
              (items'.filter (!·.isChannel) ++ items'.filter (·.isChannel)).map render := by
  refine ⟨⟨exists_ok_of_perm hp, exists_ok_of_perm hp.symm⟩, fun c c' hc hc' => ?_⟩
  obtain ⟨qs, enums, h, rfl⟩ := generateChannels_ok_iff.mp hc
  obtain ⟨qs', enums', h', rfl⟩ := generateChannels_ok_iff.mp hc'
  have hrender := classOf_perm settings hp
  refine ⟨?_, ?_, h.enums_perm h' hp, classOf settings items, ?_, ?_⟩
  · show ((items.filter _).map _).Perm ((items'.filter _).map _)
    rw [hrender]
    exact (hp.filter _).map _
  · show ((items.filter _).map _).Perm ((items'.filter _).map _)
    rw [hrender]
    exact (hp.filter _).map _
  · rw [List.map_append]
    rfl
  · rw [List.map_append, hrender]
    rfl

/-- An interface that refers to an object, and to an enum. -/
def windowItem : Item :=
  ⟨"window", "interface", [("tab", .text "Tab?"), ("state", stateEnum "enum")]⟩

/-- An object with an enum of its own, and with the same enum. -/
def tabItem : Item :=
  ⟨"Tab", "object", [("kind", .map [(.text "type", .text "enum"), (.text "literals", .text "ab")]),
    ("state", stateEnum "enum?")]⟩

/-- The groups for these items, in either order, with the enums as they are first met. -/
def windowChannels (enums : List Declaration) : Channels where
  models := [⟨"Tab", .classType, ["// Generated from: Tab", "public partial class Tab", "\x7b",
    "    [JsonProperty(\"kind\")]", "    public KindEnum Kind \x7b get; set; \x7d", "",
    "    [JsonProperty(\"state\")]", "    public StateEnum? State \x7b get; set; \x7d", "\x7d"]⟩]
  channels := [⟨"WindowChannel", .classType, ["// Generated from: window",
    "public partial class WindowChannel", "\x7b", "    [JsonProperty(\"tab\")]",
    "    public Tab Tab \x7b get; set; \x7d", "", "    [JsonProperty(\"state\")]",
    "    public StateEnum State \x7b get; set; \x7d", "\x7d"]⟩]
  enums

/-- The enum of the object alone. -/
def kindEnum : Declaration :=
  ⟨"KindEnum", .enumType, ["public enum KindEnum", "\x7b", "    [EnumMember(Value = \"a\")]",
    "    A,", "", "    [EnumMember(Value = \"b\")]", "    B,", "\x7d"]⟩

theorem generateChannels_windowItem_tabItem : [windowItem, tabItem].Perm [tabItem, windowItem] ∧
    generateChannels {} [windowItem, tabItem] =
      .ok (windowChannels (frameChannels.enums ++ [kindEnum])) ∧
    generateChannels {} [tabItem, windowItem] =
      .ok (windowChannels (kindEnum :: frameChannels.enums)) ∧
    (windowChannels (frameChannels.enums ++ [kindEnum])).enums.Perm
      (windowChannels (kindEnum :: frameChannels.enums)).enums := by
  have hp : [windowItem, tabItem].Perm [tabItem, windowItem] := .swap _ _ _
  have hrun : generateChannels {} [windowItem, tabItem] =
      .ok (windowChannels (frameChannels.enums ++ [kindEnum])) := by decide +kernel
  have hrun' : generateChannels {} [tabItem, windowItem] =
      .ok (windowChannels (kindEnum :: frameChannels.enums)) := by decide +kernel
  obtain ⟨-, -, henums, -⟩ := (generateChannels_perm {} hp).2 _ _ hrun hrun'
  exact ⟨hp, hrun, hrun', henums⟩

end Protocol

end ApiSurface
