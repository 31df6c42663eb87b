import ApiSurface.Proofs.Comment.Breaks
import ApiSurface.Proofs.Protocol.Groups
import ApiSurface.Proofs.Registry.Reports
import ApiSurface.Proofs.Text.Literal

/-!
# Names of properties

The class for an entry of the registry and the class for an item of a protocol have a property for each
of some source properties, under a name that is made from its source name.  The names are not compared
with each other.
-/

namespace ApiSurface

/-- The lines of one property: a comment or an attribute, and then the declaration under a name. -/
def DeclaresName (name : String) (block : List String) : Prop :=
  ∃ above type, block = above ++ [Context.propertyLine "public " type name] ∧
    ∀ line ∈ above, Comment.StartsComment line ∨ "[".toList <+: line.toList

/-- **The names of the properties in a class**, in the order of its lines. -/
def DeclaresNames (indent : String) (head names : List String) (d : Declaration) : Prop :=
  ∃ blocks, d.lines = Declaration.braced indent head (Declaration.separated blocks) ∧
    List.Forall₂ DeclaresName names blocks

/-! ### Repetitions -/

/-- **Plans in a row that succeeded** succeed again with one of them repeated at the end. -/
theorem Plan.exists_run_forEach_repeated {α β : Type} {f : α → Plan β} {as : List α} {r : Registry}
    {bs : List β} (h : ((forEach f as).run r).outcome = .ok bs) {a : α} (ha : a ∈ as) :
    ∃ bs', ((forEach f (as ++ [a])).run r).outcome = .ok bs' := by
  obtain ⟨hgranted, houtcome⟩ := run_ok_iff.mp h
  obtain ⟨parts, hparts, hrequests, -⟩ := yields_forEach_iff.mp ⟨rfl, houtcome⟩
  obtain ⟨part, hpart, hyields⟩ := exists_of_forall₂_left hparts ha
  have hrepeated : (forEach f (as ++ [a])).Yields ((parts ++ [part]).flatMap (·.1))
      ((parts ++ [part]).map (·.2)) :=
    yields_forEach_iff.mpr ⟨_, List.rel_append hparts (.cons hyields .nil), rfl, rfl⟩
  refine ⟨_, run_ok_iff.mpr ⟨?_, hrepeated.2⟩⟩
  -- what is asked for again is there already
  have hagain : ((r.file (forEach f as).requests).registry.file part.1) =
      ⟨[], none, (r.file (forEach f as).requests).registry⟩ := by
    refine Registry.file_eq_of_holds fun q hq => Registry.holds_of_file hgranted q ?_
    rw [hrequests]
    exact List.mem_flatMap.mpr ⟨part, hpart, hq⟩
  rw [hrepeated.1, List.flatMap_append, ← hrequests, Registry.file_append]
  simp only [hgranted, List.flatMap_singleton, hagain]

/-! ### Names in rendered classes -/

/-- **The classes have the names that are made for their properties.**  The names in a class are distinct
if and only if no two properties have the same.  A class is refused only if one of its properties is, by
itself: the class with this property alone is refused when the properties in front have been rendered.
In particular each property can be repeated, and the class then has one name for two properties. -/
structure NamedAsGiven {α : Type} (render : List α → Plan Declaration) (name : α → String)
    (indent : String) (head : List String) : Prop where
  declares : ∀ r properties d, ((render properties).run r).outcome = .ok d →
    ∃ names, DeclaresNames indent head names d ∧ names = properties.map name ∧
      (names.Nodup ↔ properties.Pairwise fun p q => name p ≠ name q)
  refused : ∀ r properties fault, ((render properties).run r).outcome = .error fault ↔
    ∃ before p after d, properties = before ++ p :: after ∧
      ((render before).run r).outcome = .ok d ∧
      ((render [p]).run ((render before).run r).registry).outcome = .error fault
  repeated : ∀ r properties d, ((render properties).run r).outcome = .ok d → ∀ p ∈ properties,
    ∃ d', ((render (properties ++ [p])).run r).outcome = .ok d' ∧
      DeclaresNames indent head (properties.map name ++ [name p]) d'

/-- The class for some properties has a block for each of them, which depends on no other. -/
structure RendersEach {α : Type} (render : List α → Plan Declaration) (name : α → String)
    (indent : String) (head : List String) (line : α → Plan (List String))
    (make : List (List String) → Declaration) : Prop where
  plan : ∀ properties, render properties =
    (Plan.forEach line properties >>= fun blocks => pure (make blocks))
  block : ∀ p qs block, (line p).Yields qs block → DeclaresName (name p) block
  lines : ∀ blocks, (make blocks).lines =
    Declaration.braced indent head (Declaration.separated blocks)

namespace RendersEach

variable {α : Type} {render : List α → Plan Declaration} {name : α → String} {indent : String}
  {head : List String} {line : α → Plan (List String)} {make : List (List String) → Declaration}
  {r : Registry} {properties : List α} {d : Declaration}

theorem run_iff (hrender : RendersEach render name indent head line make) :
    ((render properties).run r).outcome = .ok d ↔
      ∃ blocks, ((Plan.forEach line properties).run r).outcome = .ok blocks ∧ make blocks = d := by
  rw [hrender.plan, Plan.run_bind_pure]
  exact map_eq_ok_iff

/-- **A rendered class** declares the names of its properties. -/
theorem declaresNames (hrender : RendersEach render name indent head line make)
    (h : ((render properties).run r).outcome = .ok d) :
    DeclaresNames indent head (properties.map name) d := by
  obtain ⟨blocks, hblocks, rfl⟩ := hrender.run_iff.mp h
  obtain ⟨-, houtcome⟩ := Plan.run_ok_iff.mp hblocks
  obtain ⟨parts, hparts, -, rfl⟩ := Plan.yields_forEach_iff.mp ⟨rfl, houtcome⟩
  refine ⟨_, hrender.lines _, ?_⟩
  rw [List.forall₂_map_left_iff, List.forall₂_map_right_iff]
  exact hparts.imp fun p part hpart => hrender.block p _ _ hpart

theorem run_registry (hrender : RendersEach render name indent head line make) :
    ((render properties).run r).registry = ((Plan.forEach line properties).run r).registry := by
  rw [hrender.plan, Plan.run_bind_pure]

theorem run_error_iff (hrender : RendersEach render name indent head line make) {fault : Fault} :
    ((render properties).run r).outcome = .error fault ↔
      ((Plan.forEach line properties).run r).outcome = .error fault := by
  rw [hrender.plan]
  exact Plan.run_bind_pure_error_iff

theorem run_singleton_error_iff (hrender : RendersEach render name indent head line make) {p : α}
    {fault : Fault} : ((render [p]).run r).outcome = .error fault ↔
      ((line p).run r).outcome = .error fault := by
  have hsingle : Plan.forEach line [p] = (line p >>= fun block => pure [block]) := rfl
  rw [hrender.run_error_iff, hsingle]
  exact Plan.run_bind_pure_error_iff

/-- **A class is refused** if and only if one of its properties is, by itself. -/
theorem refused_iff (hrender : RendersEach render name indent head line make) {fault : Fault} :
    ((render properties).run r).outcome = .error fault ↔
      ∃ before p after d, properties = before ++ p :: after ∧
        ((render before).run r).outcome = .ok d ∧
        ((render [p]).run ((render before).run r).registry).outcome = .error fault := by
  rw [hrender.run_error_iff, Plan.run_forEach_error_iff]
  constructor
  · rintro ⟨before, p, after, blocks, rfl, hbefore, hp⟩
    refine ⟨before, p, after, _, rfl, hrender.run_iff.mpr ⟨blocks, hbefore, rfl⟩, ?_⟩
    rw [hrender.run_registry]
    exact hrender.run_singleton_error_iff.mpr hp
  · rintro ⟨before, p, after, d, rfl, hbefore, hp⟩
    obtain ⟨blocks, hblocks, -⟩ := hrender.run_iff.mp hbefore
    rw [hrender.run_registry] at hp
    exact ⟨before, p, after, blocks, rfl, hblocks, hrender.run_singleton_error_iff.mp hp⟩

/-- **A property of a rendered class** can be repeated. -/
theorem repeated (hrender : RendersEach render name indent head line make)
    (h : ((render properties).run r).outcome = .ok d) {p : α} (hp : p ∈ properties) :
    ∃ d', ((render (properties ++ [p])).run r).outcome = .ok d' ∧
      DeclaresNames indent head (properties.map name ++ [name p]) d' := by
  obtain ⟨blocks, hblocks, -⟩ := hrender.run_iff.mp h
  obtain ⟨blocks', hblocks'⟩ := Plan.exists_run_forEach_repeated hblocks hp
  have hrepeated := hrender.run_iff.mpr ⟨blocks', hblocks', rfl⟩
  have hdeclares := hrender.declaresNames hrepeated
  rw [List.map_append] at hdeclares
  exact ⟨_, hrepeated, hdeclares⟩

/-- **Rendering property by property** gives a class the names that are made for its properties. -/
theorem namedAsGiven (hrender : RendersEach render name indent head line make) :
    NamedAsGiven render name indent head where
  declares _ _ _ h := ⟨_, hrender.declaresNames h, rfl, List.pairwise_map⟩
  refused _ _ _ := hrender.refused_iff
  repeated _ _ _ h _ := hrender.repeated h

end RendersEach

/-! ### Both kinds of classes -/

/-- The name of the property for a member: its alias, or its name with the first letter raised. -/
def Member.propertyName (m : Member) : String :=
  match m.preferredName with
  | some preferred => if preferred ≠ m.name then preferred else Identifier.capitalize m.name
  | none => Identifier.capitalize m.name

theorem Member.propertyName_of_translate {m : Member} {name : String}
    (h : Identifier.translate "property" m.name (some m) = .ok name) : name = m.propertyName := by
  unfold Identifier.translate at h
  split at h
  · cases h
  rw [if_neg (by decide), Option.bind_some] at h
  unfold Member.propertyName
  cases hpreferred : m.preferredName with
  | none =>
    rw [hpreferred] at h
    exact (Except.ok.inj h).symm
  | some preferred =>
    simp only [hpreferred] at h ⊢
    split at h
    · next hother =>
      rw [if_pos hother]
      exact (Except.ok.inj h).symm
    · next hsame =>
      rw [if_neg hsame]
      exact (Except.ok.inj h).symm

theorem rendersEach_resultClass (cx : Context) (key : String) :
    RendersEach (cx.resultClass key) Member.propertyName cx.settings.indent
      ["public class " ++ key] (cx.resultProperty key)
      fun blocks => ⟨key, .classType, Declaration.braced cx.settings.indent
        ["public class " ++ key] (Declaration.separated blocks)⟩ where
  plan _ := rfl
  block p qs block h := by
    obtain ⟨slot, hshows, -⟩ := yields_resultProperty h
    obtain ⟨comment, hcomment, rfl⟩ := hshows.lines
    rw [Member.propertyName_of_translate hshows.name]
    refine ⟨comment, _, rfl, fun line hline => ?_⟩
    exact .inl (Comment.startsComment_docLines hcomment line hline)
  lines _ := rfl

namespace Protocol

theorem rendersEach_itemClass (indent : String) (objects : List String) (item : Item) :
    RendersEach (fun properties => itemClass indent objects { item with properties })
      (Identifier.capitalize ·.1) indent
      ["// Generated from: " ++ item.name,
        "public partial class " ++ channelName item.kind item.name]
      (fun p => propertyLines objects item p.1 p.2)
      fun blocks => ⟨channelName item.kind item.name, .classType, Declaration.braced indent
        ["// Generated from: " ++ item.name,
          "public partial class " ++ channelName item.kind item.name]
        (Declaration.separated blocks)⟩ where
  plan _ := rfl
  block p qs block h := by
    obtain ⟨hshows, -⟩ := yields_propertyLines h
    cases hshows with
    | @intro name t v =>
      refine ⟨["[JsonProperty(\"" ++ name ++ "\")]"], t, rfl, List.forall_mem_singleton.mpr ?_⟩
      have hopening : "[".toList <+: "[JsonProperty(\"".toList := by decide
      rw [Text.toList_attribute]
      exact .inr (hopening.trans (List.prefix_append _ _))
  lines _ := rfl

/-- **Names of properties.**  The class for an entry of the registry and the class for an item have the
names that are made for their properties.  These are distinct if and only if no two properties have the
same name, and nothing is refused because two of them have. -/
theorem propertyNames_asGiven (cx : Context) (key indent : String) (objects : List String)
    (item : Item) :
    NamedAsGiven (cx.resultClass key) Member.propertyName cx.settings.indent
      ["public class " ++ key] ∧
    NamedAsGiven (fun properties => itemClass indent objects { item with properties })
      (Identifier.capitalize ·.1) indent ["// Generated from: " ++ item.name,
        "public partial class " ++ channelName item.kind item.name] :=
  ⟨(rendersEach_resultClass cx key).namedAsGiven,
    (rendersEach_itemClass indent objects item).namedAsGiven⟩

/-- Two properties of a size, with names of their own. -/
def sizeProperties (second : String) : List Member :=
  [{ kind := "property", name := "width", type := .primitive "number" },
    { kind := "property", name := second, type := .primitive "number" }]

/-- The class for these properties. -/
def sizeClass (second : String) : Declaration :=
  ⟨"Size", .classType, ["public class Size", "\x7b", "    public int Width \x7b get; set; \x7d", "",
    "    public int " ++ second ++ " \x7b get; set; \x7d", "\x7d"]⟩

/-- Two properties of a frame. -/
def frameUrls (second : String) : Item :=
  ⟨"Frame", "object", [("url", .text "string"), (second, .text "number")]⟩

/-- The class for this item. -/
def frameUrlsClass (second property : String) : Declaration :=
  ⟨"Frame", .classType, ["// Generated from: Frame", "public partial class Frame", "\x7b",
    "    [JsonProperty(\"url\")]", "    public string Url \x7b get; set; \x7d", "",
    "    [JsonProperty(\"" ++ second ++ "\")]",
    "    public float " ++ property ++ " \x7b get; set; \x7d", "\x7d"]⟩

/-- Two names in each class. -/
theorem propertyNames_heightAndAge :
    ((({} : Context).resultClass "Size" (sizeProperties "height")).run (.empty [])).outcome =
      .ok (sizeClass "Height") ∧
    DeclaresNames "    " ["public class Size"] ["Width", "Height"] (sizeClass "Height") ∧
    ((itemClass "    " ["Frame"] (frameUrls "age")).run (.empty [])).outcome =
      .ok (frameUrlsClass "age" "Age") ∧
    DeclaresNames "    " ["// Generated from: Frame", "public partial class Frame"] ["Url", "Age"]
      (frameUrlsClass "age" "Age") := by
  have hsize : ((({} : Context).resultClass "Size" (sizeProperties "height")).run
      (.empty [])).outcome = .ok (sizeClass "Height") := by decide +kernel
  have hframe : ((itemClass "    " ["Frame"] (frameUrls "age")).run (.empty [])).outcome =
      .ok (frameUrlsClass "age" "Age") := by decide +kernel
  obtain ⟨hclasses, hitems⟩ := propertyNames_asGiven {} "Size" "    " ["Frame"] (frameUrls "age")
  obtain ⟨_, hwidth, rfl, -⟩ := hclasses.declares _ _ _ hsize
  obtain ⟨_, hurl, rfl, -⟩ := hitems.declares _ _ _ hframe
  exact ⟨hsize, hwidth, hframe, hurl⟩

/-- Names that differ in the case of their first letter give one name to two properties. -/
theorem propertyNames_twice :
    ((({} : Context).resultClass "Size" (sizeProperties "Width")).run (.empty [])).outcome =
      .ok (sizeClass "Width") ∧
    DeclaresNames "    " ["public class Size"] ["Width", "Width"] (sizeClass "Width") ∧
    ((itemClass "    " ["Frame"] (frameUrls "Url")).run (.empty [])).outcome =
      .ok (frameUrlsClass "Url" "Url") ∧
    DeclaresNames "    " ["// Generated from: Frame", "public partial class Frame"] ["Url", "Url"]
      (frameUrlsClass "Url" "Url") ∧
    ¬ ["Width", "Width"].Nodup ∧ ¬ ["Url", "Url"].Nodup := by
  have hsize : ((({} : Context).resultClass "Size" (sizeProperties "Width")).run
      (.empty [])).outcome = .ok (sizeClass "Width") := by decide +kernel
  have hframe : ((itemClass "    " ["Frame"] (frameUrls "Url")).run (.empty [])).outcome =
      .ok (frameUrlsClass "Url" "Url") := by decide +kernel
  exact ⟨hsize, (rendersEach_resultClass {} "Size").declaresNames hsize, hframe,
    (rendersEach_itemClass "    " ["Frame"] (frameUrls "Url")).declaresNames hframe, by decide,
    by decide⟩

end Protocol

end ApiSurface
