import ApiSurface.Proofs.Protocol.Groups
import ApiSurface.Proofs.Text.Case
import ApiSurface.Proofs.Text.Literal

/-!
# Names in attributes

The class for an item has an attribute above each property, with the name of the property as the
protocol has it in a string literal.
-/

namespace ApiSurface.Protocol

/-- The attribute above the property with a name. -/
def jsonAttribute (name : String) : String := "[JsonProperty(\"" ++ name ++ "\")]"

/-- The characters that end a line of C#. -/
def newLineCharacters : List Char := ['\n', '\r', '\x85', '\u2028', '\u2029']

/-- A line is an attribute with a well-formed literal, and the value of the literal is a name. -/
structure WritesName (name line : String) : Prop where
  reads : Text.readLiteralIn? "[JsonProperty(\"".toList ")]".toList line.toList = some name.toList
  inLine : ∀ c ∈ line.toList, c ∉ newLineCharacters

/-- A name that needs no escape: one without quotes, backslashes and characters that end a line. -/
def IsPlain (name : String) : Prop :=
  ∀ c ∈ name.toList, c ≠ '"' ∧ c ≠ '\\' ∧ c ∉ newLineCharacters

/-- **The attribute for a name** has the name as the value of its literal if and only if the name
needs no escape. -/
theorem writesName_iff (name : String) : WritesName name (jsonAttribute name) ↔ IsPlain name := by
  have htext : (jsonAttribute name).toList =
      "[JsonProperty(\"".toList ++ (name.toList ++ '"' :: ")]".toList) :=
    Text.toList_attribute "[JsonProperty(\"" name
  have hreads : Text.readLiteralIn? "[JsonProperty(\"".toList ")]".toList
      (jsonAttribute name).toList = some name.toList ↔ '"' ∉ name.toList ∧ '\\' ∉ name.toList := by
    rw [htext, Text.readLiteralIn?_eq_some_iff]
    exact Text.readLiteral?_raw_iff
  have hinLine : (∀ c ∈ (jsonAttribute name).toList, c ∉ newLineCharacters) ↔
      ∀ c ∈ name.toList, c ∉ newLineCharacters := by
    have hopening : ∀ c ∈ "[JsonProperty(\"".toList, c ∉ newLineCharacters :=
      Text.forall_mem_of_all (by decide)
    have hclosing : ∀ c ∈ '"' :: ")]".toList, c ∉ newLineCharacters :=
      Text.forall_mem_of_all (by decide)
    rw [htext, List.forall_mem_append, List.forall_mem_append]
    exact ⟨fun h => h.2.1, fun h => ⟨hopening, h, hclosing⟩⟩
  constructor
  · intro h c hc
    obtain ⟨hquote, hbackslash⟩ := hreads.mp h.reads
    exact ⟨ne_of_mem_of_not_mem hc hquote, ne_of_mem_of_not_mem hc hbackslash,
      hinLine.mp h.inLine c hc⟩
  · intro h
    refine ⟨hreads.mpr ⟨fun hc => ?_, fun hc => ?_⟩, hinLine.mpr fun c hc => (h c hc).2.2⟩
    · exact (h _ hc).1 rfl
    · exact (h _ hc).2.1 rfl

/-- **The names of properties in the class for an item.**  If the class can be rendered, it has a
block for each property, in order, which is an attribute and the line of the property.  The attribute
is a well-formed literal with the name of the property as its value if and only if the name needs no
escape. -/
theorem itemClass_jsonNames_iff {indent : String} {objects : List String} {item : Item}
    {r : Registry} {d : Declaration}
    (h : ((itemClass indent objects item).run r).outcome = .ok d) :
    ∃ blocks, d.lines = Declaration.braced indent
        ["// Generated from: " ++ item.name, "public partial class " ++ d.name]
        (Declaration.separated blocks) ∧
      List.Forall₂ (fun (property : String × Value) block =>
          (∃ line, block = [jsonAttribute property.1, line]) ∧
            (WritesName property.1 (jsonAttribute property.1) ↔ IsPlain property.1))
        item.properties blocks := by
  obtain ⟨-, houtcome⟩ := Plan.run_ok_iff.mp h
  obtain ⟨hshows, -⟩ := yields_itemClass ⟨rfl, houtcome⟩
  obtain ⟨blocks, hblocks, hlines⟩ := hshows.lines
  refine ⟨blocks, hlines, hblocks.imp ?_⟩
  rintro property block ⟨-, -⟩
  exact ⟨⟨_, rfl⟩, writesName_iff _⟩

/-- The object `Frame` with one property, a text. -/
def frameWith (property : String) : Item := ⟨"Frame", "object", [(property, .text "string")]⟩

/-- The class for this object. -/
def frameClassWith (property : String) : Declaration :=
  ⟨"Frame", .classType, ["// Generated from: Frame", "public partial class Frame", "\x7b",
    "    " ++ jsonAttribute property,
    "    public string " ++ Identifier.capitalize property ++ " \x7b get; set; \x7d", "\x7d"]⟩

theorem itemClass_jsonNames_baseUrl :
    ((itemClass "    " ["Frame"] (frameWith "base url's")).run (.empty [])).outcome =
      .ok (frameClassWith "base url's") ∧
    WritesName "base url's" (jsonAttribute "base url's") := by
  have hrun : ((itemClass "    " ["Frame"] (frameWith "base url's")).run (.empty [])).outcome =
      .ok (frameClassWith "base url's") := by decide +kernel
  have hplain : IsPlain "base url's" := Text.forall_mem_of_all (by decide)
  obtain ⟨blocks, -, hblocks⟩ := itemClass_jsonNames_iff hrun
  obtain ⟨block, -, -, hwrites⟩ :=
    exists_of_forall₂_left hblocks (List.mem_singleton.mpr rfl)
  exact ⟨hrun, hwrites.mpr hplain⟩

/-- A quote in the name of a property closes the literal. -/
theorem itemClass_quotedName :
    ((itemClass "    " ["Frame"] (frameWith "a\"b")).run (.empty [])).outcome =
      .ok (frameClassWith "a\"b") ∧
    ¬ WritesName "a\"b" (jsonAttribute "a\"b") := by
  refine ⟨by decide +kernel, fun h => ?_⟩
  have hplain := (writesName_iff "a\"b").mp h
  exact (hplain '"' (by decide)).1 rfl

end ApiSurface.Protocol
