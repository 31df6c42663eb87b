import ApiSurface.Proofs.Comment.Layout

/-!
# Line breaks in comments

A comment is a list of lines, but a text in it may hold line breaks. Those of prose separate words,
except in the brackets of a link, and nothing looks for those of code.
-/

namespace ApiSurface

namespace Comment

/-- The characters that end a line of a file. -/
def lineBreaks : List Char := ['\n', '\r']

/-- A text without line breaks. -/
def Unbroken (cs : List Char) : Prop := ∀ b ∈ lineBreaks, b ∉ cs

instance (cs : List Char) : Decidable (Unbroken cs) :=
  List.decidableBAll (fun b => b ∉ cs) lineBreaks

/-- The first characters of a comment line. -/
def StartsComment (line : String) : Prop := "///".toList <+: line.toList

theorem eq_of_mem_lineBreaks {b : Char} (h : b ∈ lineBreaks) : b = '\n' ∨ b = '\r' := by
  simpa [lineBreaks] using h

theorem isBlank_of_mem_lineBreaks {b : Char} (h : b ∈ lineBreaks) : Text.isBlank b = true := by
  rcases eq_of_mem_lineBreaks h with rfl | rfl <;> decide

theorem not_mem_lead {b : Char} (h : b ∈ lineBreaks) : b ∉ lead.toList := by
  rcases eq_of_mem_lineBreaks h with rfl | rfl <;> decide

theorem unbroken_tag (e : Element) : Unbroken e.opening.toList ∧ Unbroken e.closing.toList := by
  cases e with
  | list ordinal => cases ordinal <;> decide
  | _ => decide

/-! ### Prose -/

section Prose

variable {f : String → Option String} {b : Char}

theorem mem_markup_iff (hb : b ∈ lineBreaks)
    (hf : ∀ target markup, f target = some markup → Unbroken markup.toList) (p : Piece) :
    b ∈ (p.markup f).toList ↔
      p = .char b ∨ ∃ target ∈ p.target?, f target = none ∧ b ∈ target.toList := by
  have hblank := isBlank_of_mem_lineBreaks hb
  cases p with
  | char c =>
    rw [Piece.markup, Text.blank_mem_escapeMarkup_iff hblank]
    simp [Piece.target?, eq_comm]
  | link target =>
    rw [Piece.markup]
    cases h : f (String.ofList target) with
    | some markup => simp [Piece.target?, h, hf _ markup h b hb]
    | none =>
      have hbrackets : b ≠ '[' ∧ b ≠ ']' := by
        rcases eq_of_mem_lineBreaks hb with rfl | rfl <;> decide
      rw [Option.getD_none, Text.blank_mem_escapeMarkup_iff hblank]
      simp [Piece.target?, h, hbrackets]

/-- **A break gets into a word** from a link that is not resolved. -/
theorem mem_word_iff (hb : b ∈ lineBreaks)
    (hf : ∀ target markup, f target = some markup → Unbroken markup.toList) {text : String}
    {token : List Char} (htoken : token ∈ tokens text.toList) :
    b ∈ (word f token).toList ↔
      ∃ target ∈ (pieces token).filterMap Piece.target?, f target = none ∧ b ∈ target.toList := by
  have hmarkup : ∀ ps, b ∈ (markupOf f ps).toList ↔ ∃ p ∈ ps, b ∈ (p.markup f).toList := by
    intro ps
    induction ps with
    | nil => simp [markupOf]
    | cons p ps ih => simp [markupOf, ih]
  rw [word, hmarkup]
  simp only [mem_markup_iff hb hf, List.mem_filterMap]
  constructor
  · rintro ⟨p, hp, rfl | ⟨target, htarget, hnone, hmem⟩⟩
    · have hno := not_isBlank_of_char_mem htoken hp
      rw [isBlank_of_mem_lineBreaks hb] at hno
      cases hno
    · exact ⟨target, ⟨p, hp, htarget⟩, hnone, hmem⟩
  · rintro ⟨target, ⟨p, hp, htarget⟩, hnone, hmem⟩
    exact ⟨p, hp, .inr ⟨target, htarget, hnone, hmem⟩⟩

theorem mem_proseLines_iff (hb : b ∈ lineBreaks)
    (hf : ∀ target markup, f target = some markup → Unbroken markup.toList) (width : Int)
    (text : String) : (∃ line ∈ proseLines f width text, b ∈ line.toList) ↔
      ∃ target ∈ linkTargets text, f target = none ∧ b ∈ target.toList := by
  rw [proseLines, mem_wrapWords_iff (not_mem_lead hb)]
  constructor
  · rintro ⟨w, hw, hmem⟩
    obtain ⟨token, htoken, rfl⟩ := List.mem_map.mp hw
    obtain ⟨target, htarget, h⟩ := (mem_word_iff hb hf htoken).mp hmem
    exact ⟨target, List.mem_flatMap.mpr ⟨token, htoken, htarget⟩, h⟩
  · rintro ⟨target, htarget, h⟩
    obtain ⟨token, htoken, htarget⟩ := List.mem_flatMap.mp htarget
    exact ⟨word f token, List.mem_map_of_mem htoken,
      (mem_word_iff hb hf htoken).mpr ⟨target, htarget, h⟩⟩

end Prose

/-! ### Code -/

theorem toList_codeLine (text : String) : (codeLine text).toList =
    if Text.stripEnd text.toList = [] then "///".toList
    else lead.toList ++ (Text.stripEnd text.toList).flatMap Text.markupChar := by
  have hnil : ∀ cs : List Char, cs.flatMap Text.markupChar = [] ↔ cs = [] := by
    intro cs
    have hne : ∀ c, Text.markupChar c ≠ [] := by
      intro c
      unfold Text.markupChar
      split_ifs <;> simp
    cases cs with
    | nil => simp
    | cons c cs => simp [hne]
  have hlead : Text.stripEnd lead.toList = "///".toList := by decide
  rw [codeLine, String.toList_ofList, String.toList_append, Text.stripEnd_append,
    Text.toList_escapeMarkup, Text.stripEnd_flatMap_markupChar, hlead]
  exact if_congr (hnil _) rfl rfl

/-- **A break gets into a line of code** from the code, except at its end. -/
theorem mem_codeLine_iff {b : Char} (hb : b ∈ lineBreaks) (text : String) :
    b ∈ (codeLine text).toList ↔ b ∈ Text.stripEnd text.toList := by
  have hblank := isBlank_of_mem_lineBreaks hb
  have hmark : b ∉ "///".toList := by
    rcases eq_of_mem_lineBreaks hb with rfl | rfl <;> decide
  rw [toList_codeLine]
  by_cases h : Text.stripEnd text.toList = []
  · rw [if_pos h, h]
    exact iff_of_false hmark List.not_mem_nil
  · rw [if_neg h, List.mem_append, List.mem_flatMap]
    simp only [Text.blank_mem_markupChar_iff hblank, exists_eq_right', not_mem_lead hb, false_or]

/-! ### Comments -/

theorem startsComment_lineOf (ws : List String) : StartsComment (lineOf ws) := by
  refine ⟨' ' :: (" ".intercalate ws).toList, ?_⟩
  rw [lineOf, String.toList_append]
  rfl

theorem startsComment_codeLine (text : String) : StartsComment (codeLine text) := by
  unfold StartsComment
  rw [toList_codeLine]
  split
  · exact List.prefix_rfl
  · exact ⟨' ' :: (Text.stripEnd text.toList).flatMap Text.markupChar, rfl⟩

theorem startsComment_tag (e : Element) : StartsComment e.opening ∧ StartsComment e.closing := by
  unfold StartsComment
  cases e with
  | list ordinal => cases ordinal <;> decide
  | _ => decide

/-- **Each line of a comment** starts with the mark of a comment. -/
theorem startsComment_comment {f : String → Option String} {width : Int} {nodes : List DocNode} :
    ∀ line ∈ comment f width nodes, StartsComment line := by
  intro line hline
  rcases mem_comment hline with ⟨e, rfl | rfl⟩ | ⟨n, -, hline⟩
  · exact (startsComment_tag e).1
  · exact (startsComment_tag e).2
  unfold content at hline
  split at hline
  · obtain ⟨text, -, rfl⟩ := List.mem_map.mp hline
    exact startsComment_codeLine text
  · obtain ⟨groups, hlines, -⟩ := exists_groups_wrapWords width _
    rw [proseLines, hlines] at hline
    obtain ⟨ws, -, rfl⟩ := List.mem_map.mp hline
    exact startsComment_lineOf ws

theorem startsComment_docLines {style : ProseStyle} {nodes : List DocNode} {lines : List String}
    (h : style.docLines nodes = .ok lines) : ∀ line ∈ lines, StartsComment line := by
  have hlines := docLines_eq (answered_of_docLines h)
  obtain rfl := Except.ok.inj (hlines.symm.trans h)
  exact startsComment_comment

/-- The texts of a node that get into its lines as they are: code, without the blanks at the end of
a line, and the links that are not resolved. -/
def verbatim (f : String → Option String) (n : DocNode) : List (List Char) :=
  if n.kind = "code" then n.lines.map fun text => Text.stripEnd text.toList
  else (n.links.filter fun target => f target = none).map (·.toList)

theorem mem_content_iff {f : String → Option String} {b : Char} (hb : b ∈ lineBreaks)
    (hf : ∀ target markup, f target = some markup → Unbroken markup.toList) (width : Int)
    (n : DocNode) : (∃ line ∈ content f width n, b ∈ line.toList) ↔ ∃ cs ∈ verbatim f n, b ∈ cs := by
  unfold content verbatim
  by_cases hcode : n.kind = "code"
  · rw [if_pos hcode, if_pos hcode]
    simp only [List.mem_map, exists_exists_and_eq_and, mem_codeLine_iff hb]
  · rw [if_neg hcode, if_neg hcode, mem_proseLines_iff hb hf, DocNode.links, if_neg hcode]
    simp [and_assoc]

theorem unbroken_comment_iff {f : String → Option String}
    (hf : ∀ target markup, f target = some markup → Unbroken markup.toList) {width : Int}
    {nodes : List DocNode} : (∀ line ∈ comment f width nodes, Unbroken line.toList) ↔
      ∀ n ∈ nodes, ∀ cs ∈ verbatim f n, Unbroken cs := by
  constructor
  · intro h n hn cs hcs b hb hmem
    obtain ⟨line, hline, hmem⟩ := (mem_content_iff hb hf width n).mpr ⟨cs, hcs, hmem⟩
    exact h line (mem_comment_of_content hn hline) b hb hmem
  · intro h line hline b hb hmem
    rcases mem_comment hline with ⟨e, rfl | rfl⟩ | ⟨n, hn, hline⟩
    · exact (unbroken_tag e).1 b hb hmem
    · exact (unbroken_tag e).2 b hb hmem
    · obtain ⟨cs, hcs, hmem⟩ := (mem_content_iff hb hf width n).mp ⟨line, hline, hmem⟩
      exact h n hn cs hcs b hb hmem

/-- **The lines of a comment** hold no line break if and only if none gets in from code, or from a
link that is not resolved. The comment is written if and only if the resolver answers for each link,
and each of its lines starts with the mark of a comment. -/
theorem docLines_unbroken_iff (style : ProseStyle) (nodes : List DocNode)
    (hlinks : ∀ target markup, style.links target = .ok (some markup) → Unbroken markup.toList) :
    ((∃ lines, style.docLines nodes = .ok lines) ↔
      ∀ n ∈ nodes, ∀ target ∈ n.links, ∃ answer, style.links target = .ok answer) ∧
    ∀ lines, style.docLines nodes = .ok lines →
      (∀ line ∈ lines, StartsComment line) ∧
      ((∀ line ∈ lines, Unbroken line.toList) ↔ ∀ n ∈ nodes,
        (n.kind = "code" → ∀ text ∈ n.lines, Unbroken (Text.stripEnd text.toList)) ∧
        ∀ target ∈ n.links, style.links target = .ok none → Unbroken target.toList) := by
  refine ⟨docLines_ok_iff, fun lines hlines => ?_⟩
  have hanswers := answered_of_docLines hlines
  obtain rfl : comment (answers style) style.width nodes = lines :=
    Except.ok.inj ((docLines_eq hanswers).symm.trans hlines)
  have hunbroken : ∀ target markup, answers style target = some markup →
      Unbroken markup.toList := by
    intro target markup h
    unfold answers at h
    cases hlink : style.links target with
    | error c => simp [hlink, Except.toOption] at h
    | ok answer =>
      obtain rfl : answer = some markup := by simpa [hlink, Except.toOption] using h
      exact hlinks target markup hlink
  refine ⟨startsComment_comment, (unbroken_comment_iff hunbroken).trans ?_⟩
  refine forall₂_congr fun n hn => ?_
  unfold verbatim
  by_cases hcode : n.kind = "code"
  · simp [hcode, DocNode.links]
  · have hnone : ∀ target ∈ n.links, (style.links target = .ok none ↔
        answers style target = none) := by
      intro target htarget
      rw [hanswers n hn target htarget, Except.ok.injEq]
    simp only [hcode, false_implies, true_and, if_false, List.forall_mem_map, List.mem_filter,
      decide_eq_true_eq, and_imp]
    exact forall₂_congr fun target htarget => imp_congr_left (hnone target htarget).symm

/-- A style that resolves one link. -/
def pageStyle : ProseStyle where
  width := 60
  links target := .ok (if target = "Page" then some "<see cref=\"IPage\"/>" else none)

/-- Prose in which each line break separates words, with a link that is resolved, and code that
ends in a line break. -/
def unbrokenNodes : List DocNode :=
  [{ kind := "text", text := "Opens\na [Page]\r\nor a [x y]." },
    { kind := "code", lines := ["a\n"] }]

theorem docLines_unbroken_pageStyle :
    (∀ target markup, pageStyle.links target = .ok (some markup) → Unbroken markup.toList) ∧
    ∃ lines, pageStyle.docLines unbrokenNodes = .ok lines ∧
      ∀ line ∈ lines, StartsComment line ∧ Unbroken line.toList := by
  have hlinks : ∀ target markup, pageStyle.links target = .ok (some markup) →
      Unbroken markup.toList := by
    intro target markup h
    have h : (if target = "Page" then some "<see cref=\"IPage\"/>" else none) = some markup :=
      Except.ok.inj h
    split at h
    · obtain rfl := Option.some.inj h
      decide
    · cases h
  have hlines : pageStyle.docLines unbrokenNodes =
      .ok ["/// <summary>", "/// Opens a <see cref=\"IPage\"/> or a [x y].", "/// <code>", "/// a",
        "/// </code>", "/// </summary>"] := rfl
  have hcode : ∀ n ∈ unbrokenNodes, ∀ text ∈ n.lines, Unbroken (Text.stripEnd text.toList) := by
    decide
  have htargets : ∀ n ∈ unbrokenNodes, ∀ target ∈ n.links, Unbroken target.toList := by decide
  obtain ⟨hstart, hiff⟩ := (docLines_unbroken_iff pageStyle unbrokenNodes hlinks).2 _ hlines
  have hunbroken := hiff.mpr fun n hn =>
    ⟨fun _ => hcode n hn, fun target htarget _ => htargets n hn target htarget⟩
  exact ⟨hlinks, _, hlines, fun line hline => ⟨hstart line hline, hunbroken line hline⟩⟩

/-- A line break in a link that is not resolved, and one inside a line of code, stay in their
lines. -/
theorem docLines_broken :
    (⟨80, noLinks⟩ : ProseStyle).docLines
        [{ kind := "text", text := "See [a\nb]." }, { kind := "code", lines := ["c\nd"] }] =
      .ok ["/// <summary>", "/// See [a\nb].", "/// <code>", "/// c\nd", "/// </code>",
        "/// </summary>"] ∧
      ¬ Unbroken "/// See [a\nb].".toList ∧ ¬ Unbroken "/// c\nd".toList :=
  ⟨rfl, by decide, by decide⟩

end Comment

end ApiSurface
