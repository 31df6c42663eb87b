import ApiSurface.Proofs.Comment.Layout

/-!
# Comments are well nested

A comment is read line by line with the stack of the elements that are open. Each tag opens an
element where it may stand or closes the one that was opened last, and everything else is content.
-/

namespace ApiSurface.Comment

/-- Whether an element may be opened, with some elements open around it, the inner ones first. A
list stands in a summary, so never in another list. -/
def Element.fits : Element → List Element → Bool
  | .summary, [] => true
  | .remarks, [] => true
  | .paragraph, [.summary] => true
  | .code, [.summary] => true
  | .list _, [.summary] => true
  | .item, [.list _, .summary] => true
  | _, _ => false

/-- A line of content, which holds no tag and no part of one. -/
def Untagged (line : String) : Prop := '<' ∉ line.toList ∧ '>' ∉ line.toList

/-- The lines close all elements that are open, the inner ones first, and whatever they open where
it fits. Content stands inside an element. -/
inductive Nested : List Element → List String → Prop
  | done : Nested [] []
  | opening {e : Element} {outer : List Element} {lines : List String} (hfits : e.fits outer = true)
    (h : Nested (e :: outer) lines) : Nested outer (e.opening :: lines)
  | closing {e : Element} {outer : List Element} {lines : List String} (h : Nested outer lines) :
    Nested (e :: outer) (e.closing :: lines)
  | content {e : Element} {outer : List Element} {line : String} {lines : List String}
    (hline : Untagged line) (h : Nested (e :: outer) lines) : Nested (e :: outer) (line :: lines)

/-- Lines that leave the same elements open as before. -/
def Balanced (outer : List Element) (lines : List String) : Prop :=
  ∀ rest, Nested outer rest → Nested outer (lines ++ rest)

namespace Balanced

variable {e : Element} {outer : List Element} {lines lines' : List String}

theorem nil : Balanced outer [] := fun _ h => h

theorem append (h : Balanced outer lines) (h' : Balanced outer lines') :
    Balanced outer (lines ++ lines') := by
  intro rest hrest
  rw [List.append_assoc]
  exact h _ (h' _ hrest)

theorem flatMap {α : Type} {f : α → List String} {as : List α}
    (h : ∀ a ∈ as, Balanced outer (f a)) : Balanced outer (as.flatMap f) := by
  induction as with
  | nil => exact nil
  | cons a as ih =>
    rw [List.flatMap_cons]
    exact (h a List.mem_cons_self).append (ih fun b hb => h b (List.mem_cons_of_mem _ hb))

theorem enclose (hfits : e.fits outer = true) (h : Balanced (e :: outer) lines) :
    Balanced outer (e.enclose lines) := by
  intro rest hrest
  rw [Element.enclose, List.cons_append, List.append_assoc]
  exact .opening hfits (h _ (.closing hrest))

theorem of_untagged (h : ∀ line ∈ lines, Untagged line) : Balanced (e :: outer) lines := by
  induction lines with
  | nil => exact nil
  | cons line lines ih =>
    intro rest hrest
    have hlater := ih fun l hl => h l (List.mem_cons_of_mem _ hl)
    exact .content (h line List.mem_cons_self) (hlater rest hrest)

end Balanced

/-! ### Content without links -/

theorem answered_plain (width : Int) (n : DocNode) : Answered ⟨width, noLinks⟩ plain n :=
  fun _ _ => rfl

theorem untagged_codeLine (text : String) : Untagged (codeLine text) := by
  have hmem : ∀ c, c ∈ (codeLine text).toList → c ∈ lead.toList ∨
      c ∈ (Text.escapeMarkup text).toList := by
    intro c hc
    rw [codeLine, String.toList_ofList, Text.stripEnd, List.mem_reverse] at hc
    have hc := (List.dropWhile_sublist _).subset hc
    rwa [List.mem_reverse, String.toList_append, List.mem_append] at hc
  obtain ⟨hlt, hgt⟩ := Text.not_mem_escapeMarkup text
  constructor
  · intro h
    exact (hmem _ h).elim (by decide) hlt
  · intro h
    exact (hmem _ h).elim (by decide) hgt

theorem untagged_proseLines (width : Int) (text : String) :
    ∀ line ∈ proseLines plain width text, Untagged line := by
  have hword : ∀ c, c = '<' ∨ c = '>' →
      ¬ ∃ w ∈ (tokens text.toList).map (word plain), c ∈ w.toList := by
    rintro c hc ⟨w, hw, hmem⟩
    obtain ⟨token, -, rfl⟩ := List.mem_map.mp hw
    rw [word_plain] at hmem
    have hno := Text.not_mem_escapeMarkup (String.ofList token)
    rcases hc with rfl | rfl
    · exact hno.1 hmem
    · exact hno.2 hmem
  intro line hline
  constructor
  · intro h
    exact hword '<' (.inl rfl) ((mem_wrapWords_iff (by decide) width _).mp ⟨line, hline, h⟩)
  · intro h
    exact hword '>' (.inr rfl) ((mem_wrapWords_iff (by decide) width _).mp ⟨line, hline, h⟩)

/-- **The content of a node** holds no tag and no part of one. -/
theorem untagged_content (width : Int) (n : DocNode) :
    ∀ line ∈ content plain width n, Untagged line := by
  unfold content
  split
  · intro line hline
    obtain ⟨text, -, rfl⟩ := List.mem_map.mp hline
    exact untagged_codeLine text
  · exact untagged_proseLines width n.text

/-! ### The elements of a comment -/

section Elements

variable (width : Int) (several : Bool)

theorem balanced_item {n : DocNode} (hitem : n.isItem = true) :
    Balanced [.list n.isOrdinal, .summary] (nodeLines plain width several n) := by
  rw [nodeLines, if_pos hitem]
  exact .enclose rfl (.of_untagged (untagged_content width n))

theorem balanced_block {n : DocNode} (hitem : n.isItem = false) :
    Balanced [.summary] (nodeLines plain width several n) := by
  have hcontent {outer : List Element} {e : Element} :
      Balanced (e :: outer) (content plain width n) := .of_untagged (untagged_content width n)
  rw [nodeLines, if_neg (by simp [hitem])]
  split
  · exact .enclose rfl hcontent
  split
  · exact .enclose rfl hcontent
  · exact hcontent

theorem balanced_groupLines {g : List DocNode} (hchain : g.IsChain fun a b => a.sharesList b) :
    Balanced [.summary] (groupLines plain width several g) := by
  cases g with
  | nil => exact .nil
  | cons n ns =>
    rw [groupLines]
    by_cases hitem : n.isItem = true
    · rw [if_pos hitem]
      refine .enclose rfl (.flatMap fun m hm => ?_)
      obtain ⟨hm, hordinal⟩ := isItem_of_isChain hitem hchain m hm
      rw [← hordinal]
      exact balanced_item width several hm
    · have hitem : n.isItem = false := by simpa using hitem
      obtain rfl := eq_nil_of_isChain hitem hchain
      rw [if_neg (by simp [hitem])]
      refine .flatMap fun m hm => ?_
      obtain rfl := List.mem_singleton.mp hm
      exact balanced_block width several hitem

theorem balanced_encloseSome {e : Element} {nodes : List DocNode} {lines : List String}
    (hfits : e.fits [] = true) (h : Balanced [e] lines) :
    Balanced [] (encloseSome e nodes lines) := by
  unfold encloseSome
  split
  · exact .nil
  · exact .enclose hfits h

/-- **A comment** without links is balanced. -/
theorem balanced_comment (nodes : List DocNode) : Balanced [] (comment plain width nodes) := by
  refine .append (balanced_encloseSome rfl ?_) (balanced_encloseSome rfl ?_)
  · refine .flatMap fun g hg => balanced_groupLines width _ ?_
    exact List.isChain_of_mem_splitBy hg
  · exact .flatMap fun n _ => .of_untagged (untagged_content width n)

end Elements

theorem comment_eq_nil_iff {f : String → Option String} {width : Int} {nodes : List DocNode} :
    comment f width nodes = [] ↔ nodes = [] := by
  have hsome : ∀ {e : Element} {ns : List DocNode} {lines : List String},
      encloseSome e ns lines = [] ↔ ns = [] := by
    intro e ns lines
    unfold encloseSome Element.enclose
    split <;> simp_all
  rw [comment, List.append_eq_nil_iff, hsome, hsome]
  constructor
  · rintro ⟨hbody, hnotes⟩
    rw [List.eq_nil_iff_forall_not_mem]
    intro n hn
    rcases mem_summary_or_remarks hn with hmem | hmem
    · simp [hbody] at hmem
    · simp [hnotes] at hmem
  · rintro rfl
    exact ⟨rfl, rfl⟩

/-- Some nodes cut into maximal groups of neighbours that share a list; a node that is no item is a
group of its own. -/
structure Grouped (body : List DocNode) (groups : List (List DocNode)) : Prop where
  flatten : groups.flatten = body
  nonempty : [] ∉ groups
  shared : ∀ g ∈ groups, g.IsChain fun n m => n.sharesList m
  maximal : groups.IsChain fun g g' => ∃ hg hg', (g.getLast hg).sharesList (g'.head hg') = false

theorem grouped_splitBy (body : List DocNode) :
    Grouped body (body.splitBy DocNode.sharesList) where
  flatten := List.flatten_splitBy _ _
  nonempty := List.nil_notMem_splitBy _ _
  shared _ hg := List.isChain_of_mem_splitBy hg
  maximal := List.isChain_getLast_head_splitBy _ _

/-- **Comments are well nested and complete.** Without links a comment is written for all nodes and
every width, and it is empty only without nodes. Its lines are a summary, if a node is no note, and
then remarks, if one is. The summary holds the nodes that are no notes, one after the other in their
groups, and a group of items is one list of their type. The remarks hold what the notes say, in
order. Every element is closed, the inner ones first, and stands where it fits. What a node says
holds no tag; the lines of prose hold the tokens of its text, in order. -/
theorem docLines_nested (width : Int) (nodes : List DocNode) :
    ∃ (lines : List String) (groups : List (List DocNode)),
      (⟨width, noLinks⟩ : ProseStyle).docLines nodes = .ok lines ∧
      (lines = [] ↔ nodes = []) ∧
      Grouped (nodes.filter (!isNote ·)) groups ∧
      lines =
        encloseSome .summary (nodes.filter (!isNote ·))
          (groups.flatMap
            (groupLines plain width (severalParagraphs (nodes.filter (!isNote ·))))) ++
        encloseSome .remarks (nodes.filter isNote)
          ((nodes.filter isNote).flatMap (content plain width)) ∧
      Nested [] lines ∧
      ∀ n ∈ nodes, (∀ line ∈ content plain width n, Untagged line) ∧
        if n.kind = "code" then content plain width n = n.lines.map codeLine
        else ∃ words : List (List String), content plain width n = words.map lineOf ∧
          [] ∉ words ∧ words.flatten =
            (tokens n.text.toList).map fun token => Text.escapeMarkup (String.ofList token) := by
  have hnested := balanced_comment width nodes [] .done
  rw [List.append_nil] at hnested
  refine ⟨comment plain width nodes, _, docLines_eq fun n _ => answered_plain width n,
    comment_eq_nil_iff, grouped_splitBy _, rfl, hnested, fun n _ => ⟨untagged_content width n, ?_⟩⟩
  by_cases hcode : n.kind = "code"
  · rw [if_pos hcode, content, if_pos hcode]
  · rw [if_neg hcode, content, if_neg hcode]
    obtain ⟨words, hlines, hflat, hne⟩ :=
      exists_groups_wrapWords width ((tokens n.text.toList).map (word plain))
    refine ⟨words, hlines, hne, ?_⟩
    rw [hflat]
    exact List.map_congr_left fun token _ => word_plain token

example : (⟨40, noLinks⟩ : ProseStyle).docLines
    [{ kind := "li", text := "a < b" }, { kind := "note", text := "See [c d]." },
      { kind := "li", text := "c" }, { kind := "li", text := "d", listType := "ordinal" }] =
    .ok ["/// <summary>", "/// <list type=\"bullet\">", "/// <item><description>", "/// a &lt; b",
      "/// </description></item>", "/// <item><description>", "/// c", "/// </description></item>",
      "/// </list>", "/// <list type=\"number\">", "/// <item><description>", "/// d",
      "/// </description></item>", "/// </list>", "/// </summary>", "/// <remarks>",
      "/// See [c d].", "/// </remarks>"] := by
  rfl

end ApiSurface.Comment
