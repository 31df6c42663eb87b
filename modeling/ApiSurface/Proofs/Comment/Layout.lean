import ApiSurface.Proofs.Comment.Prose
import Mathlib.Data.List.SplitBy

/-!
# The layout of a comment

`comment` lays the lines of a comment out without a record of the list that is open: the nodes of
the summary fall into groups, and a group of list items is one list.
-/

namespace ApiSurface

/-! ### Layout -/

namespace Comment

/-- The elements of a comment. -/
inductive Element where
  | summary
  | remarks
  | paragraph
  | code
  | list (ordinal : Bool)
  | item
deriving DecidableEq

namespace Element

/-- The line that opens an element. -/
def opening : Element → String
  | .summary => "/// <summary>"
  | .remarks => "/// <remarks>"
  | .paragraph => "/// <para>"
  | .code => "/// <code>"
  | .list true => "/// <list type=\"number\">"
  | .list false => "/// <list type=\"bullet\">"
  | .item => "/// <item><description>"

/-- The line that closes an element. -/
def closing : Element → String
  | .summary => "/// </summary>"
  | .remarks => "/// </remarks>"
  | .paragraph => "/// </para>"
  | .code => "/// </code>"
  | .list _ => "/// </list>"
  | .item => "/// </description></item>"

/-- An element with some lines in it. -/
def enclose (e : Element) (lines : List String) : List String := e.opening :: (lines ++ [e.closing])

end Element

end Comment

namespace DocNode

/-- Whether a node is an item of a list. -/
def isItem (n : DocNode) : Bool := n.kind = "li"

/-- Whether the list of an item is numbered. -/
def isOrdinal (n : DocNode) : Bool := n.listType = "ordinal"

/-- Whether neighbours stand in one list: both are items, of lists of one type. -/
def sharesList (n m : DocNode) : Bool := n.isItem && m.isItem && n.isOrdinal == m.isOrdinal

/-- The targets of the links in a node; code has none. -/
def links (n : DocNode) : List String :=
  if n.kind = "code" then [] else Comment.linkTargets n.text

end DocNode

namespace Comment

section Layout

variable (f : String → Option String) (width : Int) (several : Bool)

/-- What a node says, without the element around it. -/
def content (n : DocNode) : List String :=
  if n.kind = "code" then n.lines.map codeLine else proseLines f width n.text

/-- A node of a summary in its element, if it has one. Where there are several paragraphs prose has
one as well. -/
def nodeLines (n : DocNode) : List String :=
  if n.isItem then Element.item.enclose (content f width n)
  else if n.kind = "code" then Element.code.enclose (content f width n)
  else if several then Element.paragraph.enclose (content f width n)
  else content f width n

/-- Some neighbours, in a list if they are items. -/
def groupLines : List DocNode → List String
  | [] => []
  | n :: ns =>
    if n.isItem then
      (Element.list n.isOrdinal).enclose ((n :: ns).flatMap (nodeLines f width several))
    else (n :: ns).flatMap (nodeLines f width several)

/-- Whether a summary has several paragraphs. -/
def severalParagraphs (body : List DocNode) : Bool :=
  decide (1 < (body.filter (·.kind = "text")).length)

/-- The nodes of a summary, in maximal groups of neighbours that share a list. -/
def bodyLines (body : List DocNode) : List String :=
  (body.splitBy DocNode.sharesList).flatMap (groupLines f width (severalParagraphs body))

/-- An element around what some nodes say; nothing for no nodes. -/
def encloseSome (e : Element) (nodes : List DocNode) (lines : List String) : List String :=
  if nodes = [] then [] else e.enclose lines

/-- The lines of a comment: a summary of the nodes that are no notes, and the notes as remarks. -/
def comment (nodes : List DocNode) : List String :=
  encloseSome .summary (nodes.filter (!isNote ·)) (bodyLines f width (nodes.filter (!isNote ·))) ++
    encloseSome .remarks (nodes.filter isNote) ((nodes.filter isNote).flatMap (content f width))

end Layout

/-! ### Writing the nodes of a summary -/

/-- The name of a type of list. -/
def typeName (ordinal : Bool) : String := if ordinal then "number" else "bullet"

theorem listTypeName_eq (n : DocNode) : listTypeName n.listType = typeName n.isOrdinal := by
  unfold listTypeName typeName DocNode.isOrdinal
  by_cases h : n.listType = "ordinal" <;> simp [h]

theorem endOfList_some (ordinal : Bool) :
    endOfList (some (typeName ordinal)) = [(Element.list ordinal).closing] := by
  cases ordinal <;> decide

theorem startOfList_same (ordinal : Bool) :
    startOfList (some (typeName ordinal)) (typeName ordinal) = [] :=
  if_pos rfl

theorem startOfList_none (ordinal : Bool) :
    startOfList none (typeName ordinal) = [(Element.list ordinal).opening] := by
  cases ordinal <;> decide

theorem startOfList_other {ordinal ordinal' : Bool} (h : ordinal ≠ ordinal') :
    startOfList (some (typeName ordinal)) (typeName ordinal') =
      [(Element.list ordinal).closing, (Element.list ordinal').opening] := by
  cases ordinal <;> cases ordinal'
  · exact absurd rfl h
  · decide
  · decide
  · exact absurd rfl h

section Answered

variable {f : String → Option String} {style : ProseStyle} {several : Bool}

/-- The resolver of a style gives the answers `f` for the links of a node. -/
def Answered (style : ProseStyle) (f : String → Option String) (n : DocNode) : Prop :=
  ∀ target ∈ n.links, style.links target = .ok (f target)

/-- What the resolver of a style answers; nothing where it fails. -/
def answers (style : ProseStyle) (target : String) : Option String :=
  (style.links target).toOption.getD none

theorem links_eq_answers {target : String} (h : ∃ answer, style.links target = .ok answer) :
    style.links target = .ok (answers style target) := by
  obtain ⟨answer, hanswer⟩ := h
  rw [answers, hanswer]
  rfl

theorem ne_code_of_item {n : DocNode} (h : n.kind = "li") : n.kind ≠ "code" := by
  rw [h]
  decide

theorem Answered.prose {n : DocNode} (h : Answered style f n) (hcode : n.kind ≠ "code") :
    style.prose n.text = .ok (content f style.width n) := by
  unfold content
  rw [if_neg hcode]
  refine prose_eq fun target htarget => h target ?_
  rw [DocNode.links, if_neg hcode]
  exact htarget

theorem Answered.block {n : DocNode} (h : Answered style f n) (hitem : n.isItem = false) :
    style.block several n = .ok (nodeLines f style.width several n) := by
  have hno : ¬ n.isItem = true := by simp [hitem]
  rw [ProseStyle.block, nodeLines, if_neg hno]
  by_cases hcode : n.kind = "code"
  · rw [if_pos hcode, if_pos hcode, content, if_pos hcode]
    rfl
  · rw [if_neg hcode, if_neg hcode, h.prose hcode]
    cases several <;> rfl

theorem Answered.summaryFrom_item {n : DocNode} (h : Answered style f n) (hitem : n.isItem = true)
    (openList : Option String) (ns : List DocNode) :
    style.summaryFrom several openList (n :: ns) =
      (style.summaryFrom several (some (typeName n.isOrdinal)) ns).map fun later =>
        startOfList openList (typeName n.isOrdinal) ++ nodeLines f style.width several n ++
          later := by
  have hkind : n.kind = "li" := by simpa [DocNode.isItem] using hitem
  rw [ProseStyle.summaryFrom, if_pos hkind, h.prose (ne_code_of_item hkind), listTypeName_eq,
    nodeLines, if_pos hitem]
  show (do
    let later ← style.summaryFrom several (some (typeName n.isOrdinal)) ns
    return startOfList openList (typeName n.isOrdinal) ++ [tag "<item><description>"] ++
      content f style.width n ++ [tag "</description></item>"] ++ later) = _
  cases style.summaryFrom several (some (typeName n.isOrdinal)) ns with
  | error c => rfl
  | ok later =>
    have hopening : tag "<item><description>" = Element.item.opening := by decide
    have hclosing : tag "</description></item>" = Element.item.closing := by decide
    rw [hopening, hclosing]
    simp [Except.map, pure, Except.pure, bind, Except.bind, Element.enclose]

theorem Answered.summaryFrom_other {n : DocNode} (h : Answered style f n)
    (hitem : n.isItem = false) (openList : Option String) (ns : List DocNode) :
    style.summaryFrom several openList (n :: ns) =
      (style.summaryFrom several none ns).map fun later =>
        endOfList openList ++ nodeLines f style.width several n ++ later := by
  have hkind : n.kind ≠ "li" := by simpa [DocNode.isItem] using hitem
  rw [ProseStyle.summaryFrom, if_neg hkind, h.block hitem]
  cases style.summaryFrom several none ns <;> rfl

theorem summaryFrom_run {ordinal : Bool} {run : List DocNode} (rest : List DocNode)
    (hrun : ∀ n ∈ run, n.isItem = true ∧ n.isOrdinal = ordinal)
    (hanswered : ∀ n ∈ run, Answered style f n) :
    style.summaryFrom several (some (typeName ordinal)) (run ++ rest) =
      (style.summaryFrom several (some (typeName ordinal)) rest).map fun later =>
        run.flatMap (nodeLines f style.width several) ++ later := by
  induction run with
  | nil =>
    rw [List.nil_append]
    cases style.summaryFrom several (some (typeName ordinal)) rest <;> rfl
  | cons n run ih =>
    obtain ⟨hitem, rfl⟩ := hrun n List.mem_cons_self
    have hlater := ih (fun m hm => hrun m (List.mem_cons_of_mem _ hm))
      fun m hm => hanswered m (List.mem_cons_of_mem _ hm)
    rw [List.cons_append, (hanswered n List.mem_cons_self).summaryFrom_item hitem, hlater,
      startOfList_same]
    cases style.summaryFrom several (some (typeName n.isOrdinal)) rest with
    | error c => rfl
    | ok later => simp [Except.map]

theorem summaryFrom_leave {ordinal : Bool} {rest : List DocNode}
    (hrest : ∀ n ∈ rest.head?, n.isItem = true → n.isOrdinal ≠ ordinal)
    (hanswered : ∀ n ∈ rest, Answered style f n) :
    style.summaryFrom several (some (typeName ordinal)) rest =
      (style.summaryFrom several none rest).map fun later =>
        (Element.list ordinal).closing :: later := by
  cases rest with
  | nil =>
    show Except.ok (endOfList (some (typeName ordinal))) = _
    rw [endOfList_some]
    rfl
  | cons n ns =>
    have hn := hanswered n List.mem_cons_self
    by_cases hitem : n.isItem = true
    · have hother := hrest n (by simp) hitem
      rw [hn.summaryFrom_item hitem, hn.summaryFrom_item hitem, startOfList_none,
        startOfList_other (Ne.symm hother)]
      cases style.summaryFrom several (some (typeName n.isOrdinal)) ns with
      | error c => rfl
      | ok later => simp [Except.map]
    · have hitem : n.isItem = false := by simpa using hitem
      rw [hn.summaryFrom_other hitem, hn.summaryFrom_other hitem, endOfList_some]
      cases style.summaryFrom several none ns with
      | error c => rfl
      | ok later => simp [Except.map, endOfList]

end Answered

/-! ### Groups -/

/-- In a group that starts with an item all are items of one list. -/
theorem isItem_of_isChain {n : DocNode} {ns : List DocNode} (hitem : n.isItem = true)
    (hchain : (n :: ns).IsChain fun a b => a.sharesList b) :
    ∀ m ∈ n :: ns, m.isItem = true ∧ m.isOrdinal = n.isOrdinal := by
  induction ns generalizing n with
  | nil =>
    intro m hm
    obtain rfl : m = n := by simpa using hm
    exact ⟨hitem, rfl⟩
  | cons n' ns ih =>
    obtain ⟨hshare, hchain'⟩ := List.isChain_cons_cons.mp hchain
    simp only [DocNode.sharesList, Bool.and_eq_true, beq_iff_eq] at hshare
    intro m hm
    rcases List.mem_cons.mp hm with rfl | hm
    · exact ⟨hitem, rfl⟩
    · obtain ⟨hm', hordinal⟩ := ih hshare.1.2 hchain' m hm
      exact ⟨hm', hordinal.trans hshare.2.symm⟩

theorem eq_nil_of_isChain {n : DocNode} {ns : List DocNode} (hitem : n.isItem = false)
    (hchain : (n :: ns).IsChain fun a b => a.sharesList b) : ns = [] := by
  cases ns with
  | nil => rfl
  | cons n' ns =>
    have hshare := (List.isChain_cons_cons.mp hchain).1
    simp [DocNode.sharesList, hitem] at hshare

/-- **The nodes of a summary** are written group by group. -/
theorem summaryFrom_flatten {f : String → Option String} {style : ProseStyle} {several : Bool}
    {groups : List (List DocNode)} (hne : [] ∉ groups)
    (hchain : ∀ g ∈ groups, g.IsChain fun a b => a.sharesList b)
    (hapart : groups.IsChain fun g g' => ∃ hg hg', (g.getLast hg).sharesList (g'.head hg') = false)
    (hanswered : ∀ n ∈ groups.flatten, Answered style f n) :
    style.summaryFrom several none groups.flatten =
      .ok (groups.flatMap (groupLines f style.width several)) := by
  induction groups with
  | nil => rfl
  | cons g groups ih =>
    rw [List.mem_cons, not_or] at hne
    rw [List.flatten_cons] at hanswered
    have hrest := ih hne.2 (fun g hg => hchain g (List.mem_cons_of_mem _ hg)) hapart.tail
      fun n hn => hanswered n (List.mem_append_right _ hn)
    have hg := hchain g List.mem_cons_self
    cases g with
    | nil => exact absurd rfl hne.1
    | cons n ns =>
      have hn := hanswered n (by simp)
      rw [List.flatten_cons, List.flatMap_cons, groupLines, List.cons_append]
      by_cases hitem : n.isItem = true
      · have hrun := isItem_of_isChain hitem hg
        -- what follows is no item of this list, else it would be in the group
        have hnext : ∀ m ∈ groups.flatten.head?, m.isItem = true → m.isOrdinal ≠ n.isOrdinal := by
          intro m hm hm' hsame
          cases groups with
          | nil => cases hm
          | cons g' groups =>
            obtain ⟨_, hg', hshare⟩ := (List.isChain_cons_cons.mp hapart).1
            obtain ⟨hlast, hordinal⟩ := hrun _ (List.getLast_mem (List.cons_ne_nil n ns))
            obtain ⟨m', ms, rfl⟩ := List.exists_cons_of_ne_nil hg'
            obtain rfl : m' = m := by simpa using hm
            simp [DocNode.sharesList, hlast, hm', hordinal, hsame] at hshare
        have hlist : style.summaryFrom several _ _ = _ := summaryFrom_run groups.flatten
          (fun m hm => hrun m (List.mem_cons_of_mem _ hm))
          fun m hm => hanswered m (List.mem_append_left _ (List.mem_cons_of_mem _ hm))
        rw [hn.summaryFrom_item hitem, hlist,
          summaryFrom_leave hnext fun m hm => hanswered m (List.mem_append_right _ hm), hrest,
          startOfList_none, if_pos hitem]
        simp [Except.map, Element.enclose]
      · have hitem : n.isItem = false := by simpa using hitem
        obtain rfl := eq_nil_of_isChain hitem hg
        rw [List.nil_append, hn.summaryFrom_other hitem, hrest, if_neg (by simp [hitem])]
        simp [Except.map, endOfList]

/-! ### Comments -/

section Comments

variable {f : String → Option String} {style : ProseStyle} {nodes : List DocNode}

theorem mem_summary_or_remarks {n : DocNode} (hn : n ∈ nodes) :
    n ∈ nodes.filter (!isNote ·) ∨ n ∈ nodes.filter isNote := by
  cases hnote : isNote n with
  | false => exact .inl (List.mem_filter.mpr ⟨hn, by simp [hnote]⟩)
  | true => exact .inr (List.mem_filter.mpr ⟨hn, hnote⟩)

theorem ne_code_of_isNote {n : DocNode} (h : isNote n = true) : n.kind ≠ "code" := by
  have hkind : n.kind = "note" := by simpa [isNote] using h
  rw [hkind]
  decide

theorem summary_eq (h : ∀ n ∈ nodes, Answered style f n) :
    style.summary nodes = .ok (encloseSome .summary (nodes.filter (!isNote ·))
      (bodyLines f style.width (nodes.filter (!isNote ·)))) := by
  have hbody : ∀ n ∈ nodes.filter (!isNote ·), Answered style f n :=
    fun n hn => h n (List.mem_filter.mp hn).1
  unfold ProseStyle.summary encloseSome
  generalize nodes.filter (!isNote ·) = body at hbody
  cases body with
  | nil => rfl
  | cons n ns =>
    have hgroups : ((n :: ns).splitBy DocNode.sharesList).flatten = n :: ns :=
      List.flatten_splitBy _ _
    have hlines : style.summaryFrom (decide (1 < ((n :: ns).filter (·.kind = "text")).length))
        none _ = _ :=
      summaryFrom_flatten (List.nil_notMem_splitBy DocNode.sharesList (n :: ns))
        (fun g hg => List.isChain_of_mem_splitBy hg)
        (List.isChain_getLast_head_splitBy DocNode.sharesList (n :: ns)) (hgroups.symm ▸ hbody)
    rw [hgroups] at hlines
    simp only [List.isEmpty_cons, Bool.false_eq_true, if_false, hlines, reduceCtorEq]
    rfl

theorem remarks_eq (h : ∀ n ∈ nodes, Answered style f n) :
    style.remarks nodes = .ok (encloseSome .remarks (nodes.filter isNote)
      ((nodes.filter isNote).flatMap (content f style.width))) := by
  have hnotes : ∀ n ∈ nodes.filter isNote, style.prose n.text = .ok (content f style.width n) := by
    intro n hn
    obtain ⟨hn, hnote⟩ := List.mem_filter.mp hn
    exact (h n hn).prose (ne_code_of_isNote hnote)
  unfold ProseStyle.remarks encloseSome
  generalize nodes.filter isNote = notes at hnotes
  cases notes with
  | nil => rfl
  | cons n ns =>
    have htexts : (n :: ns).mapM (fun n => style.prose n.text) =
        .ok ((n :: ns).map (content f style.width)) := mapM_eq_ok hnotes
    simp only [List.isEmpty_cons, Bool.false_eq_true, if_false, htexts, reduceCtorEq,
      List.flatMap_def]
    rfl

/-- **A comment** is laid out by its groups if the resolver answers for each link. -/
theorem docLines_eq (h : ∀ n ∈ nodes, Answered style f n) :
    style.docLines nodes = .ok (comment f style.width nodes) := by
  unfold ProseStyle.docLines
  rw [summary_eq h, remarks_eq h]
  rfl

/-! ### Comments that are not written -/

/-- The resolver answers for each link of a node. -/
def Resolved (style : ProseStyle) (n : DocNode) : Prop :=
  ∀ target ∈ n.links, ∃ answer, style.links target = .ok answer

theorem resolved_of_ok {n : DocNode} {lines : List String} (hcode : n.kind ≠ "code")
    (h : style.prose n.text = .ok lines) : Resolved style n := by
  unfold Resolved
  rw [DocNode.links, if_neg hcode]
  exact resolved_of_prose h

theorem resolved_of_block {several : Bool} {n : DocNode} {lines : List String}
    (h : style.block several n = .ok lines) : Resolved style n := by
  unfold ProseStyle.block at h
  by_cases hcode : n.kind = "code"
  · simp [Resolved, DocNode.links, hcode]
  rw [if_neg hcode] at h
  cases several with
  | true =>
    obtain ⟨own, hown, -⟩ := exists_ok_of_bind h
    exact resolved_of_ok hcode hown
  | false => exact resolved_of_ok hcode h

theorem resolved_of_summaryFrom {several : Bool} {openList : Option String} {ns : List DocNode}
    {lines : List String} (h : style.summaryFrom several openList ns = .ok lines) :
    ∀ n ∈ ns, Resolved style n := by
  induction ns generalizing openList lines with
  | nil => simp
  | cons n ns ih =>
    rw [ProseStyle.summaryFrom] at h
    rw [List.forall_mem_cons]
    by_cases hkind : n.kind = "li"
    · rw [if_pos hkind] at h
      obtain ⟨own, hown, hrest⟩ := exists_ok_of_bind h
      obtain ⟨later, hlater, -⟩ := exists_ok_of_bind hrest
      exact ⟨resolved_of_ok (ne_code_of_item hkind) hown, ih hlater⟩
    · rw [if_neg hkind] at h
      obtain ⟨own, hown, hrest⟩ := exists_ok_of_bind h
      obtain ⟨later, hlater, -⟩ := exists_ok_of_bind hrest
      exact ⟨resolved_of_block hown, ih hlater⟩

theorem resolved_of_summary {lines : List String} (h : style.summary nodes = .ok lines) :
    ∀ n ∈ nodes.filter (!isNote ·), Resolved style n := by
  unfold ProseStyle.summary at h
  intro n hn
  rw [if_neg (by simpa using List.ne_nil_of_mem hn)] at h
  obtain ⟨own, hown, -⟩ := exists_ok_of_bind h
  exact resolved_of_summaryFrom hown n hn

theorem resolved_of_remarks {lines : List String} (h : style.remarks nodes = .ok lines) :
    ∀ n ∈ nodes.filter isNote, Resolved style n := by
  unfold ProseStyle.remarks at h
  intro n hn
  rw [if_neg (by simpa using List.ne_nil_of_mem hn)] at h
  obtain ⟨texts, htexts, -⟩ := exists_ok_of_bind h
  obtain ⟨own, hown⟩ := exists_ok_of_mapM htexts n hn
  exact resolved_of_ok (ne_code_of_isNote (List.mem_filter.mp hn).2) hown

/-- **A comment is written** if and only if the resolver answers for each of its links. -/
theorem docLines_ok_iff : (∃ lines, style.docLines nodes = .ok lines) ↔
    ∀ n ∈ nodes, ∀ target ∈ n.links, ∃ answer, style.links target = .ok answer := by
  constructor
  · rintro ⟨lines, h⟩ n hn
    obtain ⟨summary, hsummary, hrest⟩ := exists_ok_of_bind h
    obtain ⟨remarks, hremarks, -⟩ := exists_ok_of_bind hrest
    rcases mem_summary_or_remarks hn with hbody | hnotes
    · exact resolved_of_summary hsummary n hbody
    · exact resolved_of_remarks hremarks n hnotes
  · intro h
    exact ⟨_, docLines_eq fun n hn target htarget => links_eq_answers (h n hn target htarget)⟩

/-- **A comment that is written** has an answer for each link. -/
theorem answered_of_docLines {lines : List String} (h : style.docLines nodes = .ok lines) :
    ∀ n ∈ nodes, Answered style (answers style) n :=
  fun n hn target htarget =>
    links_eq_answers (docLines_ok_iff.mp ⟨lines, h⟩ n hn target htarget)

end Comments

/-! ### What stands in a comment -/

section Lines

variable {f : String → Option String} {width : Int} {several : Bool} {line : String}

theorem Element.mem_enclose {e : Element} {lines : List String} :
    line ∈ e.enclose lines ↔ line = e.opening ∨ line ∈ lines ∨ line = e.closing := by
  simp [Element.enclose]

/-- A line is that of a tag, or it is content of one of some nodes. -/
def TagOrContent (f : String → Option String) (width : Int) (nodes : List DocNode)
    (line : String) : Prop :=
  (∃ e : Element, line = e.opening ∨ line = e.closing) ∨ ∃ n ∈ nodes, line ∈ content f width n

theorem TagOrContent.of_enclose {nodes : List DocNode} {e : Element} {lines : List String}
    (h : line ∈ e.enclose lines) (hlines : line ∈ lines → TagOrContent f width nodes line) :
    TagOrContent f width nodes line := by
  rcases Element.mem_enclose.mp h with h | h | h
  · exact .inl ⟨e, .inl h⟩
  · exact hlines h
  · exact .inl ⟨e, .inr h⟩

theorem mem_nodeLines {n : DocNode} (h : line ∈ nodeLines f width several n) :
    TagOrContent f width [n] line := by
  have hcontent : line ∈ content f width n → TagOrContent f width [n] line :=
    fun h => .inr ⟨n, by simp, h⟩
  unfold nodeLines at h
  split at h
  · exact .of_enclose h hcontent
  split at h
  · exact .of_enclose h hcontent
  split at h
  · exact .of_enclose h hcontent
  · exact hcontent h

theorem mem_nodeLines_of_content {n : DocNode} (h : line ∈ content f width n) :
    line ∈ nodeLines f width several n := by
  unfold nodeLines
  split
  · exact Element.mem_enclose.mpr (.inr (.inl h))
  split
  · exact Element.mem_enclose.mpr (.inr (.inl h))
  split
  · exact Element.mem_enclose.mpr (.inr (.inl h))
  · exact h

theorem mem_groupLines {g : List DocNode} (h : line ∈ groupLines f width several g) :
    TagOrContent f width g line := by
  have hnodes : line ∈ g.flatMap (nodeLines f width several) → TagOrContent f width g line := by
    intro h
    obtain ⟨n, hn, hline⟩ := List.mem_flatMap.mp h
    rcases mem_nodeLines hline with htag | ⟨m, hm, hcontent⟩
    · exact .inl htag
    · obtain rfl : m = n := by simpa using hm
      exact .inr ⟨m, hn, hcontent⟩
  cases g with
  | nil => cases h
  | cons n ns =>
    rw [groupLines] at h
    split at h
    · exact .of_enclose h hnodes
    · exact hnodes h

theorem mem_groupLines_of_content {g : List DocNode} {n : DocNode} (hn : n ∈ g)
    (h : line ∈ content f width n) : line ∈ groupLines f width several g := by
  have hnodes : line ∈ g.flatMap (nodeLines f width several) :=
    List.mem_flatMap.mpr ⟨n, hn, mem_nodeLines_of_content h⟩
  cases g with
  | nil => cases hn
  | cons m ms =>
    rw [groupLines]
    split
    · exact Element.mem_enclose.mpr (.inr (.inl hnodes))
    · exact hnodes

theorem mem_bodyLines {body : List DocNode} (h : line ∈ bodyLines f width body) :
    TagOrContent f width body line := by
  obtain ⟨g, hg, hline⟩ := List.mem_flatMap.mp h
  rcases mem_groupLines hline with htag | ⟨n, hn, hline⟩
  · exact .inl htag
  · refine .inr ⟨n, ?_, hline⟩
    rw [← List.flatten_splitBy DocNode.sharesList body]
    exact List.mem_flatten.mpr ⟨g, hg, hn⟩

theorem mem_bodyLines_of_content {body : List DocNode} {n : DocNode} (hn : n ∈ body)
    (h : line ∈ content f width n) : line ∈ bodyLines f width body := by
  rw [← List.flatten_splitBy DocNode.sharesList body] at hn
  obtain ⟨g, hg, hn⟩ := List.mem_flatten.mp hn
  exact List.mem_flatMap.mpr ⟨g, hg, mem_groupLines_of_content hn h⟩

/-- **A line of a comment** is that of a tag, or content of a node. -/
theorem mem_comment {nodes : List DocNode} (h : line ∈ comment f width nodes) :
    TagOrContent f width nodes line := by
  have hsome : ∀ {e : Element} {ns : List DocNode} {lines : List String},
      line ∈ encloseSome e ns lines → line ∈ e.enclose lines := by
    intro e ns lines h
    unfold encloseSome at h
    split at h
    · cases h
    · exact h
  rcases List.mem_append.mp h with h | h
  · refine .of_enclose (hsome h) fun h => ?_
    rcases mem_bodyLines h with htag | ⟨n, hn, hline⟩
    · exact .inl htag
    · exact .inr ⟨n, (List.mem_filter.mp hn).1, hline⟩
  · refine .of_enclose (hsome h) fun h => ?_
    obtain ⟨n, hn, hline⟩ := List.mem_flatMap.mp h
    exact .inr ⟨n, (List.mem_filter.mp hn).1, hline⟩

/-- **The content of every node** stands in the comment. -/
theorem mem_comment_of_content {nodes : List DocNode} {n : DocNode} (hn : n ∈ nodes)
    (h : line ∈ content f width n) : line ∈ comment f width nodes := by
  have hsome : ∀ {e : Element} {ns : List DocNode} {lines : List String}, n ∈ ns → line ∈ lines →
      line ∈ encloseSome e ns lines := by
    intro e ns lines hn hline
    rw [encloseSome, if_neg (List.ne_nil_of_mem hn)]
    exact Element.mem_enclose.mpr (.inr (.inl hline))
  rcases mem_summary_or_remarks hn with hbody | hnotes
  · exact List.mem_append_left _ (hsome hbody (mem_bodyLines_of_content hbody h))
  · exact List.mem_append_right _ (hsome hnotes (List.mem_flatMap.mpr ⟨n, hnotes, h⟩))

end Lines

end Comment

end ApiSurface
