import ApiSurface.Comment.Block
import ApiSurface.Proofs.Comment.Span
import ApiSurface.Proofs.Fallible
import ApiSurface.Proofs.Text.Escape

/-!
# Prose and its links

Prose is cut into tokens, and its links are the links of its tokens. If the resolver answers for
each of them, and `f` is what it answers, the prose is written as `proseLines f`; if it fails for
one, the prose is not written.
-/

namespace ApiSurface

namespace Comment

/-! ### Links and words -/

/-- The target of a piece that is a link. -/
def Piece.target? : Piece → Option String
  | .char _ => none
  | .link target => some (String.ofList target)

/-- The targets of the links in prose, in order. -/
def linkTargets (text : String) : List String :=
  (tokens text.toList).flatMap fun token => (pieces token).filterMap Piece.target?

/-- A piece of a token as it is written. -/
def Piece.source : Piece → List Char
  | .char c => [c]
  | .link target => '[' :: target ++ [']']

section Words

variable (f : String → Option String)

/-- A piece of a token as markup, with `f` for what links come to. -/
def Piece.markup : Piece → String
  | .char c => Text.escapeMarkup (String.singleton c)
  | .link target =>
    (f (String.ofList target)).getD (Text.escapeMarkup (String.ofList ('[' :: target ++ [']'])))

/-- Pieces of a token as markup. -/
def markupOf : List Piece → String
  | [] => ""
  | p :: ps => p.markup f ++ markupOf ps

/-- The word that a token becomes. -/
def word (token : List Char) : String := markupOf f (pieces token)

/-- The comment lines of prose. -/
def proseLines (width : Int) (text : String) : List String :=
  wrapWords width ((tokens text.toList).map (word f))

variable {f} {links : LinkResolver}

theorem renderPieces_eq {ps : List Piece}
    (h : ∀ target ∈ ps.filterMap Piece.target?, links target = .ok (f target)) :
    renderPieces links ps = .ok (markupOf f ps) := by
  induction ps with
  | nil => rfl
  | cons p ps ih =>
    have hp : p.render links = .ok (p.markup f) := by
      cases p with
      | char c => rfl
      | link target =>
        have htarget := h (String.ofList target) (by simp [Piece.target?])
        simp only [Piece.render, htarget, Piece.markup]
        cases f (String.ofList target) <;> rfl
    have hps : renderPieces links ps = .ok (markupOf f ps) := by
      refine ih fun target htarget => h target ?_
      rw [List.filterMap_cons]
      cases p.target? with
      | none => exact htarget
      | some _ => exact List.mem_cons_of_mem _ htarget
    rw [renderPieces, hp, hps]
    rfl

theorem resolved_of_renderPieces {ps : List Piece} {markup : String}
    (h : renderPieces links ps = .ok markup) :
    ∀ target ∈ ps.filterMap Piece.target?, ∃ answer, links target = .ok answer := by
  induction ps generalizing markup with
  | nil => simp
  | cons p ps ih =>
    obtain ⟨first, hp, hrest⟩ := exists_ok_of_bind h
    obtain ⟨later, hps, -⟩ := exists_ok_of_bind hrest
    intro target htarget
    cases p with
    | char c => exact ih hps target htarget
    | link t =>
      rcases List.mem_cons.mp htarget with rfl | htarget
      · obtain ⟨answer, hanswer, -⟩ := exists_ok_of_bind hp
        exact ⟨answer, hanswer⟩
      · exact ih hps target htarget

/-- **Prose is written** if the resolver answers for each of its links. -/
theorem prose_eq {style : ProseStyle} {text : String}
    (h : ∀ target ∈ linkTargets text, style.links target = .ok (f target)) :
    style.prose text = .ok (proseLines f style.width text) := by
  have hwords : words style.links text = .ok ((tokens text.toList).map (word f)) :=
    mapM_eq_ok fun token htoken => renderPieces_eq fun target htarget =>
      h target (List.mem_flatMap.mpr ⟨token, htoken, htarget⟩)
  unfold ProseStyle.prose wrap
  rw [hwords]
  rfl

/-- **The resolver answers** for each link of prose that is written. -/
theorem resolved_of_prose {style : ProseStyle} {text : String} {lines : List String}
    (h : style.prose text = .ok lines) :
    ∀ target ∈ linkTargets text, ∃ answer, style.links target = .ok answer := by
  obtain ⟨ws, hwords, -⟩ := exists_ok_of_bind h
  intro target htarget
  obtain ⟨token, htoken, htarget⟩ := List.mem_flatMap.mp htarget
  obtain ⟨w, hw⟩ := exists_ok_of_mapM hwords token htoken
  exact resolved_of_renderPieces hw target htarget

end Words

/-! ### Pieces and their text -/

theorem source_piecesFrom (cs : List Char) :
    (piecesFrom none cs).flatMap Piece.source = cs ∧
      ∀ target, ']' ∈ cs → (piecesFrom (some target) cs).flatMap Piece.source =
        '[' :: target.reverse ++ cs := by
  induction cs with
  | nil => exact ⟨rfl, fun _ h => nomatch h⟩
  | cons c cs ih =>
    obtain ⟨houtside, hinside⟩ := ih
    constructor
    · rw [piecesFrom]
      by_cases hopen : (c = '[' && opensLink cs) = true
      · rw [if_pos hopen]
        obtain ⟨hc, hlink⟩ := Bool.and_eq_true_iff.mp hopen
        obtain rfl : c = '[' := by simpa using hc
        rw [hinside [] (close_mem_of_opensLink hlink)]
        rfl
      · rw [if_neg hopen, List.flatMap_cons, houtside]
        rfl
    · intro target hclose
      rw [piecesFrom]
      by_cases hc : c = ']'
      · rw [if_pos hc, List.flatMap_cons, houtside, hc]
        simp [Piece.source]
      · rw [if_neg hc, hinside]
        · simp
        · exact (List.mem_cons.mp hclose).resolve_left (Ne.symm hc)

/-- **The pieces of a token** are the token. -/
theorem source_pieces (token : List Char) : (pieces token).flatMap Piece.source = token :=
  (source_piecesFrom token).1

/-- The answers of a resolver that resolves nothing. -/
def plain : String → Option String := fun _ => none

/-- **Without a resolver** a word is its token, escaped. -/
theorem word_plain (token : List Char) :
    word plain token = Text.escapeMarkup (String.ofList token) := by
  have hpieces : ∀ ps : List Piece, markupOf plain ps =
      Text.escapeMarkup (String.ofList (ps.flatMap Piece.source)) := by
    intro ps
    induction ps with
    | nil => rfl
    | cons p ps ih =>
      rw [markupOf, ih, List.flatMap_cons, String.ofList_append, Text.escapeMarkup_append]
      cases p with
      | char c => rfl
      | link target => rfl
  unfold word
  rw [hpieces, source_pieces]

/-! ### Lines of words -/

/-- The comment line that holds some words. -/
def lineOf (ws : List String) : String := lead ++ " ".intercalate ws

/-- Lines of several words keep to a width; a line of one word may be wider. -/
def Within (width : Int) (groups : List (List String)) : Prop :=
  ∀ g ∈ groups, 2 ≤ g.length → ((lineOf g).length : Int) ≤ width

/-- A division of words into lines that are as full as the width allows. -/
structure Packed (width : Int) (ws : List String) (groups : List (List String)) : Prop where
  flatten : groups.flatten = ws
  nonempty : [] ∉ groups
  within : Within width groups
  /-- The first word of a line would have been too much for the line before it. -/
  full : groups.IsChain fun g g' =>
    ∃ w, g'.head? = some w ∧ width < ((lineOf (g ++ [w])).length : Int)

theorem within_singleton (width : Int) (w : String) : Within width [[w]] := by
  intro g hg htwo
  obtain rfl := List.mem_singleton.mp hg
  exact absurd htwo (Nat.not_le_of_lt Nat.one_lt_two)

theorem lineOf_singleton (w : String) : lineOf [w] = lead ++ w := by
  simp [lineOf]

theorem lineOf_append {g g' : List String} (hg : g ≠ []) (hg' : g' ≠ []) :
    lineOf (g ++ g') = lineOf g ++ " " ++ " ".intercalate g' := by
  unfold lineOf
  rw [String.intercalate_append_of_ne_nil hg hg']
  simp only [String.append_assoc]

theorem lineOf_concat {g : List String} (hg : g ≠ []) (w : String) :
    lineOf (g ++ [w]) = lineOf g ++ " " ++ w := by
  rw [lineOf_append hg (List.cons_ne_nil w []), String.intercalate_singleton]

theorem length_lineOf_concat {g : List String} (hg : g ≠ []) (w : String) :
    (lineOf (g ++ [w])).length = (lineOf g).length + 1 + w.length := by
  rw [lineOf_concat hg, String.length_append, String.length_append]
  rfl

theorem head_of_flatten {groups : List (List String)} {w : String} {ws : List String}
    (hflat : groups.flatten = w :: ws) (hne : [] ∉ groups) :
    ∃ more later, groups = (w :: more) :: later := by
  cases groups with
  | nil => cases hflat
  | cons g later =>
    cases g with
    | nil => exact absurd List.mem_cons_self hne
    | cons w' more =>
      obtain ⟨rfl, -⟩ := List.cons.inj hflat
      exact ⟨more, later, rfl⟩

/-- **The lines that follow a line that has been begun** are packed, if that line keeps to the
width. -/
theorem packed_wrapFrom {width : Int} (ws : List String) {group : List String} (hgroup : group ≠ [])
    (hwithin : Within width [group]) :
    ∃ groups, wrapFrom width (lineOf group) ws = groups.map lineOf ∧
      Packed width (group ++ ws) groups := by
  induction ws generalizing group with
  | nil =>
    refine ⟨[group], rfl, by simp, ?_, hwithin, List.IsChain.singleton group⟩
    simpa using Ne.symm hgroup
  | cons w ws ih =>
    have hlength := length_lineOf_concat hgroup w
    rw [wrapFrom]
    by_cases hfits : ((lineOf group).length : Int) + 1 + w.length ≤ width
    · rw [if_pos hfits, ← lineOf_concat hgroup]
      have hwithin' : Within width [group ++ [w]] := by
        intro g hg _
        obtain rfl := List.mem_singleton.mp hg
        omega
      obtain ⟨groups, hlines, hpacked⟩ := ih (by simp) hwithin'
      rw [List.append_assoc, List.singleton_append] at hpacked
      exact ⟨groups, hlines, hpacked⟩
    · rw [if_neg hfits, ← lineOf_singleton]
      obtain ⟨groups, hlines, hpacked⟩ := ih (List.cons_ne_nil w []) (within_singleton width w)
      rw [List.singleton_append] at hpacked
      -- the line that is begun now starts with the word that was too much
      obtain ⟨more, later, rfl⟩ := head_of_flatten hpacked.flatten hpacked.nonempty
      have hfull : width < ((lineOf (group ++ [w])).length : Int) := by omega
      refine ⟨group :: (w :: more) :: later, by rw [hlines]; rfl, ?_, ?_, ?_, ?_⟩
      · rw [List.flatten_cons, hpacked.flatten]
      · rw [List.mem_cons, not_or]
        exact ⟨Ne.symm hgroup, hpacked.nonempty⟩
      · intro g hg
        rcases List.mem_cons.mp hg with rfl | hg
        · exact hwithin g (List.mem_singleton_self g)
        · exact hpacked.within g hg
      · exact List.isChain_cons_cons.mpr ⟨⟨w, rfl, hfull⟩, hpacked.full⟩

/-- **The lines of words** are packed. -/
theorem packed_wrapWords (width : Int) (ws : List String) :
    ∃ groups, wrapWords width ws = groups.map lineOf ∧ Packed width ws groups := by
  cases ws with
  | nil => exact ⟨[], rfl, rfl, List.not_mem_nil, nofun, List.IsChain.nil⟩
  | cons w ws =>
    rw [wrapWords, ← lineOf_singleton]
    exact packed_wrapFrom ws (List.cons_ne_nil w []) (within_singleton width w)

/-- **The lines of words**: each holds some of them, none is lost, and they keep their order. -/
theorem exists_groups_wrapWords (width : Int) (ws : List String) :
    ∃ groups : List (List String), wrapWords width ws = groups.map lineOf ∧
      groups.flatten = ws ∧ [] ∉ groups := by
  obtain ⟨groups, hlines, hpacked⟩ := packed_wrapWords width ws
  exact ⟨groups, hlines, hpacked.flatten, hpacked.nonempty⟩

theorem mem_intercalate {c : Char} {ws : List String} (h : c ∈ (" ".intercalate ws).toList) :
    c = ' ' ∨ ∃ w ∈ ws, c ∈ w.toList := by
  induction ws with
  | nil => simp at h
  | cons w ws ih =>
    cases ws with
    | nil => exact .inr ⟨w, by simp, by simpa using h⟩
    | cons w' ws =>
      rw [String.intercalate_cons_cons] at h
      simp only [String.toList_append, List.mem_append] at h
      rcases h with (h | h) | h
      · exact .inr ⟨w, by simp, h⟩
      · exact .inl (by simpa using h)
      · rcases ih h with h | ⟨w'', hw, hc⟩
        · exact .inl h
        · exact .inr ⟨w'', List.mem_cons_of_mem _ hw, hc⟩

theorem mem_intercalate_of_mem {c : Char} {ws : List String} {w : String} (hw : w ∈ ws)
    (hc : c ∈ w.toList) : c ∈ (" ".intercalate ws).toList := by
  induction ws with
  | nil => cases hw
  | cons w' ws ih =>
    cases ws with
    | nil =>
      obtain rfl : w = w' := by simpa using hw
      simpa using hc
    | cons w'' ws =>
      rw [String.intercalate_cons_cons]
      simp only [String.toList_append, List.mem_append]
      rcases List.mem_cons.mp hw with rfl | hw
      · exact .inl (.inl hc)
      · exact .inr (ih hw)

/-- **What stands on the lines of words** and is not of the lead stands in the words. -/
theorem mem_wrapWords_iff {c : Char} (hlead : c ∉ lead.toList) (width : Int) (ws : List String) :
    (∃ line ∈ wrapWords width ws, c ∈ line.toList) ↔ ∃ w ∈ ws, c ∈ w.toList := by
  have hblank : c ≠ ' ' := by
    rintro rfl
    exact hlead (by decide)
  obtain ⟨groups, hlines, hflat, -⟩ := exists_groups_wrapWords width ws
  rw [hlines]
  constructor
  · rintro ⟨line, hline, hc⟩
    obtain ⟨group, hgroup, rfl⟩ := List.mem_map.mp hline
    rw [lineOf, String.toList_append, List.mem_append] at hc
    obtain ⟨w, hw, hc⟩ := (mem_intercalate (hc.resolve_left hlead)).resolve_left hblank
    exact ⟨w, hflat ▸ List.mem_flatten.mpr ⟨group, hgroup, hw⟩, hc⟩
  · rintro ⟨w, hw, hc⟩
    obtain ⟨group, hgroup, hw⟩ := List.mem_flatten.mp (hflat ▸ hw)
    refine ⟨lineOf group, List.mem_map.mpr ⟨group, hgroup, rfl⟩, ?_⟩
    rw [lineOf, String.toList_append, List.mem_append]
    exact .inr (mem_intercalate_of_mem hw hc)

end Comment

end ApiSurface
