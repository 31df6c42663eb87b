import ApiSurface.Proofs.Comment.Prose

/-!
# Tokens and the links in them

Prose is cut into tokens before anyone looks for links, and links are then looked for in each token
by itself.  Nothing is lost by it: the links of the tokens are those of the whole prose.
-/

namespace ApiSurface.Comment

open Text

/-! ### Links from the left -/

/-- A text that starts with a link: its target, which is not empty and ends at the next `]`, and what
comes behind it. -/
structure LinkAt (target rest cs : List Char) : Prop where
  text_eq : cs = '[' :: target ++ ']' :: rest
  ne_nil : target ≠ []
  isNext : ']' ∉ target

/-- **Looking for links from the left.**  A link is passed over as a whole, and any other character
by itself. -/
inductive Scans : List Char → List Piece → Prop
  | done : Scans [] []
  | link {target rest cs : List Char} {ps : List Piece} (h : LinkAt target rest cs)
    (hrest : Scans rest ps) : Scans cs (.link target :: ps)
  | char {c : Char} {cs : List Char} {ps : List Piece}
    (hno : ∀ target rest, ¬ LinkAt target rest (c :: cs)) (hrest : Scans cs ps) :
    Scans (c :: cs) (.char c :: ps)

theorem piecesFrom_target {left : List Char} (h : ']' ∉ left) (target rest : List Char) :
    piecesFrom (some target) (left ++ ']' :: rest) =
      .link (target.reverse ++ left) :: piecesFrom none rest := by
  induction left generalizing target with
  | nil => rw [List.nil_append, piecesFrom_close, List.append_nil]
  | cons c left ih =>
    obtain ⟨hc, hleft⟩ := not_or.mp (mt List.mem_cons.mpr h)
    rw [List.cons_append, piecesFrom_inside (Ne.symm hc), ih hleft]
    simp

theorem opensLink_iff {cs : List Char} :
    opensLink cs = true ↔ ∃ target rest, LinkAt target rest ('[' :: cs) := by
  constructor
  · intro h
    obtain ⟨target, rest, hcs, hnext⟩ := List.eq_append_cons_of_mem (close_mem_of_opensLink h)
    refine ⟨target, rest, by rw [hcs]; rfl, ?_, hnext⟩
    rintro rfl
    rw [hcs] at h
    simp [opensLink] at h
  · rintro ⟨target, rest, htext, hne, hnext⟩
    obtain ⟨-, rfl⟩ := List.cons.inj htext
    cases target with
    | nil => exact absurd rfl hne
    | cons c target =>
      have hc : c ≠ ']' := fun hc => hnext (hc ▸ List.mem_cons_self)
      simp [opensLink, hc]

theorem pieces_of_linkAt {target rest cs : List Char} (h : LinkAt target rest cs) :
    pieces cs = .link target :: pieces rest := by
  have hopen : opensLink (target ++ ']' :: rest) = true :=
    opensLink_iff.mpr ⟨target, rest, rfl, h.ne_nil, h.isNext⟩
  rw [h.text_eq]
  exact (piecesFrom_open hopen).trans (piecesFrom_target h.isNext [] rest)

theorem pieces_of_not_linkAt {c : Char} {cs : List Char}
    (h : ∀ target rest, ¬ LinkAt target rest (c :: cs)) :
    pieces (c :: cs) = .char c :: pieces cs := by
  apply piecesFrom_plain
  by_cases hc : c = '['
  · subst hc
    refine .inr (eq_false_of_ne_true fun hopen => ?_)
    obtain ⟨target, rest, hlink⟩ := opensLink_iff.mp hopen
    exact h target rest hlink
  · exact .inl hc

theorem scans_pieces (cs : List Char) : Scans cs (pieces cs) := by
  cases cs with
  | nil => exact .done
  | cons c cs =>
    by_cases h : ∃ target rest, LinkAt target rest (c :: cs)
    · obtain ⟨target, rest, h⟩ := h
      rw [pieces_of_linkAt h]
      exact .link h (scans_pieces rest)
    · have hno : ∀ target rest, ¬ LinkAt target rest (c :: cs) :=
        fun target rest hlink => h ⟨target, rest, hlink⟩
      rw [pieces_of_not_linkAt hno]
      exact .char hno (scans_pieces cs)
termination_by cs.length
decreasing_by
  · have hlength := congrArg List.length h.text_eq
    simp at hlength
    simp
    omega
  · simp

/-- **The pieces of a text** are what is found when links are looked for from the left. -/
theorem scans_iff {cs : List Char} {ps : List Piece} : Scans cs ps ↔ ps = pieces cs := by
  constructor
  · intro h
    induction h with
    | done => rfl
    | link h _ ih => rw [pieces_of_linkAt h, ih]
    | char hno _ ih => rw [pieces_of_not_linkAt hno, ih]
  · rintro rfl
    exact scans_pieces cs

/-! ### Blanks -/

/-- A place in a text, between a `[` and the next `]`. -/
def InSpan (before after : List Char) : Prop :=
  ∃ outer left right rest, before = outer ++ '[' :: left ∧ after = right ++ ']' :: rest ∧
    ']' ∉ left ∧ ']' ∉ right

theorem LinkAt.inSpan_or {target rest cs before after : List Char} {c : Char}
    (h : LinkAt target rest cs) (hcs : cs = before ++ c :: after) (hopen : c ≠ '[')
    (hclose : c ≠ ']') : InSpan before after ∨
      ∃ gap, before = '[' :: target ++ ']' :: gap ∧ rest = gap ++ c :: after := by
  have hsplit : ('[' :: target) ++ ']' :: rest = before ++ c :: after := h.text_eq.symm.trans hcs
  rcases List.append_eq_append_iff.mp hsplit with ⟨gap, hbefore, hrest⟩ | ⟨gap, hlink, hafter⟩
  · cases gap with
    | nil => exact absurd (List.cons.inj hrest).1.symm hclose
    | cons d gap =>
      obtain ⟨rfl, hbehind⟩ := List.cons.inj hrest
      exact .inr ⟨gap, hbefore, hbehind⟩
  · cases gap with
    | nil => exact absurd (List.cons.inj hafter).1 hclose
    | cons d right =>
      obtain ⟨rfl, hright⟩ := List.cons.inj hafter
      cases before with
      | nil => exact absurd (List.cons.inj hlink).1.symm hopen
      | cons b left =>
        obtain ⟨rfl, htarget⟩ := List.cons.inj hlink
        have hno : ']' ∉ left ++ c :: right := fun hmem => h.isNext (htarget ▸ hmem)
        simp only [List.mem_append, List.mem_cons, not_or] at hno
        exact .inl ⟨[], left, right, rest, rfl, hright, hno.1, hno.2.2⟩

/-- Where no blank stands by itself, every blank is in a link. -/
theorem Scans.inSpan {cs : List Char} {ps : List Piece} (h : Scans cs ps)
    (hsolid : ∀ c, .char c ∈ ps → isBlank c = false) {before after : List Char} {c : Char}
    (hcs : cs = before ++ c :: after) (hc : isBlank c = true) : InSpan before after := by
  induction h generalizing before with
  | done => simp at hcs
  | @char d cs ps _ _ ih =>
    have hd : isBlank d = false := hsolid d List.mem_cons_self
    cases before with
    | nil =>
      obtain ⟨rfl, -⟩ := List.cons.inj hcs
      rw [hc] at hd
      cases hd
    | cons b before =>
      obtain ⟨-, hcs⟩ := List.cons.inj hcs
      obtain ⟨outer, left, right, rest, hbefore, hspan⟩ :=
        ih (fun e he => hsolid e (List.mem_cons_of_mem _ he)) hcs
      exact ⟨b :: outer, left, right, rest, by rw [hbefore]; rfl, hspan⟩
  | @link target rest cs ps hlink _ ih =>
    have hbracket : c ≠ '[' ∧ c ≠ ']' := by
      constructor <;> rintro rfl <;> revert hc <;> decide
    rcases hlink.inSpan_or hcs hbracket.1 hbracket.2 with hspan | ⟨gap, hbefore, hrest⟩
    · exact hspan
    · obtain ⟨outer, left, right, rest', hgap, hspan⟩ :=
        ih (fun e he => hsolid e (List.mem_cons_of_mem _ he)) hrest
      refine ⟨'[' :: target ++ ']' :: outer, left, right, rest', ?_, hspan⟩
      rw [hbefore, hgap]
      simp

/-- **A blank of a token** stands between a `[` and the next `]`. -/
theorem inSpan_of_isBlank {text token : List Char} (htoken : token ∈ tokens text)
    {before after : List Char} {c : Char} (h : token = before ++ c :: after)
    (hc : isBlank c = true) : InSpan before after :=
  (scans_pieces token).inSpan (fun _ => not_isBlank_of_char_mem htoken) h hc

/-! ### Tokens -/

theorem map_markedFrom (inSpan : Bool) (cs : List Char) :
    (markedFrom inSpan cs).map (·.1) = cs := by
  induction cs generalizing inSpan with
  | nil => cases inSpan <;> rfl
  | cons c cs ih => cases inSpan <;> simp [markedFrom, ih]

/-- Only blanks belong to no token. -/
theorem isBlank_of_mem_markedFrom {inSpan : Bool} {cs : List Char} {m : Char × Bool}
    (h : m ∈ markedFrom inSpan cs) (hm : m.2 = false) : isBlank m.1 = true := by
  induction cs generalizing inSpan with
  | nil => cases inSpan <;> cases h
  | cons c cs ih =>
    cases inSpan with
    | true =>
      rcases List.mem_cons.mp h with rfl | h
      · cases hm
      · exact ih h
    | false =>
      rcases List.mem_cons.mp h with rfl | h
      · simpa using hm
      · exact ih h

/-- **A text is its tokens**, with blanks around them. -/
theorem exists_cutAt_tokens (text : List Char) :
    ∃ front gaps, CutAt (fun c => isBlank c = true) text (tokens text) front gaps := by
  have hruns : ∃ front gaps, CutAt (fun m : Char × Bool => isBlank m.1 = true)
      (markedFrom false text) (runs (·.2) (markedFrom false text)) front gaps :=
    exists_cutAt_runs fun _ => isBlank_of_mem_markedFrom
  obtain ⟨front, gaps, hcut⟩ := hruns
  have htokens : CutAt (fun c => isBlank c = true) ((markedFrom false text).map (·.1))
      (tokens text) (front.map (·.1)) (gaps.map (·.map (·.1))) :=
    hcut.map Prod.fst fun _ h => h
  rw [map_markedFrom] at htokens
  exact ⟨_, _, htokens⟩

theorem ne_nil_of_mem_tokens {text token : List Char} (h : token ∈ tokens text) : token ≠ [] := by
  obtain ⟨run, hrun, rfl⟩ := List.mem_map.mp h
  have hne := ne_nil_of_mem_runs hrun
  simpa using hne

/-! ### Links of tokens -/

/-- The targets of the links that are found in a text from the left, in order. -/
def FindsLinks (cs : List Char) (targets : List String) : Prop :=
  ∃ ps, Scans cs ps ∧ targets = ps.filterMap Piece.target?

theorem findsLinks_iff {cs : List Char} {targets : List String} :
    FindsLinks cs targets ↔ targets = (pieces cs).filterMap Piece.target? := by
  unfold FindsLinks
  simp only [scans_iff, exists_eq_left]

theorem filterMap_target?_solid (ps : List Piece) :
    (solid ps).filterMap Piece.target? = ps.filterMap Piece.target? := by
  induction ps with
  | nil => rfl
  | cons p ps ih =>
    cases p with
    | link target =>
      rw [solid_link, List.filterMap_cons, List.filterMap_cons, ih]
    | char c =>
      cases hc : isBlank c with
      | true =>
        rw [solid_gap hc, ih]
        rfl
      | false =>
        rw [solid_char hc, List.filterMap_cons, List.filterMap_cons, ih]

/-- **Cutting prose into tokens** loses nothing and cuts no link.

* The prose is its tokens, in order, with blanks in front of the first and behind each; only the
  blanks at the two ends may be missing.
* No token is empty, and a blank in a token stands between a `[` and the next `]`.
* A token is written by the pieces that are found in it from the left, and the links among these, for
  one token after the other, are the links that are found in the whole prose from the left. -/
theorem tokens_cut (text : String) :
    (∃ front gaps,
      CutAt (fun c => isBlank c = true) text.toList (tokens text.toList) front gaps) ∧
    (∀ token ∈ tokens text.toList, token ≠ [] ∧
      ∀ before c after, token = before ++ c :: after → isBlank c = true → InSpan before after) ∧
    ∃ found : List (List Piece),
      List.Forall₂ (fun token ps => Scans token ps ∧
        ∀ links, renderToken links token = renderPieces links ps) (tokens text.toList) found ∧
      ∀ targets, FindsLinks text.toList targets ↔
        targets = found.flatMap (·.filterMap Piece.target?) := by
  refine ⟨exists_cutAt_tokens text.toList, ?_, (tokens text.toList).map pieces, ?_, ?_⟩
  · intro token htoken
    exact ⟨ne_nil_of_mem_tokens htoken, fun _ _ _ => inSpan_of_isBlank htoken⟩
  · rw [List.forall₂_map_right_iff, List.forall₂_same]
    exact fun token _ => ⟨scans_pieces token, fun _ => rfl⟩
  · intro targets
    have htargets : (pieces text.toList).filterMap Piece.target? =
        ((tokens text.toList).map pieces).flatMap (·.filterMap Piece.target?) := by
      rw [← filterMap_target?_solid, ← pieces_tokens, List.filterMap_flatMap, List.flatMap_map]
    rw [findsLinks_iff, htargets]

/-- Brackets that hold nothing, a link with a blank in it, and a bracket that stays open. -/
example : tokens "[] [a\tb][c d], [e f".toList =
      ["[]".toList, "[a\tb][c d],".toList, "[e".toList, "f".toList] ∧
    linkTargets "[] [a\tb][c d], [e f" = ["a\tb", "c d"] := by decide

end ApiSurface.Comment
