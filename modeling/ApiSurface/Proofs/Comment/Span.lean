import ApiSurface.Comment.Token
import ApiSurface.Proofs.Text.Runs

/-!
# Blanks in tokens

Tokens are cut from the text, and links are then found in each token by itself. Both look for the
next `]` behind a `[`, so a span of the text is a link of its token, unless it is `[]`.
-/

namespace ApiSurface.Comment

open Text

/-- The rest of the token that goes on at the front of a text, possibly empty. -/
def firstToken (inSpan : Bool) (cs : List Char) : List Char :=
  (runsFrom (·.2) (markedFrom inSpan cs)).1.map (·.1)

/-- The tokens behind that one. -/
def laterTokens (inSpan : Bool) (cs : List Char) : List (List Char) :=
  (runsFrom (·.2) (markedFrom inSpan cs)).2.map (·.map (·.1))

theorem tokens_eq (text : List Char) :
    tokens text = consRun (firstToken false text) (laterTokens false text) :=
  map_consRun _ _ _

/-! ### One character at a time -/

theorem first_spanned (c : Char) (cs : List Char) :
    firstToken true (c :: cs) = c :: firstToken (c ≠ ']') cs := by
  simp [firstToken, markedFrom, runsFrom]

theorem later_spanned (c : Char) (cs : List Char) :
    laterTokens true (c :: cs) = laterTokens (c ≠ ']') cs := by
  simp [laterTokens, markedFrom, runsFrom]

theorem first_blank {c : Char} (h : isBlank c = true) (cs : List Char) :
    firstToken false (c :: cs) = [] := by
  simp [firstToken, markedFrom, runsFrom, h]

theorem later_blank {c : Char} (h : isBlank c = true) (cs : List Char) :
    laterTokens false (c :: cs) = tokens cs := by
  have hopen : c ≠ '[' := by
    rintro rfl
    revert h
    decide
  simp [laterTokens, tokens, runs, markedFrom, runsFrom, h, hopen]

theorem first_unspanned {c : Char} (h : isBlank c = false) (cs : List Char) :
    firstToken false (c :: cs) = c :: firstToken (c = '[' && cs.contains ']') cs := by
  simp [firstToken, markedFrom, runsFrom, h]

theorem later_unspanned {c : Char} (h : isBlank c = false) (cs : List Char) :
    laterTokens false (c :: cs) = laterTokens (c = '[' && cs.contains ']') cs := by
  simp [laterTokens, markedFrom, runsFrom, h]

theorem mem_of_mem_firstToken {inSpan : Bool} {cs : List Char} {c : Char}
    (h : c ∈ firstToken inSpan cs) : c ∈ cs := by
  induction cs generalizing inSpan with
  | nil => cases inSpan <;> cases h
  | cons d ds ih =>
    have hcons : ∀ {inSpan : Bool}, c ∈ d :: firstToken inSpan ds → c ∈ d :: ds := by
      intro inSpan h
      rcases List.mem_cons.mp h with rfl | h
      · exact List.mem_cons_self
      · exact List.mem_cons_of_mem _ (ih h)
    cases inSpan with
    | true =>
      rw [first_spanned] at h
      exact hcons h
    | false =>
      cases hblank : isBlank d with
      | true =>
        rw [first_blank hblank] at h
        cases h
      | false =>
        rw [first_unspanned hblank] at h
        exact hcons h

theorem close_mem_firstToken {cs : List Char} (h : ']' ∈ cs) : ']' ∈ firstToken true cs := by
  induction cs with
  | nil => cases h
  | cons c cs ih =>
    rw [first_spanned]
    by_cases hc : c = ']'
    · rw [hc]
      exact List.mem_cons_self
    · have hcs := ih ((List.mem_cons.mp h).resolve_left (Ne.symm hc))
      simpa [hc] using Or.inr hcs

/-- A link is open in a token where a span is open in the text, unless the span is `[]`. -/
theorem opensLink_firstToken (cs : List Char) :
    opensLink (firstToken (cs.contains ']') cs) = opensLink cs := by
  cases cs with
  | nil => rfl
  | cons c cs =>
    by_cases hmem : ']' ∈ c :: cs
    · rw [List.contains_iff_mem.mpr hmem, first_spanned]
      by_cases hc : c = ']'
      · simp [opensLink, hc]
      · have hcs := (List.mem_cons.mp hmem).resolve_left (Ne.symm hc)
        simp [opensLink, hc, hcs, close_mem_firstToken hcs]
    · have hno : ']' ∉ cs := fun h => hmem (List.mem_cons_of_mem _ h)
      have hfirst : ']' ∉ firstToken false (c :: cs) := fun h => hmem (mem_of_mem_firstToken h)
      have hcontains : (c :: cs).contains ']' = false := by
        simpa using hmem
      rw [hcontains]
      have hnone : opensLink (c :: cs) = false := by simp [opensLink, hno]
      rw [hnone]
      cases hf : firstToken false (c :: cs) with
      | nil => rfl
      | cons d ds =>
        rw [hf] at hfirst
        have hds : ']' ∉ ds := fun h => hfirst (List.mem_cons_of_mem _ h)
        simp [opensLink, hds]

theorem close_mem_of_opensLink {cs : List Char} (h : opensLink cs = true) : ']' ∈ cs := by
  cases cs with
  | nil => cases h
  | cons c cs =>
    have hmem : ']' ∈ cs := by simpa using (Bool.and_eq_true_iff.mp h).2
    exact List.mem_cons_of_mem _ hmem

theorem head_of_not_opensLink {cs : List Char} (h : ¬ opensLink cs = true) (hmem : ']' ∈ cs) :
    cs.head? = some ']' := by
  cases cs with
  | nil => cases hmem
  | cons c cs =>
    by_cases hc : c = ']'
    · rw [hc]
      rfl
    · have hcs := (List.mem_cons.mp hmem).resolve_left (Ne.symm hc)
      exact absurd (by simp [opensLink, hc, hcs]) h

theorem piecesFrom_open {cs : List Char} (h : opensLink cs = true) :
    piecesFrom none ('[' :: cs) = piecesFrom (some []) cs := by
  rw [piecesFrom, if_pos (by simp [h])]

theorem piecesFrom_plain {c : Char} {cs : List Char} (h : c ≠ '[' ∨ opensLink cs = false) :
    piecesFrom none (c :: cs) = .char c :: piecesFrom none cs := by
  have hno : ¬ (decide (c = '[') && opensLink cs) = true := by
    rcases h with h | h <;> simp [h]
  rw [piecesFrom, if_neg hno]

theorem piecesFrom_close (target cs : List Char) :
    piecesFrom (some target) (']' :: cs) = .link target.reverse :: piecesFrom none cs := by
  rw [piecesFrom, if_pos rfl]

theorem piecesFrom_inside {c : Char} (h : c ≠ ']') (target cs : List Char) :
    piecesFrom (some target) (c :: cs) = piecesFrom (some (c :: target)) cs := by
  rw [piecesFrom, if_neg h]

/-! ### Gaps -/

/-- A blank that stands by itself, outside of all links. -/
def Piece.isGap : Piece → Bool
  | .char c => isBlank c
  | .link _ => false

/-- The pieces of a text without the gaps. -/
def solid (ps : List Piece) : List Piece := ps.filter (!·.isGap)

theorem solid_gap {c : Char} (hc : isBlank c = true) (ps : List Piece) :
    solid (.char c :: ps) = solid ps := by
  simp [solid, Piece.isGap, hc]

theorem solid_char {c : Char} (hc : isBlank c = false) (ps : List Piece) :
    solid (.char c :: ps) = .char c :: solid ps := by
  simp [solid, Piece.isGap, hc]

theorem solid_link (target : List Char) (ps : List Piece) :
    solid (.link target :: ps) = .link target :: solid ps := by
  simp [solid, Piece.isGap]

theorem flatMap_pieces_tokens (cs : List Char) : (tokens cs).flatMap pieces =
    piecesFrom none (firstToken false cs) ++ (laterTokens false cs).flatMap pieces := by
  rw [tokens_eq]
  cases firstToken false cs with
  | nil => rfl
  | cons c token => rfl

/-- The two ways through a text keep in step: outside of a span a blank ends the token, in a span the
link of the span takes it, and in `[]` there is none. -/
theorem solid_piecesFrom (cs : List Char) :
    solid (piecesFrom none cs) =
      piecesFrom none (firstToken false cs) ++ (laterTokens false cs).flatMap pieces ∧
    (∀ target, ']' ∈ cs → solid (piecesFrom (some target) cs) =
      piecesFrom (some target) (firstToken true cs) ++ (laterTokens true cs).flatMap pieces) ∧
    (cs.head? = some ']' → solid (piecesFrom none cs) =
      piecesFrom none (firstToken true cs) ++ (laterTokens true cs).flatMap pieces) := by
  induction cs with
  | nil => exact ⟨rfl, nofun, nofun⟩
  | cons c cs ih =>
    obtain ⟨houtside, hinside, hempty⟩ := ih
    refine ⟨?_, ?_, ?_⟩
    · cases hblank : isBlank c with
      | true =>
        have hopen : c ≠ '[' := by
          rintro rfl
          revert hblank
          decide
        rw [first_blank hblank, later_blank hblank, flatMap_pieces_tokens,
          piecesFrom_plain (.inl hopen), solid_gap hblank, houtside]
        rfl
      | false =>
        rw [first_unspanned hblank, later_unspanned hblank]
        by_cases hopen : c = '['
        · have hspan : (decide (c = '[') && cs.contains ']') = cs.contains ']' := by simp [hopen]
          rw [hspan, hopen]
          by_cases hlink : opensLink cs = true
          · have hmem := close_mem_of_opensLink hlink
            have hlink' := (opensLink_firstToken cs).trans hlink
            rw [piecesFrom_open hlink, piecesFrom_open hlink', List.contains_iff_mem.mpr hmem]
            exact hinside [] hmem
          · have hlink := eq_false_of_ne_true hlink
            have hlink' := (opensLink_firstToken cs).trans hlink
            rw [piecesFrom_plain (.inr hlink), piecesFrom_plain (.inr hlink'),
              solid_char (by decide), List.cons_append]
            -- the span is `[]`, or there is none
            by_cases hmem : ']' ∈ cs
            · have hhead := head_of_not_opensLink (ne_true_of_eq_false hlink) hmem
              rw [List.contains_iff_mem.mpr hmem, hempty hhead]
            · have hno : cs.contains ']' = false := by simpa using hmem
              rw [hno, houtside]
        · have hspan : (decide (c = '[') && cs.contains ']') = false := by simp [hopen]
          rw [hspan, piecesFrom_plain (.inl hopen), piecesFrom_plain (.inl hopen),
            solid_char hblank, houtside, List.cons_append]
    · intro target hmem
      rw [first_spanned, later_spanned]
      by_cases hc : c = ']'
      · have hspan : decide (c ≠ ']') = false := by simp [hc]
        rw [hspan, hc, piecesFrom_close, piecesFrom_close, solid_link, houtside, List.cons_append]
      · have hspan : decide (c ≠ ']') = true := by simp [hc]
        rw [hspan, piecesFrom_inside hc, piecesFrom_inside hc]
        exact hinside _ ((List.mem_cons.mp hmem).resolve_left (Ne.symm hc))
    · intro hhead
      obtain rfl : c = ']' := by simpa using hhead
      have hspan : decide (']' ≠ ']') = false := by decide
      have hopen : ']' ≠ '[' := by decide
      rw [first_spanned, later_spanned, hspan, piecesFrom_plain (.inl hopen),
        piecesFrom_plain (.inl hopen), solid_char (by decide), houtside, List.cons_append]

/-- **The pieces of the tokens** of a text are the pieces of the text, without the gaps. -/
theorem pieces_tokens (text : List Char) :
    (tokens text).flatMap pieces = solid (pieces text) := by
  rw [flatMap_pieces_tokens]
  exact (solid_piecesFrom text).1.symm

/-- **A blank in a token** stands in one of its links. -/
theorem not_isBlank_of_char_mem {text token : List Char} {c : Char} (htoken : token ∈ tokens text)
    (hc : .char c ∈ pieces token) : isBlank c = false := by
  have hsolid : .char c ∈ solid (pieces text) := by
    rw [← pieces_tokens]
    exact List.mem_flatMap.mpr ⟨token, htoken, hc⟩
  simpa [Piece.isGap] using (List.mem_filter.mp hsolid).2

end ApiSurface.Comment
