import ApiSurface.Proofs.Comment.Tokens
import ApiSurface.Proofs.Text.Entities

/-!
# What is written for a token

A token is written from the left: a link that is resolved is replaced as a whole, and everything else is
escaped, one character at a time.
-/

namespace ApiSurface.Comment

open Text

/-- **What is written for a token.**  A link is found from the left; what it is resolved to is written as
it is. -/
inductive Writes (links : LinkResolver) : List Char → List Char → Prop
  | done : Writes links [] []
  | resolved {target rest cs out : List Char} {markup : String} (h : LinkAt target rest cs)
    (hanswer : links (String.ofList target) = .ok (some markup)) (hrest : Writes links rest out) :
    Writes links cs (markup.toList ++ out)
  /-- A link that is not resolved is written with its brackets. -/
  | unresolved {target rest cs out : List Char} (h : LinkAt target rest cs)
    (hanswer : links (String.ofList target) = .ok none) (hrest : Writes links rest out) :
    Writes links cs (('[' :: target ++ [']']).flatMap markupChar ++ out)
  | char {c : Char} {cs out : List Char} (hno : ∀ target rest, ¬ LinkAt target rest (c :: cs))
    (hrest : Writes links cs out) : Writes links (c :: cs) (markupChar c ++ out)

variable {links : LinkResolver}

/-! ### One piece -/

theorem render_char (c : Char) :
    (Piece.char c).render links = .ok (String.ofList (markupChar c)) := by
  have hchar : escapeMarkup (String.singleton c) = String.ofList (markupChar c) := by
    apply String.toList_injective
    simp [toList_escapeMarkup]
  rw [Piece.render, hchar]

theorem render_resolved {target : List Char} {markup : String}
    (h : links (String.ofList target) = .ok (some markup)) :
    (Piece.link target).render links = .ok markup := by
  rw [Piece.render, h]
  rfl

theorem render_unresolved {target : List Char} (h : links (String.ofList target) = .ok none) :
    (Piece.link target).render links =
      .ok (String.ofList (('[' :: target ++ [']']).flatMap markupChar)) := by
  have hlink : escapeMarkup (String.ofList ('[' :: target ++ [']'])) =
      String.ofList (('[' :: target ++ [']']).flatMap markupChar) := by
    apply String.toList_injective
    rw [toList_escapeMarkup, String.toList_ofList, String.toList_ofList]
  rw [Piece.render, h, ← hlink]
  rfl

theorem renderPieces_cons {p : Piece} {first : String} (h : p.render links = .ok first)
    (ps : List Piece) :
    renderPieces links (p :: ps) = (renderPieces links ps).map (first ++ ·) := by
  rw [renderPieces, h]
  cases renderPieces links ps <;> rfl

/-! ### All pieces -/

/-- **The pieces found from the left** are rendered by the rules. -/
theorem writes_of_scans {cs : List Char} {ps : List Piece} (hscans : Scans cs ps) {out : String}
    (h : renderPieces links ps = .ok out) : Writes links cs out.toList := by
  induction hscans generalizing out with
  | done =>
    obtain rfl := Except.ok.inj h
    exact .done
  | char hno _ ih =>
    rw [renderPieces_cons (render_char _)] at h
    obtain ⟨later, hlater, rfl⟩ := map_eq_ok_iff.mp h
    rw [String.toList_append, String.toList_ofList]
    exact .char hno (ih hlater)
  | link hlink _ ih =>
    obtain ⟨first, hfirst, -⟩ := exists_ok_of_bind h
    rw [renderPieces_cons hfirst] at h
    obtain ⟨later, hlater, rfl⟩ := map_eq_ok_iff.mp h
    obtain ⟨answer, hanswer, -⟩ := exists_ok_of_bind hfirst
    rw [String.toList_append]
    cases answer with
    | some markup =>
      obtain rfl := Except.ok.inj ((render_resolved hanswer).symm.trans hfirst)
      exact .resolved hlink hanswer (ih hlater)
    | none =>
      obtain rfl := Except.ok.inj ((render_unresolved hanswer).symm.trans hfirst)
      rw [String.toList_ofList]
      exact .unresolved hlink hanswer (ih hlater)

/-- **What the rules write** is rendered. -/
theorem renderToken_of_writes {cs out : List Char} (h : Writes links cs out) :
    renderToken links cs = .ok (String.ofList out) := by
  unfold renderToken
  induction h with
  | done => rfl
  | resolved hlink hanswer _ ih =>
    rw [pieces_of_linkAt hlink, renderPieces_cons (render_resolved hanswer), ih]
    simp only [Except.map, String.ofList_append, String.ofList_toList]
  | unresolved hlink hanswer _ ih =>
    rw [pieces_of_linkAt hlink, renderPieces_cons (render_unresolved hanswer), ih]
    simp only [Except.map, String.ofList_append]
  | char hno _ ih =>
    rw [pieces_of_not_linkAt hno, renderPieces_cons (render_char _), ih]
    simp only [Except.map, String.ofList_append]

/-- **Without a link that is resolved** the whole token is escaped. -/
theorem renderToken_of_unresolved {token : List Char} (h : ∀ target, links target = .ok none) :
    renderToken links token = .ok (escapeMarkup (String.ofList token)) := by
  rw [← word_plain]
  exact renderPieces_eq fun target _ => h target

/-- **Rendering a token.**

* What is rendered is what the rules write: resolved links are replaced, and all else is escaped.
* A resolver that answers for every link leaves no token without a word.
* If no link is resolved, the word is the token, escaped as a whole: it holds no `<` and no `>`, every `&`
  of it starts an entity, and the token is read back from it. -/
theorem renderToken_writes (token : List Char) :
    (∀ links word, renderToken links token = .ok word ↔ Writes links token word.toList) ∧
    (∀ answer : String → Option String,
      ∃ word, renderToken (fun target => .ok (answer target)) token = .ok word) ∧
    ∀ links : LinkResolver, (∀ target, links target = .ok none) → ∃ word,
      renderToken links token = .ok word ∧ word = escapeMarkup (String.ofList token) ∧
      '<' ∉ word.toList ∧ '>' ∉ word.toList ∧
      (∀ before after, word.toList = before ++ '&' :: after → StartsEntity after) ∧
      decodeMarkup word.toList = token := by
  refine ⟨fun links word => ⟨writes_of_scans (scans_pieces token), fun h => ?_⟩, fun answer => ?_,
    fun links hnone => ⟨_, renderToken_of_unresolved hnone, rfl, ?_⟩⟩
  · rw [renderToken_of_writes h, String.ofList_toList]
  · exact ⟨_, renderPieces_eq fun target _ => rfl⟩
  · obtain ⟨hopen, hclose⟩ := not_mem_escapeMarkup (String.ofList token)
    refine ⟨hopen, hclose, fun before after => startsEntity_of_ampersand, ?_⟩
    rw [decodeMarkup_escapeMarkup, String.toList_ofList]

/-- A token with an entity, a link and brackets that hold nothing. -/
def entityToken : List Char := "&lt;<[b c][]".toList

theorem renderToken_writes_entityToken :
    (∃ word, renderToken noLinks entityToken = .ok word ∧ word = "&amp;lt;&lt;[b c][]" ∧
      decodeMarkup word.toList = entityToken) ∧
    Writes (fun _ => .ok (some "<b/>")) entityToken "&amp;lt;&lt;<b/>[]".toList := by
  obtain ⟨hwrites, -, hplain⟩ := renderToken_writes entityToken
  obtain ⟨word, hword, hescaped, -, -, -, hdecoded⟩ := hplain noLinks fun _ => rfl
  refine ⟨⟨word, hword, ?_, hdecoded⟩, (hwrites _ _).mp (by rfl)⟩
  rw [hescaped]
  rfl

end ApiSurface.Comment
