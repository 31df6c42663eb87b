import ApiSurface.Proofs.Comment.Prose

/-!
# Words as XML

A word stands in an XML comment, where `<` and `&` are markup.
-/

namespace ApiSurface.Comment

/-- Whether XML has a character at all. -/
def isXmlChar (c : Char) : Bool :=
  c = '\t' || c = '\n' || c = '\r' || (' ' ≤ c && c ≠ '\ufffe' && c ≠ '\uffff')

/-- A text that stands for itself between the quotes of an attribute. -/
def IsClean (value : String) : Prop := ∀ c ∈ value.toList, c ≠ '<' ∧ c ≠ '&' ∧ c ≠ '"'

/-- The elements that stand for links: empty, with one attribute. -/
inductive IsReference : String → Prop
  | see {value : String} (h : IsClean value) : IsReference ("<see cref=\"" ++ value ++ "\"/>")
  | argument {value : String} (h : IsClean value) :
    IsReference ("<paramref name=\"" ++ value ++ "\"/>")

/-- Well-formed content: characters that are no markup, references to such that are, and elements
that stand for links. -/
inductive Content : List Char → Prop
  | nil : Content []
  | char {c : Char} {cs : List Char} (hxml : isXmlChar c = true) (hplain : c ∉ ['<', '>', '&'])
    (h : Content cs) : Content (c :: cs)
  | reference {name : String} {cs : List Char} (hname : name ∈ ["amp", "lt", "gt"])
    (h : Content cs) : Content ('&' :: name.toList ++ ';' :: cs)
  | element {markup : String} {cs : List Char} (hxml : ∀ c ∈ markup.toList, isXmlChar c = true)
    (helement : IsReference markup) (h : Content cs) : Content (markup.toList ++ cs)

theorem Content.append {cs ds : List Char} (h : Content cs) (hds : Content ds) :
    Content (cs ++ ds) := by
  induction h with
  | nil => exact hds
  | char hxml hplain _ ih => exact .char hxml hplain ih
  | reference hname _ ih =>
    rw [List.append_assoc, List.cons_append]
    exact .reference hname ih
  | element hxml helement _ ih =>
    rw [List.append_assoc]
    exact .element hxml helement ih

theorem Content.exists_element {cs : List Char} (h : Content cs) (hfirst : cs.head? = some '<') :
    ∃ markup rest, cs = markup.toList ++ rest ∧ IsReference markup := by
  cases h with
  | nil => cases hfirst
  | char _ hplain _ =>
    obtain rfl := Option.some.inj hfirst
    exact absurd List.mem_cons_self hplain
  | reference _ _ => exact absurd (Option.some.inj hfirst) (by decide)
  | element _ helement _ => exact ⟨_, _, rfl, helement⟩

theorem content_markupChar {c : Char} (hxml : isXmlChar c = true) :
    Content (Text.markupChar c) := by
  unfold Text.markupChar
  split
  · exact .reference (show "amp" ∈ ["amp", "lt", "gt"] by simp) .nil
  split
  · exact .reference (show "lt" ∈ ["amp", "lt", "gt"] by simp) .nil
  split
  · exact .reference (show "gt" ∈ ["amp", "lt", "gt"] by simp) .nil
  · next hamp hlt hgt => exact .char hxml (by simp [hamp, hlt, hgt]) .nil

/-- **Escaped text is content.** -/
theorem content_escapeMarkup {text : List Char} (hxml : ∀ c ∈ text, isXmlChar c = true) :
    Content (Text.escapeMarkup (String.ofList text)).toList := by
  rw [Text.toList_escapeMarkup, String.toList_ofList]
  induction text with
  | nil => exact .nil
  | cons c cs ih =>
    obtain ⟨hc, hcs⟩ := List.forall_mem_cons.mp hxml
    rw [List.flatMap_cons]
    exact (content_markupChar hc).append (ih hcs)

variable {links : LinkResolver}

/-- **A piece of a token is content** if a link that is replaced is replaced by an element. -/
theorem content_render {p : Piece} {markup : String} (h : p.render links = .ok markup)
    (hxml : ∀ c ∈ p.source, isXmlChar c = true)
    (hlinks : ∀ target ∈ p.target?, ∀ answer, links target = .ok (some answer) →
      IsReference answer ∧ ∀ c ∈ answer.toList, isXmlChar c = true) : Content markup.toList := by
  cases p with
  | char c =>
    obtain rfl := Except.ok.inj h
    exact content_escapeMarkup hxml
  | link target =>
    obtain ⟨answer, hanswer, hret⟩ := exists_ok_of_bind h
    cases answer with
    | none =>
      obtain rfl := Except.ok.inj hret
      exact content_escapeMarkup hxml
    | some markup' =>
      obtain rfl := Except.ok.inj hret
      obtain ⟨helement, hchars⟩ := hlinks _ rfl _ hanswer
      rw [← List.append_nil markup'.toList]
      exact .element hchars helement .nil

theorem content_renderPieces {ps : List Piece} {markup : String}
    (h : renderPieces links ps = .ok markup)
    (hxml : ∀ c ∈ ps.flatMap Piece.source, isXmlChar c = true)
    (hlinks : ∀ target ∈ ps.filterMap Piece.target?, ∀ answer,
      links target = .ok (some answer) →
        IsReference answer ∧ ∀ c ∈ answer.toList, isXmlChar c = true) :
    Content markup.toList := by
  induction ps generalizing markup with
  | nil =>
    obtain rfl := Except.ok.inj h
    exact .nil
  | cons p ps ih =>
    obtain ⟨first, hfirst, hrest⟩ := exists_ok_of_bind h
    obtain ⟨later, hlater, hret⟩ := exists_ok_of_bind hrest
    obtain rfl := Except.ok.inj hret
    rw [List.flatMap_cons, List.forall_mem_append] at hxml
    have hp : ∀ target ∈ p.target?, target ∈ (p :: ps).filterMap Piece.target? := by
      intro target htarget
      exact List.mem_filterMap.mpr ⟨p, List.mem_cons_self, htarget⟩
    have hps : ∀ target ∈ ps.filterMap Piece.target?,
        target ∈ (p :: ps).filterMap Piece.target? := by
      intro target htarget
      obtain ⟨q, hq, hqt⟩ := List.mem_filterMap.mp htarget
      exact List.mem_filterMap.mpr ⟨q, List.mem_cons_of_mem p hq, hqt⟩
    rw [String.toList_append]
    refine Content.append ?_ ?_
    · exact content_render hfirst hxml.1 fun target htarget => hlinks target (hp target htarget)
    · exact ih hlater hxml.2 fun target htarget => hlinks target (hps target htarget)

theorem mem_token_of_mem_target {token : List Char} {target : String}
    (h : target ∈ (pieces token).filterMap Piece.target?) {c : Char} (hc : c ∈ target.toList) :
    c ∈ token := by
  obtain ⟨p, hp, htarget⟩ := List.mem_filterMap.mp h
  rw [← source_pieces token, List.mem_flatMap]
  refine ⟨p, hp, ?_⟩
  cases p with
  | char c => cases htarget
  | link cs =>
    obtain rfl := Option.some.inj htarget
    rw [String.toList_ofList] at hc
    exact List.mem_append_left _ (List.mem_cons_of_mem _ hc)

/-- **A word is content** if each of its links that is replaced is replaced by an element. -/
theorem content_renderToken {token : List Char} {markup : String}
    (h : renderToken links token = .ok markup) (hxml : ∀ c ∈ token, isXmlChar c = true)
    (hlinks : ∀ target ∈ (pieces token).filterMap Piece.target?, ∀ answer,
      links target = .ok (some answer) →
        IsReference answer ∧ ∀ c ∈ answer.toList, isXmlChar c = true) :
    Content markup.toList := by
  refine content_renderPieces h ?_ hlinks
  rw [source_pieces]
  exact hxml

end ApiSurface.Comment
