import ApiSurface.Comment.Token
import ApiSurface.Fault
import ApiSurface.Text.Escape

/-!
# Wrapping prose

`wrap` writes prose as comment lines. Its tokens become words, in which links are replaced and all
else is escaped, and a line takes words as long as they fit. A word that is wider than a line has
one of its own.
-/

namespace ApiSurface.Comment

/-- What stands for a link, if it can be resolved. -/
abbrev LinkResolver := String → Except Cause (Option String)

/-- The resolver that resolves nothing. -/
def noLinks : LinkResolver := fun _ => .ok none

/-- What every line of a comment starts with. -/
def lead : String := "/// "

/-- A piece of a token as markup. A link that is not resolved stands as it is written. -/
def Piece.render (links : LinkResolver) : Piece → Except Cause String
  | .char c => .ok (Text.escapeMarkup (String.singleton c))
  | .link target => do
    match ← links (String.ofList target) with
    | some markup => return markup
    | none => return Text.escapeMarkup (String.ofList ('[' :: target ++ [']']))

/-- The markup for some pieces of a token. -/
def renderPieces (links : LinkResolver) : List Piece → Except Cause String
  | [] => .ok ""
  | p :: ps => do return (← p.render links) ++ (← renderPieces links ps)

/-- The word that a token becomes. -/
def renderToken (links : LinkResolver) (token : List Char) : Except Cause String :=
  renderPieces links (pieces token)

/-- Comment lines from the words that follow a line that has been begun. -/
def wrapFrom (width : Int) : (current : String) → List String → List String
  | current, [] => [current]
  | current, word :: words =>
    if (current.length : Int) + 1 + word.length ≤ width then
      wrapFrom width (current ++ " " ++ word) words
    else current :: wrapFrom width (lead ++ word) words

/-- Comment lines that hold some words. -/
def wrapWords (width : Int) : List String → List String
  | [] => []
  | word :: words => wrapFrom width (lead ++ word) words

/-- The words of a text. -/
def words (links : LinkResolver) (text : String) : Except Cause (List String) :=
  (tokens text.toList).mapM (renderToken links)

/-- The comment lines for a text, no wider than a limit where that is possible. -/
def wrap (links : LinkResolver) (width : Int) (text : String) : Except Cause (List String) := do
  return wrapWords width (← words links text)

end ApiSurface.Comment
