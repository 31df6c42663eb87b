import ApiSurface.Text.Blank
import ApiSurface.Text.Runs

/-!
# Tokens of prose

Prose is cut into tokens at blank characters. A span from `[` to the next `]` is a link and never
cut, even if blanks stand in it. `markedFrom` says of each character whether it belongs to a token,
and `tokens` lists the runs of those that do. `pieces` finds the links inside a token.
-/

namespace ApiSurface.Comment

/-- Marks the characters that belong to tokens. The flag says whether a bracketed span is open. -/
def markedFrom : (inSpan : Bool) → List Char → List (Char × Bool)
  | _, [] => []
  | true, c :: cs => (c, true) :: markedFrom (c ≠ ']') cs
  | false, c :: cs => (c, !Text.isBlank c) :: markedFrom (c = '[' && cs.contains ']') cs

/-- The tokens of a text. -/
def tokens (text : List Char) : List (List Char) :=
  (Text.runs (·.2) (markedFrom false text)).map (·.map (·.1))

/-- A piece of a token. -/
inductive Piece where
  | char (c : Char)
  /-- A link, without its brackets. -/
  | link (target : List Char)
deriving DecidableEq, Repr

/-- Whether a link is open after a `[` in front of a text: a `]` follows, and not at once. -/
def opensLink : List Char → Bool
  | [] => false
  | c :: cs => c ≠ ']' && cs.contains ']'

/-- The pieces of a token. The first argument is the part of an open link that has been read, last
character first. -/
def piecesFrom : (openLink : Option (List Char)) → List Char → List Piece
  | _, [] => []
  | some target, c :: cs =>
    if c = ']' then .link target.reverse :: piecesFrom none cs
    else piecesFrom (some (c :: target)) cs
  | none, c :: cs =>
    if c = '[' && opensLink cs then piecesFrom (some []) cs
    else .char c :: piecesFrom none cs

/-- The pieces of a token: links from the left, and the characters between them. -/
def pieces (token : List Char) : List Piece := piecesFrom none token

end ApiSurface.Comment
