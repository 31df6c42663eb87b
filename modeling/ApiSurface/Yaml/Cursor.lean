/-!
# A place in a YAML text

A cursor is the text that is left together with the line and the column of its first character.
Lines end at a line feed, a carriage return, the two together, or one of the characters `U+0085`,
`U+2028` and `U+2029`.
-/

namespace ApiSurface.Yaml

/-- Whether a character ends a line. -/
def isBreak (c : Char) : Bool :=
  c = '\n' || c = '\r' || c.toNat = 0x85 || c.toNat = 0x2028 || c.toNat = 0x2029

/-- Whether there is no character, or one that ends a line. -/
def endsLine : Option Char → Bool
  | none => true
  | some c => isBreak c

/-- Whether there is no character, or one that separates words or lines. -/
def endsWord : Option Char → Bool
  | none => true
  | some c => c = ' ' || c = '\t' || isBreak c

/-- Whether a character may occur in a YAML text. -/
def isAllowed (c : Char) : Bool :=
  let n := c.toNat
  n == 0x09 || n == 0x0A || n == 0x0D || (0x20 ≤ n && n ≤ 0x7E) || n == 0x85 ||
    (0xA0 ≤ n && n ≤ 0xD7FF) || (0xE000 ≤ n && n ≤ 0xFFFD) || 0x10000 ≤ n

/-- The text that is left, and where it starts. -/
structure Cursor where
  /-- The length of the whole text, which bounds every loop over what is left. -/
  size : Nat
  rest : List Char
  index : Nat
  line : Nat
  column : Nat
deriving Repr

namespace Cursor

/-- The start of a text. -/
def start (text : String) : Cursor := ⟨text.length, text.toList, 0, 0, 0⟩

/-- The character some way ahead. -/
def peek (c : Cursor) (ahead : Nat) : Option Char := c.rest[ahead]?

/-- Moves past one character. A byte order mark takes no column. -/
def next (c : Cursor) : Cursor :=
  match c.rest with
  | [] => c
  | ch :: rest =>
    let c := { c with rest, index := c.index + 1 }
    if isBreak ch && !(ch = '\r' && rest.head? = some '\n') then
      { c with line := c.line + 1, column := 0 }
    else if ch.toNat = 0xFEFF then c
    else { c with column := c.column + 1 }

/-- Moves past some characters. -/
def advance : Nat → Cursor → Cursor
  | 0, c => c
  | n + 1, c => advance n c.next

/-- Takes the characters in front that satisfy a test. -/
def span (p : Char → Bool) (c : Cursor) : List Char × Cursor :=
  let taken := c.rest.takeWhile p
  (taken, c.advance taken.length)

/-- Moves past the characters in front that satisfy a test. -/
def skip (p : Char → Bool) (c : Cursor) : Cursor := (c.span p).2

/-- Takes one line break, if there is one. Those of one byte read as a line feed. -/
def takeBreak (c : Cursor) : List Char × Cursor :=
  match c.rest with
  | '\r' :: '\n' :: _ => (['\n'], c.advance 2)
  | ch :: _ =>
    if ch.toNat = 0x2028 || ch.toNat = 0x2029 then ([ch], c.next)
    else if isBreak ch then (['\n'], c.next)
    else ([], c)
  | [] => ([], c)

/-- Whether a mark of three characters that separates documents is ahead. -/
def atSeparator (mark : Char) (c : Cursor) : Bool :=
  c.peek 0 = some mark && c.peek 1 = some mark && c.peek 2 = some mark && endsWord (c.peek 3)

/-- Whether a line that separates documents is ahead. -/
def atAnySeparator (c : Cursor) : Bool := c.atSeparator '-' || c.atSeparator '.'

end Cursor

end ApiSurface.Yaml
