import ApiSurface.Text.CodePoint
import ApiSurface.Yaml.Cursor

/-!
# Block scalars

A block scalar is the indented text after `|` or `>`. The first keeps its line breaks, the second
folds a single break between lines that start with a character other than a blank. An indicator
says whether the breaks at the end are dropped, clipped to one or kept.
-/

namespace ApiSurface.Yaml

/-- What happens to the line breaks at the end of a block scalar. -/
inductive Chomping where
  | strip
  | clip
  | keep
deriving DecidableEq, Repr

/-- The chomping that a character indicates. -/
def chomping? : Option Char → Option Chomping
  | some '+' => some .keep
  | some '-' => some .strip
  | _ => none

/-- The indentation that a digit indicates. -/
def increment? : Option Char → Option Nat
  | some c => if '0' ≤ c && c ≤ '9' then some (c.toNat - 48) else none
  | none => none

/-- The indicators after `|` or `>`, in either order, and the place after them. -/
def blockIndicators (c : Cursor) : Option (Chomping × Option Nat × Cursor) :=
  let (chomp, increment, c) :=
    match chomping? (c.peek 0), increment? (c.peek 0) with
    | some chomp, _ =>
      match increment? (c.peek 1) with
      | some n => (chomp, some n, c.advance 2)
      | none => (chomp, none, c.next)
    | none, some n =>
      match chomping? (c.peek 1) with
      | some chomp => (chomp, some n, c.advance 2)
      | none => (.clip, some n, c.next)
    | none, none => (.clip, none, c)
  if increment = some 0 then none
  else if endsLine (c.peek 0) || c.peek 0 = some ' ' then some (chomp, increment, c)
  else none

/-- Passes over the rest of the line of the indicators, which may hold a comment. -/
def restOfHeader (c : Cursor) : Option Cursor :=
  let c := c.skip (· = ' ')
  let c := if c.peek 0 = some '#' then c.skip (!isBreak ·) else c
  if endsLine (c.peek 0) then some c.takeBreak.2 else none

/-- Moves past spaces up to a column. -/
def skipIndent (indent : Nat) (c : Cursor) : Cursor :=
  c.advance ((c.rest.takeWhile (· = ' ')).length.min (indent - c.column))

/-- The line breaks ahead, with the spaces of an indentation before each and after the last. The
first argument bounds the number of lines. -/
def blockBreaks (indent : Nat) : Nat → Cursor → List Char × Cursor
  | 0, c => ([], skipIndent indent c)
  | bound + 1, c =>
    let c := skipIndent indent c
    match c.takeBreak with
    | ([], c) => ([], c)
    | (br, c) =>
      let (brs, c) := blockBreaks indent bound c
      (br ++ brs, c)

/-- The line breaks and spaces ahead, without the spaces, and the greatest column reached. -/
def blockIndentation : Nat → Nat → Cursor → List Char × Nat × Cursor
  | 0, widest, c => ([], widest, c)
  | bound + 1, widest, c =>
    let (spaces, c) := c.span (· = ' ')
    let widest := if spaces.isEmpty then widest else max widest c.column
    match c.takeBreak with
    | ([], c) => ([], widest, c)
    | (br, c) =>
      let (brs, widest, c) := blockIndentation bound widest c
      (br ++ brs, widest, c)

/-- Whether the line ahead starts with something other than a blank. -/
def startsSolid (c : Cursor) : Bool := c.peek 0 ≠ some ' ' && c.peek 0 ≠ some '\t'

/-- The lines of a block scalar. `breaks` stand before the first line; the result is the text
without the breaks at its end, the last break, the breaks after it and the place after them. -/
def blockLines (folded : Bool) (indent : Nat) :
    Nat → List Char → Cursor → List Char × List Char × List Char × Cursor
  | 0, breaks, c => ([], [], breaks, c)
  | bound + 1, breaks, c =>
    if c.column = indent && (c.peek 0).isSome then
      let solid := startsSolid c
      let (text, c) := c.span (!isBreak ·)
      let (br, c) := c.takeBreak
      let (next, c) := blockBreaks indent (c.size + 1) c
      let own := breaks ++ text
      if c.column = indent && (c.peek 0).isSome then
        let fold :=
          if folded && br = ['\n'] && solid && startsSolid c then
            if next.isEmpty then [' '] else []
          else br
        let (later, last, final, c) := blockLines folded indent bound next c
        (own ++ fold ++ later, last, final, c)
      else (own, br, next, c)
    else ([], [], breaks, c)

/-- The text of a block scalar that starts at its indicator, inside a collection at the column
`parent`, and the place after it. -/
def blockScalar (folded : Bool) (parent : Int) (c : Cursor) : Option (String × Cursor) := do
  let (chomp, increment, c) ← blockIndicators c.next
  let c ← restOfHeader c
  let least := max 1 (parent + 1).toNat
  let (breaks, indent, c) :=
    match increment with
    | none =>
      let (breaks, widest, c) := blockIndentation (c.size + 1) 0 c
      (breaks, max least widest, c)
    | some n =>
      let indent := least + n - 1
      let (breaks, c) := blockBreaks indent (c.size + 1) c
      (breaks, indent, c)
  let (text, last, final, c) := blockLines folded indent (c.size + 1) breaks c
  let ending := match chomp with
    | .strip => []
    | .clip => last
    | .keep => last ++ final
  return (Text.ofChars (text ++ ending), c)

end ApiSurface.Yaml
