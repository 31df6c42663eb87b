import ApiSurface.Yaml.Cursor

/-!
# Plain scalars

A plain scalar is a text without quotes. It goes on over the following lines as long as they are
indented more than the collection it stands in; its line breaks fold as those of quoted scalars.
-/

namespace ApiSurface.Yaml

/-- The length of the piece ahead that holds no blank and no indicator. -/
def plainLength (inFlow : Bool) : List Char → Nat
  | [] => 0
  | ch :: rest =>
    let following := rest.head?
    let flowMark (c : Char) : Bool := c = ',' || c = '[' || c = ']' || c = '{' || c = '}'
    if endsWord (some ch) then 0
    else if ch = ':' && (endsWord following || inFlow && following.any flowMark) then 0
    else if inFlow && (ch = '?' || flowMark ch) then 0
    else plainLength inFlow rest + 1

/-- The line breaks and spaces ahead, without the spaces; nothing if a line that separates documents
comes. The first argument bounds the number of lines. -/
def plainBreaks : Nat → Cursor → Option (List Char) × Cursor
  | 0, c => (some [], c)
  | bound + 1, c =>
    let c := c.skip (· = ' ')
    match c.takeBreak with
    | ([], c) => (some [], c)
    | (br, c) =>
      if c.atAnySeparator then (none, c)
      else
        let (brs, c) := plainBreaks bound c
        (brs.map (br ++ ·), c)

/-- What stands between two pieces of a plain scalar, folded, the place after it, and whether a line
has ended. It is empty where the scalar ends. -/
def plainSpace (c : Cursor) : List Char × Cursor × Bool :=
  let (spaces, c) := c.span (· = ' ')
  match c.takeBreak with
  | ([], c) => (spaces, c, false)
  | (br, c) =>
    if c.atAnySeparator then ([], c, true)
    else
      match plainBreaks (c.size + 1) c with
      | (none, c) => ([], c, true)
      | (some brs, c) =>
        let fold := if br ≠ ['\n'] then br else if brs.isEmpty then [' '] else []
        (fold ++ brs, c, true)

/-- A plain scalar up to its end: its text, the place after it and the blanks that follow, and
whether a line ended in those. -/
structure PlainScalar where
  text : List Char
  after : Cursor
  endedLine : Bool

/-- The pieces of a plain scalar, each with what stands before it. The first argument bounds their
number, `indent` is the least column of a line that continues the scalar. -/
def plainPieces (inFlow : Bool) (indent : Int) : Nat → List Char → Bool → Cursor → PlainScalar
  | 0, _, endedLine, c => ⟨[], c, endedLine⟩
  | bound + 1, space, endedLine, c =>
    let length := plainLength inFlow c.rest
    if c.peek 0 = some '#' || length = 0 then ⟨[], c, endedLine⟩
    else
      let piece := c.rest.take length
      let (between, c, ended) := plainSpace (c.advance length)
      if between.isEmpty || c.peek 0 = some '#' || (!inFlow && (c.column : Int) < indent) then
        ⟨space ++ piece, c, ended⟩
      else
        let later := plainPieces inFlow indent bound between ended c
        { later with text := space ++ piece ++ later.text }

/-- The plain scalar ahead. -/
def plainScalar (inFlow : Bool) (indent : Int) (c : Cursor) : PlainScalar :=
  plainPieces inFlow indent (c.size + 1) [] false c

end ApiSurface.Yaml
