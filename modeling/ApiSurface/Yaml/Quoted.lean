import ApiSurface.Text.Digit
import ApiSurface.Yaml.Cursor
import ApiSurface.Yaml.ReadFault

/-!
# Quoted scalars

A quoted scalar may run over several lines. A single line break in it reads as a space, of several
the first is dropped. Between double quotes a backslash starts an escape.
-/

namespace ApiSurface.Yaml

/-- The character that an escape of one letter stands for. -/
def shortEscape? : Char → Option Char
  | '0' => some '\x00'
  | 'a' => some '\x07'
  | 'b' => some '\x08'
  | 't' => some '\t'
  | '\t' => some '\t'
  | 'n' => some '\n'
  | 'v' => some '\x0b'
  | 'f' => some '\x0c'
  | 'r' => some '\r'
  | 'e' => some '\x1b'
  | ' ' => some ' '
  | '"' => some '"'
  | '\\' => some '\\'
  | '/' => some '/'
  | 'N' => some '\u0085'
  | '_' => some '\u00a0'
  | 'L' => some '\u2028'
  | 'P' => some '\u2029'
  | _ => none

/-- The number of hexadecimal digits after the letter of a numeric escape. -/
def escapeWidth? : Char → Option Nat
  | 'x' => some 2
  | 'u' => some 4
  | 'U' => some 8
  | _ => none

/-- The code that a given number of hexadecimal digits spells. -/
def numericEscape (width : Nat) (cs : List Char) : Except ReadFault Nat := do
  let ds := cs.take width
  if ds.length < width then throw .malformed
  else
    let values ← orMalformed (ds.mapM Text.hexValue?)
    (Text.checkCode (Numeral.ofValues 16 values)).mapError .code

/-- The line breaks ahead with the blanks around them. A line that separates documents may not
stand inside quotes. The first argument bounds the number of lines. -/
def quotedBreaks : Nat → Cursor → Except ReadFault (List Char × Cursor)
  | 0, c => .ok ([], c)
  | bound + 1, c =>
    if c.atAnySeparator then .error .malformed
    else
      let c := c.skip fun ch => ch = ' ' || ch = '\t'
      match c.takeBreak with
      | ([], c) => .ok ([], c)
      | (br, c) => (quotedBreaks bound c).map fun (brs, c) => (br ++ brs, c)

/-- The codes of the text up to a blank, a line break or the closing quote. The first argument
bounds the number of pieces. -/
def quotedWord (quote : Char) : Nat → Cursor → Except ReadFault (List Nat × Cursor)
  | 0, c => .ok ([], c)
  | bound + 1, c =>
    let stop (ch : Char) : Bool :=
      ch = '\'' || ch = '"' || ch = '\\' || ch = ' ' || ch = '\t' || isBreak ch
    let (piece, c) := c.span fun ch => !stop ch
    let piece := Text.codesOfChars piece
    let more (own : List Nat) (c : Cursor) : Except ReadFault (List Nat × Cursor) :=
      (quotedWord quote bound c).map fun (later, c) => (piece ++ own ++ later, c)
    match c.rest with
    | ch :: following =>
      if quote = '\'' then
        if ch = '\'' then
          if following.head? = some '\'' then more ['\''.toNat] (c.advance 2) else .ok (piece, c)
        else if ch = '"' || ch = '\\' then more [ch.toNat] c.next
        else .ok (piece, c)
      else if ch = '\'' then more [ch.toNat] c.next
      else if ch = '\\' then
        match following with
        | [] => .error .malformed
        | e :: digits =>
          match shortEscape? e, escapeWidth? e with
          | some x, _ => more [x.toNat] (c.advance 2)
          | none, some width => do
            let code ← numericEscape width digits
            more [code] (c.advance (2 + width))
          | none, none =>
            if isBreak e then do
              let (brs, c) ← quotedBreaks (c.size + 1) c.next.takeBreak.2
              more (Text.codesOfChars brs) c
            else .error .malformed
      else .ok (piece, c)
    | [] => .ok (piece, c)

/-- The blanks or line breaks ahead, folded. -/
def quotedSpace (c : Cursor) : Except ReadFault (List Char × Cursor) :=
  let (blanks, c) := c.span fun ch => ch = ' ' || ch = '\t'
  match c.rest with
  | [] => .error .malformed
  | ch :: _ =>
    if isBreak ch then do
      let (br, c) := c.takeBreak
      let (brs, c) ← quotedBreaks (c.size + 1) c
      let fold := if br ≠ ['\n'] then br else if brs.isEmpty then [' '] else []
      return (fold ++ brs, c)
    else .ok (blanks, c)

/-- The codes of the rest of a quoted scalar after a word, and the place after the closing quote. -/
def quotedRest (quote : Char) : Nat → Cursor → Except ReadFault (List Nat × Cursor)
  | 0, _ => .error .malformed
  | bound + 1, c =>
    if c.peek 0 = some quote then .ok ([], c.next)
    else do
      let (space, c) ← quotedSpace c
      let (word, c) ← quotedWord quote (c.size + 1) c
      let (later, c) ← quotedRest quote bound c
      return (Text.codesOfChars space ++ word ++ later, c)

/-- The text of a quoted scalar that starts at a quote, and the place after it. -/
def quotedScalar (quote : Char) (c : Cursor) : Except ReadFault (String × Cursor) := do
  let (word, c) ← quotedWord quote (c.size + 1) c.next
  let (later, c) ← quotedRest quote (c.size + 1) c
  return (Text.ofCodes (word ++ later), c)

end ApiSurface.Yaml
