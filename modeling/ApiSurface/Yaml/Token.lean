import ApiSurface.Yaml.BlockText
import ApiSurface.Yaml.Plain
import ApiSurface.Yaml.Quoted

/-!
# Tokens

`Token.ofText` cuts a YAML text into tokens. Indentation becomes brackets: a collection in block
style starts where a line is indented more than the collection around it and ends before the first
line that is indented less. A key without `?` in front is recognised at its colon, so the token for
it is put in afterwards where the key began.
-/

namespace ApiSurface.Yaml

/-- A token of a YAML text. -/
inductive Token where
  | documentStart
  | documentEnd
  | sequenceStart
  | mappingStart
  | blockEnd
  | flowSequenceStart
  | flowSequenceEnd
  | flowMappingStart
  | flowMappingEnd
  | flowEntry
  | blockEntry
  | key
  | value
  | scalar (plain : Bool) (text : String)
deriving DecidableEq, Repr

/-- A place where a key may have begun. Keys end on the line they begin on and are not longer than
1024 characters. -/
structure PossibleKey where
  /-- The number of flow collections around it. -/
  depth : Nat
  /-- The number of tokens before it. -/
  position : Nat
  /-- Whether the text is wrong if this is no key. -/
  required : Bool
  index : Nat
  line : Nat
  column : Nat
deriving Repr

/-- How far a text has been cut. -/
structure Cutting where
  place : Cursor
  /-- The tokens so far, the last one first. -/
  tokens : List Token
  count : Nat
  /-- The number of flow collections around the place. -/
  depth : Nat
  /-- The column of the block collection around the place, `-1` outside all. -/
  indent : Int
  /-- The columns of the block collections around that one. -/
  outer : List Int
  /-- Whether a key may begin here. -/
  keyAllowed : Bool
  possible : List PossibleKey
deriving Repr

namespace Cutting

/-- The start of a text. -/
def start (text : String) : Cutting := ⟨Cursor.start text, [], 0, 0, -1, [], true, []⟩

/-- Adds a token at the end. -/
def push (t : Token) (s : Cutting) : Cutting :=
  { s with tokens := t :: s.tokens, count := s.count + 1 }

/-- Adds a token before those from a position on. -/
def insertAt (position : Nat) (t : Token) (s : Cutting) : Cutting :=
  let (after, before) := s.tokens.splitAt (s.count - position)
  { s with tokens := after ++ t :: before, count := s.count + 1 }

/-- Moves past some characters. -/
def advance (n : Nat) (s : Cutting) : Cutting := { s with place := s.place.advance n }

/-- Whether the place is too far on for a key that began at a possible place. -/
def isStale (s : Cutting) (k : PossibleKey) : Bool :=
  k.line ≠ s.place.line || 1024 < s.place.index - k.index

/-- Forgets the places where no key can have begun; a required key among them is a fault. -/
def dropStale (s : Cutting) : Except ReadFault Cutting :=
  if s.possible.any fun k => s.isStale k && k.required then .error .malformed
  else .ok { s with possible := s.possible.filter fun k => !s.isStale k }

/-- The tokens so far before which no token will be put any more. -/
def settled (s : Cutting) : List Token :=
  let places := (s.possible.filter fun k => !s.isStale k).map (·.position)
  s.tokens.reverse.take (places.foldl min s.count)

/-- Forgets the possible key of the collection around the place; a required one is a fault. -/
def dropKey (s : Cutting) : Except ReadFault Cutting :=
  if s.possible.any fun k => k.depth = s.depth && k.required then .error .malformed
  else .ok { s with possible := s.possible.filter fun k => k.depth ≠ s.depth }

/-- Notes that a key may begin at the place. -/
def noteKey (s : Cutting) : Except ReadFault Cutting :=
  if s.keyAllowed then do
    let s ← s.dropKey
    let c := s.place
    let required := s.depth = 0 && s.indent = c.column
    let k : PossibleKey := ⟨s.depth, s.count, required, c.index, c.line, c.column⟩
    return { s with possible := k :: s.possible }
  else .ok s

/-- Ends the block collections at columns beyond the given one, which are at most as many as the
columns given to search. -/
def unwindFrom (column : Int) : List Int → Cutting → Cutting
  | [], s => s
  | parent :: outer, s =>
    if column < s.indent then
      unwindFrom column outer { s.push .blockEnd with indent := parent, outer }
    else s

/-- Ends the block collections at columns beyond the given one. -/
def unwind (column : Int) (s : Cutting) : Cutting :=
  if s.depth = 0 then unwindFrom column s.outer s else s

/-- Starts a block collection at a column, unless one is there. -/
def indentTo (column : Nat) (opening : Cutting → Cutting) (s : Cutting) : Cutting :=
  if s.indent < column then
    { opening s with indent := column, outer := s.indent :: s.outer }
  else s

/-- Passes over spaces, comments and line breaks. The first argument bounds the number of lines. -/
def skipBlank : Nat → Cutting → Cutting
  | 0, s => s
  | bound + 1, s =>
    let c := s.place.skip (· = ' ')
    let c := if c.peek 0 = some '#' then c.skip (!isBreak ·) else c
    match c.takeBreak with
    | ([], c) => { s with place := c }
    | (_, c) => skipBlank bound { s with place := c, keyAllowed := s.keyAllowed || s.depth = 0 }

/-- A line that separates documents. -/
def takeSeparator (t : Token) (s : Cutting) : Except ReadFault Cutting := do
  let s ← (s.unwind (-1)).dropKey
  return ({ s with keyAllowed := false }.advance 3).push t

/-- The start of a flow collection. -/
def openFlow (t : Token) (s : Cutting) : Except ReadFault Cutting := do
  let s ← s.noteKey
  return ({ s with depth := s.depth + 1, keyAllowed := true }.advance 1).push t

/-- The end of a flow collection. -/
def closeFlow (t : Token) (s : Cutting) : Except ReadFault Cutting := do
  let s ← s.dropKey
  if s.depth = 0 then throw .malformed
  else return ({ s with depth := s.depth - 1, keyAllowed := false }.advance 1).push t

/-- The comma between the entries of a flow collection. -/
def takeFlowEntry (s : Cutting) : Except ReadFault Cutting := do
  let s ← { s with keyAllowed := true }.dropKey
  return (s.advance 1).push .flowEntry

/-- The hyphen before an item of a block sequence. -/
def takeBlockEntry (s : Cutting) : Except ReadFault Cutting := do
  if s.depth = 0 && !s.keyAllowed then throw .malformed
  else
    let s := if s.depth = 0 then s.indentTo s.place.column (push .sequenceStart) else s
    let s ← { s with keyAllowed := true }.dropKey
    return (s.advance 1).push .blockEntry

/-- The question mark before a key. -/
def takeKey (s : Cutting) : Except ReadFault Cutting := do
  if s.depth = 0 && !s.keyAllowed then throw .malformed
  else
    let s := if s.depth = 0 then s.indentTo s.place.column (push .mappingStart) else s
    let s ← { s with keyAllowed := s.depth = 0 }.dropKey
    return (s.advance 1).push .key

/-- The colon before a value. A possible key before it becomes a key. -/
def takeValue (s : Cutting) : Except ReadFault Cutting := do
  match s.possible.find? (·.depth = s.depth) with
  | some k =>
    let s := { s with possible := s.possible.filter (·.depth ≠ s.depth) }.insertAt k.position .key
    let s := if s.depth = 0 then s.indentTo k.column (insertAt k.position .mappingStart) else s
    return ({ s with keyAllowed := false }.advance 1).push .value
  | none =>
    if s.depth = 0 && !s.keyAllowed then throw .malformed
    else
      let s := if s.depth = 0 then s.indentTo s.place.column (push .mappingStart) else s
      let s ← { s with keyAllowed := s.depth = 0 }.dropKey
      return (s.advance 1).push .value

/-- A block scalar. -/
def takeBlockScalar (folded : Bool) (s : Cutting) : Except ReadFault Cutting := do
  let s ← { s with keyAllowed := true }.dropKey
  let (text, c) ← orMalformed (blockScalar folded s.indent s.place)
  return { s with place := c }.push (.scalar false text)

/-- A quoted scalar. -/
def takeQuoted (quote : Char) (s : Cutting) : Except ReadFault Cutting := do
  let s ← s.noteKey
  let (text, c) ← quotedScalar quote s.place
  return { s with place := c, keyAllowed := false }.push (.scalar false text)

/-- A plain scalar. -/
def takePlain (s : Cutting) : Except ReadFault Cutting := do
  let s ← s.noteKey
  let found := plainScalar (s.depth ≠ 0) (s.indent + 1) s.place
  return { s with place := found.after, keyAllowed := found.endedLine }.push
    (.scalar true (Text.ofChars found.text))

/-- Whether a plain scalar may start with a character that is followed by another. -/
def startsPlain (inFlow : Bool) (ch : Char) (following : Option Char) : Bool :=
  if endsWord (some ch) then false
  else if "-?:,[]\x7b\x7d#&*!|>'\"%@\x60".toList.contains ch then
    !endsWord following && (ch = '-' || (!inFlow && (ch = '?' || ch = ':')))
  else true

/-- Cuts the token that starts at the place. Directives, anchors, aliases and tags are not read. -/
def takeToken (ch : Char) (s : Cutting) : Except ReadFault Cutting :=
  let following := s.place.peek 1
  let inFlow := s.depth ≠ 0
  if s.place.column = 0 && ch = '%' then .error .malformed
  else if s.place.column = 0 && s.place.atSeparator '-' then s.takeSeparator .documentStart
  else if s.place.column = 0 && s.place.atSeparator '.' then s.takeSeparator .documentEnd
  else if ch = '[' then s.openFlow .flowSequenceStart
  else if ch = '{' then s.openFlow .flowMappingStart
  else if ch = ']' then s.closeFlow .flowSequenceEnd
  else if ch = '}' then s.closeFlow .flowMappingEnd
  else if ch = ',' then s.takeFlowEntry
  else if ch = '-' && endsWord following then s.takeBlockEntry
  else if ch = '?' && (inFlow || endsWord following) then s.takeKey
  else if ch = ':' && (inFlow || endsWord following) then s.takeValue
  else if ch = '|' && !inFlow then s.takeBlockScalar false
  else if ch = '>' && !inFlow then s.takeBlockScalar true
  else if ch = '\'' || ch = '"' then s.takeQuoted ch
  else if startsPlain inFlow ch following then s.takePlain
  else .error .malformed

/-- Cuts the next token with the blanks before it, or ends the text. -/
def step (s : Cutting) : Except ReadFault (Cutting ⊕ List Token) := do
  let s ← (s.skipBlank (s.place.size + 1)).dropStale
  let s := s.unwind s.place.column
  match s.place.peek 0 with
  | none => return .inr (← (s.unwind (-1)).dropKey).tokens.reverse
  | some ch => return .inl (← s.takeToken ch)

/-- Cuts the rest of a text. Every token takes at least one character, so the length of the text
bounds their number. -/
def finish : Nat → Cutting → Except (List Token × ReadFault) (List Token)
  | 0, s => .error (s.settled, .malformed)
  | bound + 1, s =>
    match s.step with
    | .error fault => .error (s.settled, fault)
    | .ok (.inr tokens) => .ok tokens
    | .ok (.inl s) => finish bound s

end Cutting

/-- The tokens of a text, or those that are certain before its first fault. A byte order mark at its
start is passed over. -/
def Token.ofText (text : String) : Except (List Token × ReadFault) (List Token) :=
  if text.toList.all isAllowed then
    let s := Cutting.start text
    let s := if s.place.peek 0 = some '\uFEFF' then s.advance 1 else s
    s.finish (text.length + 1)
  else .error ([], .malformed)

end ApiSurface.Yaml
