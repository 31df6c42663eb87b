import ApiSurface.Yaml.Token

/-!
# Nodes

`Node.ofTokens` reads the tree that the tokens of one document spell out. The scalars in it are
still texts. An empty place holds the empty plain scalar. Where the tokens spell out no tree, the
result is what is left of them from the first out of place, or nothing if more would be needed.
-/

namespace ApiSurface.Yaml

/-- A node of a document. -/
inductive Node where
  | scalar (plain : Bool) (text : String)
  | sequence (items : List Node)
  | mapping (entries : List (Node × Node))
deriving Repr, Inhabited

namespace Node

/-- The node of an empty place. -/
def empty : Node := .scalar true ""

/-- Whether the next token is one of some. -/
def ahead (ts : List Token) (among : List Token) : Bool :=
  match ts with
  | t :: _ => among.contains t
  | [] => false

/-- What a list of tokens spells out, or what is left of it from the first token out of place. -/
abbrev Parse := Except (List Token)

/-- What follows the comma before an entry of a flow collection other than the first. -/
def afterComma : (first : Bool) → List Token → Parse (List Token)
  | true, ts => .ok ts
  | false, .flowEntry :: rest => .ok rest
  | false, ts => .error ts

mutual
/-- One node. `block` allows collections in block style, `indentless` a sequence whose hyphens stand
in the column of the key before it. The first argument bounds the depth of the recursion. -/
def read : Nat → (block indentless : Bool) → List Token → Parse (Node × List Token)
  | 0, _, _, ts => .error ts
  | bound + 1, block, indentless, ts =>
    match ts with
    | .blockEntry :: _ =>
      if indentless then do
        let (items, rest) ← indentlessItems bound ts
        return (.sequence items, rest)
      else .error ts
    | .scalar plain text :: rest => .ok (.scalar plain text, rest)
    | .flowSequenceStart :: rest => do
      let (items, rest) ← flowItems bound true rest
      return (.sequence items, rest)
    | .flowMappingStart :: rest => do
      let (entries, rest) ← flowEntries bound true rest
      return (.mapping entries, rest)
    | .sequenceStart :: rest =>
      if block then do
        let (items, rest) ← blockItems bound rest
        return (.sequence items, rest)
      else .error ts
    | .mappingStart :: rest =>
      if block then do
        let (entries, rest) ← blockEntries bound rest
        return (.mapping entries, rest)
      else .error ts
    | _ => .error ts
/-- One node in block style, or an empty place before one of some tokens. -/
def readOrEmpty : Nat → (block indentless : Bool) → List Token → List Token →
    Parse (Node × List Token)
  | 0, _, _, _, ts => .error ts
  | bound + 1, block, indentless, stops, ts =>
    if ahead ts stops then .ok (empty, ts) else read bound block indentless ts
/-- The items of a block sequence and its end. -/
def blockItems : Nat → List Token → Parse (List Node × List Token)
  | 0, ts => .error ts
  | bound + 1, .blockEntry :: rest => do
    let (item, rest) ← readOrEmpty bound true false [.blockEntry, .blockEnd] rest
    let (items, rest) ← blockItems bound rest
    return (item :: items, rest)
  | _ + 1, .blockEnd :: rest => .ok ([], rest)
  | _ + 1, ts => .error ts
/-- The items of a sequence in the column of its key. -/
def indentlessItems : Nat → List Token → Parse (List Node × List Token)
  | 0, ts => .error ts
  | bound + 1, .blockEntry :: rest => do
    let (item, rest) ←
      readOrEmpty bound true false [.blockEntry, .key, .value, .blockEnd] rest
    let (items, rest) ← indentlessItems bound rest
    return (item :: items, rest)
  | _ + 1, rest => .ok ([], rest)
/-- The entries of a block mapping and its end. -/
def blockEntries : Nat → List Token → Parse (List (Node × Node) × List Token)
  | 0, ts => .error ts
  | bound + 1, .key :: rest => do
    let (key, rest) ← readOrEmpty bound true true [.key, .value, .blockEnd] rest
    let (value, rest) ← match rest with
      | .value :: rest => readOrEmpty bound true true [.key, .value, .blockEnd] rest
      | _ => .ok (empty, rest)
    let (entries, rest) ← blockEntries bound rest
    return ((key, value) :: entries, rest)
  | _ + 1, .blockEnd :: rest => .ok ([], rest)
  | _ + 1, ts => .error ts
/-- The items of a flow sequence and its end. A pair in it is a mapping of one entry. -/
def flowItems : Nat → (first : Bool) → List Token → Parse (List Node × List Token)
  | 0, _, ts => .error ts
  | bound + 1, first, ts =>
    match ts with
    | .flowSequenceEnd :: rest => .ok ([], rest)
    | _ => do
      let ts ← afterComma first ts
      match ts with
      | .flowSequenceEnd :: rest => return ([], rest)
      | .key :: rest =>
        let (key, rest) ←
          readOrEmpty bound false false [.value, .flowEntry, .flowSequenceEnd] rest
        let (value, rest) ← match rest with
          | .value :: rest => readOrEmpty bound false false [.flowEntry, .flowSequenceEnd] rest
          | _ => .ok (empty, rest)
        let (items, rest) ← flowItems bound false rest
        return (.mapping [(key, value)] :: items, rest)
      | ts =>
        let (item, rest) ← read bound false false ts
        let (items, rest) ← flowItems bound false rest
        return (item :: items, rest)
/-- The entries of a flow mapping and its end. A node on its own is a key without a value. -/
def flowEntries : Nat → (first : Bool) → List Token → Parse (List (Node × Node) × List Token)
  | 0, _, ts => .error ts
  | bound + 1, first, ts =>
    match ts with
    | .flowMappingEnd :: rest => .ok ([], rest)
    | _ => do
      let ts ← afterComma first ts
      match ts with
      | .flowMappingEnd :: rest => return ([], rest)
      | .key :: rest =>
        let (key, rest) ←
          readOrEmpty bound false false [.value, .flowEntry, .flowMappingEnd] rest
        let (value, rest) ← match rest with
          | .value :: rest => readOrEmpty bound false false [.flowEntry, .flowMappingEnd] rest
          | _ => .ok (empty, rest)
        let (entries, rest) ← flowEntries bound false rest
        return ((key, value) :: entries, rest)
      | ts =>
        let (key, rest) ← read bound false false ts
        let (entries, rest) ← flowEntries bound false rest
        return ((key, empty) :: entries, rest)
end

/-- The node of a text with at most one document, or the tokens from the first out of place. -/
def ofTokens (ts : List Token) : Parse Node :=
  let bound := 3 * ts.length + 3
  let content (ts : List Token) : Parse Node := do
    let (node, rest) ← readOrEmpty bound true false [.documentStart, .documentEnd] ts
    match rest.dropWhile (· = .documentEnd) with
    | [] => return node
    | rest => throw rest
  match ts with
  | [] => .ok empty
  | [.documentStart] => .ok empty
  | .documentStart :: rest => content rest
  | .documentEnd :: _ => .error ts
  | ts => content ts

end Node

end ApiSurface.Yaml
