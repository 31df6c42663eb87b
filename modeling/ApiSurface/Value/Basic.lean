import ApiSurface.Number.Binary64

/-!
# Document values

What a JSON or YAML document holds. A mapping keeps the order of its keys. Integers and floating
point numbers are different values, yet a key is found by numeric value: `true`, `1` and `1.0` are
one key.
-/

namespace ApiSurface

/-- A value of a document. The entries of a mapping have pairwise different keys. -/
inductive Value where
  | null
  | bool (b : Bool)
  | int (n : Int)
  | float (x : Binary64)
  | text (s : String)
  | list (items : List Value)
  | map (entries : List (Value × Value))
deriving Repr, Inhabited

namespace Value

mutual
/-- Decides whether two values are the same. -/
def decEq : (a b : Value) → Decidable (a = b)
  | .null, b => match b with
    | .null => isTrue rfl
    | .bool _ | .int _ | .float _ | .text _ | .list _ | .map _ => isFalse nofun
  | .bool a, b => match b with
    | .bool b => if h : a = b then isTrue (h ▸ rfl) else isFalse fun e => h (Value.bool.inj e)
    | .null | .int _ | .float _ | .text _ | .list _ | .map _ => isFalse nofun
  | .int a, b => match b with
    | .int b => if h : a = b then isTrue (h ▸ rfl) else isFalse fun e => h (Value.int.inj e)
    | .null | .bool _ | .float _ | .text _ | .list _ | .map _ => isFalse nofun
  | .float a, b => match b with
    | .float b => if h : a = b then isTrue (h ▸ rfl) else isFalse fun e => h (Value.float.inj e)
    | .null | .bool _ | .int _ | .text _ | .list _ | .map _ => isFalse nofun
  | .text a, b => match b with
    | .text b => if h : a = b then isTrue (h ▸ rfl) else isFalse fun e => h (Value.text.inj e)
    | .null | .bool _ | .int _ | .float _ | .list _ | .map _ => isFalse nofun
  | .list a, b => match b with
    | .list b => match decEqItems a b with
      | isTrue h => isTrue (h ▸ rfl)
      | isFalse h => isFalse fun e => h (Value.list.inj e)
    | .null | .bool _ | .int _ | .float _ | .text _ | .map _ => isFalse nofun
  | .map a, b => match b with
    | .map b => match decEqEntries a b with
      | isTrue h => isTrue (h ▸ rfl)
      | isFalse h => isFalse fun e => h (Value.map.inj e)
    | .null | .bool _ | .int _ | .float _ | .text _ | .list _ => isFalse nofun
/-- Decides whether two lists of values are the same. -/
def decEqItems : (as bs : List Value) → Decidable (as = bs)
  | [], [] => isTrue rfl
  | [], _ :: _ => isFalse nofun
  | _ :: _, [] => isFalse nofun
  | a :: as, b :: bs =>
    match decEq a b, decEqItems as bs with
    | isTrue h, isTrue h' => isTrue (h ▸ h' ▸ rfl)
    | isFalse h, _ => isFalse fun e => h (List.cons.inj e).1
    | _, isFalse h => isFalse fun e => h (List.cons.inj e).2
/-- Decides whether two lists of entries are the same. -/
def decEqEntries : (as bs : List (Value × Value)) → Decidable (as = bs)
  | [], [] => isTrue rfl
  | [], _ :: _ => isFalse nofun
  | _ :: _, [] => isFalse nofun
  | (k, v) :: as, (k', v') :: bs =>
    match decEq k k', decEq v v', decEqEntries as bs with
    | isTrue h, isTrue h', isTrue h'' => isTrue (h ▸ h' ▸ h'' ▸ rfl)
    | isFalse h, _, _ => isFalse fun e => h (Prod.mk.inj (List.cons.inj e).1).1
    | _, isFalse h, _ => isFalse fun e => h (Prod.mk.inj (List.cons.inj e).1).2
    | _, _, isFalse h => isFalse fun e => h (List.cons.inj e).2
end

instance : DecidableEq Value := decEq

/-- Whether a value counts as true: null, false, zero and whatever is empty do not. -/
def truthy : Value → Bool
  | .null => false
  | .bool b => b
  | .int n => n != 0
  | .float x => !x.isZero
  | .text s => s != ""
  | .list items => !items.isEmpty
  | .map entries => !entries.isEmpty

/-- The integer that a value is equal to as a key. -/
def keyInt? : Value → Option Int
  | .bool b => some (if b then 1 else 0)
  | .int n => some n
  | .float x => x.toInt?
  | _ => none

/-- Whether two values are one key. -/
def sameKey (a b : Value) : Bool :=
  match a.keyInt?, b.keyInt? with
  | some m, some n => m == n
  | none, none => decide (a = b)
  | _, _ => false

/-- Whether a value may be a key: lists and mappings may not. -/
def isKey : Value → Bool
  | .list _ | .map _ => false
  | _ => true

/-- Adds an entry at the end; a key that is there keeps its place and takes the new value. -/
def insert (key value : Value) : List (Value × Value) → List (Value × Value)
  | [] => [(key, value)]
  | (k, v) :: rest =>
    if k.sameKey key then (k, value) :: rest else (k, v) :: insert key value rest

/-- The mapping that results from adding entries one after the other. -/
def ofEntries (entries : List (Value × Value)) : Value :=
  .map (entries.foldl (fun acc (k, v) => insert k v acc) [])

/-- The value under a text key. -/
def field? (name : String) : List (Value × Value) → Option Value
  | [] => none
  | (k, v) :: rest => if k = .text name then some v else field? name rest

end Value

end ApiSurface
