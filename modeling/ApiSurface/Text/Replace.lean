/-!
# Replacing text

`replaceAll old new` replaces the occurrences of `old` that a reader meets from the left; an
occurrence that overlaps an earlier one is passed over. `replaceChar` is the case of one character.
-/

namespace ApiSurface.Text

/-- Replaces one character by a text wherever it occurs. -/
def replaceChar (old : Char) (new : List Char) (cs : List Char) : List Char :=
  cs.flatMap fun c => if c = old then new else [c]

/-- Replaces the occurrences of `old` in a text of which `skip` characters belong to an occurrence
that has been replaced already. -/
def replaceFrom (old new : List Char) : Nat → List Char → List Char
  | _, [] => []
  | skip + 1, _ :: cs => replaceFrom old new skip cs
  | 0, c :: cs =>
    if old.isPrefixOf (c :: cs) then new ++ replaceFrom old new (old.length - 1) cs
    else c :: replaceFrom old new 0 cs

/-- Replaces every occurrence of the text `old`, which is not empty, from the left. -/
def replaceAll (old new : String) (s : String) : String :=
  String.ofList (replaceFrom old.toList new.toList 0 s.toList)

/-- Whether `part` occurs in a text. -/
def occursIn (part : List Char) : List Char → Bool
  | [] => part.isEmpty
  | c :: cs => part.isPrefixOf (c :: cs) || occursIn part cs

end ApiSurface.Text
