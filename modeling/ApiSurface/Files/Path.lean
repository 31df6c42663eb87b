import ApiSurface.Text.Encoding
import ApiSurface.Text.Runs

/-!
# Paths

A path is a list of names below a root. Empty names and single dots have no meaning; double dots are
kept, since what they lead to depends on the file system.
-/

namespace ApiSurface.Files

/-- A path. The root is empty for a path that starts in the working folder; exactly two slashes in
front are a root of their own. -/
structure Path where
  root : String
  parts : List String
deriving DecidableEq, Repr

namespace Path

/-- The root that a text starts with. -/
def rootOf : List Char → String
  | '/' :: '/' :: '/' :: _ => "/"
  | '/' :: '/' :: _ => "//"
  | '/' :: _ => "/"
  | _ => ""

/-- The path that a text spells. -/
def ofString (s : String) : Path :=
  let cs := s.toList
  ⟨rootOf cs, ((Text.runs (· ≠ '/') cs).map String.ofList).filter (· ≠ ".")⟩

/-- The spelling of a path. -/
def toString (p : Path) : String :=
  if p.root = "" && p.parts.isEmpty then "." else p.root ++ "/".intercalate p.parts

/-- The path that a text spells below another path; one with a root stands for itself. -/
def join (p : Path) (s : String) : Path :=
  let q := ofString s
  if q.root ≠ "" then q else { p with parts := p.parts ++ q.parts }

/-- Whether the last name of a path ends in a suffix that starts with a dot, with something else in
front. -/
def hasSuffix (suffix : String) (p : Path) : Bool :=
  match p.parts.getLast? with
  | some name => name.endsWith suffix && name ≠ suffix
  | none => false

/-- The codes of the spelling of a path. -/
def codes (p : Path) : List Nat :=
  Text.codes p.root.toList ++ ['/'.toNat].intercalate (p.parts.map fun name => Text.codes name.toList)

/-- Whether a name in a path holds a null character, which no file system takes. -/
def hasNull (p : Path) : Bool := p.parts.any (·.toList.contains '\x00')

end Path

end ApiSurface.Files
