import ApiSurface.Comment.Wrap
import ApiSurface.Identifier
import ApiSurface.Text.Blank

/-!
# Cross-references

The links of prose name a class, a member of a class behind a dot, or an argument behind `param:` or
`option:`. `CrossReference.resolve` gives the XML element for a link, and nothing for one that names
none of these.
-/

namespace ApiSurface.CrossReference

/-- The parts of a text before and after the first occurrence of a character; without one all is
before it. -/
def partition (mark : Char) (cs : List Char) : List Char × List Char :=
  (cs.takeWhile (· ≠ mark), (cs.dropWhile (· ≠ mark)).drop 1)

/-- The declared class of a name; of two the later counts. -/
def class? (classes : List ApiClass) (name : String) : Option ApiClass :=
  classes.reverse.find? (·.name = name)

/-- The member of a class with a name; of two the later counts. -/
def member? (c : ApiClass) (name : String) : Option Member :=
  c.members.reverse.find? (·.name = name)

/-- The element that refers to a declaration. -/
def seeElement (target : String) : String := "<see cref=\"" ++ target ++ "\"/>"

/-- The element that refers to an argument. -/
def argumentElement (name : String) : String := "<paramref name=\"" ++ name ++ "\"/>"

/-- The element for a link with a colon, which names an argument or nothing. -/
def resolveLabelled (label name : List Char) : Except Cause (Option String) :=
  let label := String.ofList (Text.strip label)
  if label = "param" || label = "option" then do
    let name ← Identifier.translate "argument" (String.ofList (Text.strip name)) none
    return some (argumentElement name)
  else return none

/-- The element for a link to a class or to a member of it. -/
def resolveNamed (classes : List ApiClass) (className memberName : String) :
    Except Cause (Option String) :=
  match class? classes className with
  | none => return none
  | some c => do
    let interface ← Identifier.translate "interface" className none
    if memberName = "" then return some (seeElement interface)
    else
      match member? c memberName with
      | none => return none
      | some m =>
        let name ← Identifier.translate m.kind m.name (some m)
        return some (seeElement (interface ++ "." ++ name))

/-- The element for a link, if it names something that is declared. -/
def resolve (classes : List ApiClass) : Comment.LinkResolver := fun target =>
  let cs := target.toList
  if cs.contains ':' then
    let (label, name) := partition ':' cs
    resolveLabelled label name
  else
    let (className, memberName) := partition '.' cs
    resolveNamed classes (String.ofList className) (String.ofList memberName)

end ApiSurface.CrossReference
