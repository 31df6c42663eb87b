/-!
# Declarations

A rendered declaration is a list of lines, without the text of the file around it.
-/

namespace ApiSurface

/-- What a declaration declares. -/
inductive DeclarationKind where
  | interfaceType
  | classType
  | enumType
deriving DecidableEq, Repr

/-- The word for a kind of declaration. -/
def DeclarationKind.label : DeclarationKind → String
  | .interfaceType => "interface"
  | .classType => "class"
  | .enumType => "enum"

/-- A rendered declaration, which becomes one file. -/
structure Declaration where
  name : String
  kind : DeclarationKind
  lines : List String
deriving DecidableEq, Repr

namespace Declaration

/-- A line one level further in; an empty line stays empty. -/
def indentLine (unit line : String) : String := if line = "" then "" else unit ++ line

/-- Blocks of lines with an empty line between neighbours. -/
def separated : List (List String) → List String
  | [] => []
  | [block] => block
  | block :: blocks => block ++ "" :: separated blocks

/-- A declaration with a head line and a body in braces, indented by one level. -/
def braced (unit : String) (head : List String) (body : List String) : List String :=
  head ++ ["\x7b"] ++ body.map (indentLine unit) ++ ["\x7d"]

end Declaration

end ApiSurface
