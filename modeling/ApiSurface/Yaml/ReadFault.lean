import ApiSurface.Number.Numeral
import ApiSurface.Text.CodePoint
import ApiSurface.Value.Basic

/-!
# Readers of YAML

The program takes its reader of YAML from a library, so what is made of documents is defined for any
reader. Most texts that cannot be read are simply no YAML. Numbers that a well-formed text spells can
be at fault too: the digits of an integer, and the code in an escape.
-/

namespace ApiSurface.Yaml

/-- Why a text cannot be read. -/
inductive ReadFault where
  /-- The text is no YAML, or has a key that may not be one. -/
  | malformed
  /-- An integer cannot be read from its digits. -/
  | numeral (fault : NumeralFault)
  /-- An escape stands for no character. -/
  | code (fault : CodeFault)
deriving DecidableEq, Repr

/-- A reader of YAML, which yields the value of a text. -/
abbrev Reader := String → Except ReadFault Value

/-- The result of reading a part of a text; a part that is not there is a fault of the text. -/
def orMalformed {α : Type} : Option α → Except ReadFault α
  | some a => .ok a
  | none => .error .malformed

end ApiSurface.Yaml
