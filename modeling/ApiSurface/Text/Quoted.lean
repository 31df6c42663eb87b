import ApiSurface.Text.Encoding
import ApiSurface.Text.Printable

/-!
# Quoted text

A text is quoted in messages by single quotes, or by double quotes if it holds a single quote and
no double one. Inside stand the characters themselves, but for the quote, the backslash and what is
not printable, which are escaped.
-/

namespace ApiSurface.Text

/-- The quote that needs the fewer escapes. -/
def quoteFor (cs : List Char) : Char :=
  if cs.contains '\'' && !cs.contains '"' then '"' else '\''

/-- One character of a quoted text: numeric escapes have two, four or eight digits. -/
def quotedChar (quote c : Char) : List Char :=
  if c = quote || c = '\\' then ['\\', c]
  else if c = '\n' then ['\\', 'n']
  else if c = '\r' then ['\\', 'r']
  else if c = '\t' then ['\\', 't']
  else if isPrintable c then [c]
  else if c.toNat < 0x100 then '\\' :: 'x' :: hexPadded 2 c.toNat
  else if c.toNat < 0x10000 then '\\' :: 'u' :: hexPadded 4 c.toNat
  else '\\' :: 'U' :: hexPadded 8 c.toNat

/-- One code of a quoted text. -/
def quotedCode (quote : Char) (code : Nat) : List Char :=
  if isHalf code then halfEscape code else quotedChar quote (Char.ofNat code)

/-- A text in quotes, on one line and with nothing invisible in it. -/
def quoted (s : String) : String :=
  let quote := quoteFor s.toList
  String.ofList (quote :: (codes s.toList).flatMap (quotedCode quote) ++ [quote])

end ApiSurface.Text
