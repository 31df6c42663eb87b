/-!
# Blank characters

The characters that separate words and that stripping removes: the Unicode white space together
with the four information separators `U+001C` to `U+001F`.
-/

namespace ApiSurface.Text

/-- Whether a character separates words. -/
def isBlank (c : Char) : Bool :=
  let n := c.toNat
  (0x09 ≤ n && n ≤ 0x0D) || (0x1C ≤ n && n ≤ 0x20) || n == 0x85 || n == 0xA0 || n == 0x1680 ||
    (0x2000 ≤ n && n ≤ 0x200A) || n == 0x2028 || n == 0x2029 || n == 0x202F || n == 0x205F ||
    n == 0x3000

/-- Removes the blank characters at the start. -/
def stripStart (cs : List Char) : List Char := cs.dropWhile isBlank

/-- Removes the blank characters at the end. -/
def stripEnd (cs : List Char) : List Char := (cs.reverse.dropWhile isBlank).reverse

/-- Removes the blank characters at both ends. -/
def strip (cs : List Char) : List Char := stripEnd (stripStart cs)

end ApiSurface.Text
