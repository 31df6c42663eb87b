/-!
# Code points

A text is a list of codes. Most are the codes of characters, but an escape can also spell one half
of a character beyond `U+FFFF` without the other half, and a text keeps such a half.

A half is no character, so the characters of a `String` hold the codes of a text: `hold` gives a half
the place of a private character, and `codes` reads the codes back. The last private characters, in
whose places the halves are, stand behind a mark; all others stand for themselves.
-/

namespace ApiSurface

/-- Why a number is no code. -/
inductive CodeFault where
  | beyondLastCharacter
  | beyondSignedWord
deriving DecidableEq, Repr

namespace CodeFault

/-- A fault of codes in words. -/
def message : CodeFault → String
  | .beyondLastCharacter => "chr() arg not in range(0x110000)"
  | .beyondSignedWord => "Python int too large to convert to C int"

end CodeFault

namespace Text

/-- The number if it is a code. Numbers that do not fit into a signed word of 32 bits are a fault of
their own. -/
def checkCode (code : Nat) : Except CodeFault Nat :=
  if 0x80000000 ≤ code then .error .beyondSignedWord
  else if 0x110000 ≤ code then .error .beyondLastCharacter
  else .ok code

/-- The codes of some characters that stand for themselves. -/
def codesOfChars (cs : List Char) : List Nat := cs.map Char.toNat

/-- Whether a code is that of one half of a character. -/
def isHalf (code : Nat) : Bool := 0xD800 ≤ code && code < 0xE000

/-- Whether two codes belong to the halves of one character. -/
def areHalves (high low : Nat) : Bool :=
  0xD800 ≤ high && high < 0xDC00 && 0xDC00 ≤ low && low < 0xE000

/-- The codes of a text in which the two halves of a character stand for the character. -/
def joinHalves : List Nat → List Nat
  | high :: low :: rest =>
    if areHalves high low then
      (0x10000 + (high - 0xD800) * 0x400 + (low - 0xDC00)) :: joinHalves rest
    else high :: joinHalves (low :: rest)
  | rest => rest

/-- How far behind a half the character is that holds it. -/
def heldOffset : Nat := 0x102000

/-- The mark of a character that stands for itself among those that hold halves. -/
def mark : Char := Char.ofNat 0x10F7FF

/-- The characters that hold a code. -/
def hold (code : Nat) : List Char :=
  if isHalf code then [Char.ofNat (code + heldOffset)]
  else if code < mark.toNat then [Char.ofNat code]
  else [mark, Char.ofNat code]

/-- The code that a character without a mark holds. -/
def heldCode (c : Char) : Nat :=
  if mark.toNat < c.toNat then c.toNat - heldOffset else c.toNat

/-- The codes that characters hold. -/
def codes : List Char → List Nat
  | c :: c' :: rest =>
    if c = mark then c'.toNat :: codes rest else heldCode c :: codes (c' :: rest)
  | [c] => [heldCode c]
  | [] => []

/-- The text with some codes. -/
def ofCodes (ns : List Nat) : String := String.ofList (ns.flatMap hold)

/-- The text with some characters. -/
def ofChars (cs : List Char) : String := ofCodes (codesOfChars cs)

end Text

end ApiSurface
