import ApiSurface.Text.CodePoint
import ApiSurface.Text.Digit

/-!
# Encoding

Texts leave the program in UTF-8, which has no place for the halves of characters. Printing a text
and writing it to a file fail at the first half. In the name of a file some halves stand for the
bytes of names that are not in UTF-8. Messages never fail, since halves are escaped in them.
-/

namespace ApiSurface

/-- Why a text cannot be encoded: there are halves in it from one place up to another. -/
structure CodingFault where
  first : Nat
  start : Nat
  stop : Nat
deriving DecidableEq, Repr

namespace Text

/-- The escape of a half. -/
def halfEscape (code : Nat) : List Char := '\\' :: 'u' :: hexPadded 4 code

end Text

/-- A fault of encoding in words. -/
def CodingFault.message (f : CodingFault) : String :=
  let place :=
    if f.stop = f.start + 1 then
      " '" ++ String.ofList (Text.halfEscape f.first) ++ "' in position " ++ toString f.start
    else "s in position " ++ toString f.start ++ "-" ++ toString (f.stop - 1)
  "'utf-8' codec can't encode character" ++ place ++ ": surrogates not allowed"

namespace Text

/-- The first half that is not passed over, in codes that start at a place. All halves next to it
are part of the fault. -/
def codingFault? (passesOver : Nat → Bool) (place : Nat) : List Nat → Option CodingFault
  | [] => none
  | code :: rest =>
    if isHalf code && !passesOver code then
      some ⟨code, place, place + 1 + (rest.takeWhile isHalf).length⟩
    else codingFault? passesOver (place + 1) rest

/-- The characters of a text, if it holds no half. -/
def release (s : String) : Except CodingFault String :=
  let ns := codes s.toList
  match codingFault? (fun _ => false) 0 ns with
  | some fault => .error fault
  | none => .ok (String.ofList (ns.map Char.ofNat))

/-- The characters of a text, with escapes for halves. -/
def escapeHalves (s : String) : String :=
  String.ofList ((codes s.toList).flatMap fun code =>
    if isHalf code then halfEscape code else [Char.ofNat code])

/-- Whether a half stands for a byte in the name of a file. -/
def isNameByte (code : Nat) : Bool := 0xDC80 ≤ code && code < 0xDD00

/-- The number of bytes of a name with some codes. -/
def nameSize (ns : List Nat) : Nat :=
  ns.foldl (fun size code => size + if isHalf code then 1 else (Char.ofNat code).utf8Size) 0

end Text

end ApiSurface
