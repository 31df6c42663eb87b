import ApiSurface.Text.Replace

/-!
# Escaping

Two escapings, each a sequence of passes over the whole text that replace one character each. The
first pass of either escapes the character that the later ones introduce.
-/

namespace ApiSurface.Text

/-- Applies passes in order, each replacing one character by a text. -/
def replacePasses (passes : List (Char × List Char)) (cs : List Char) : List Char :=
  passes.foldl (fun acc (old, new) => replaceChar old new acc) cs

/-- What stands for the characters that a regular C# string literal cannot hold. -/
def literalPasses : List (Char × List Char) :=
  [('\\', ['\\', '\\']), ('"', ['\\', '"']), ('\n', ['\\', 'n']), ('\t', ['\\', 't']),
    ('\r', ['\\', 'r']), ('\x00', ['\\', '0'])]

/-- What stands for the characters that would be markup in an XML comment. -/
def markupPasses : List (Char × List Char) :=
  [('&', ['&', 'a', 'm', 'p', ';']), ('<', ['&', 'l', 't', ';']), ('>', ['&', 'g', 't', ';'])]

/-- The body of a C# string literal whose value is the text. -/
def escapeLiteral (s : String) : String :=
  String.ofList (replacePasses literalPasses s.toList)

/-- XML character data that reads as the text. -/
def escapeMarkup (s : String) : String :=
  String.ofList (replacePasses markupPasses s.toList)

end ApiSurface.Text
