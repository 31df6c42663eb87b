import ApiSurface.Api.TypeExpr
import ApiSurface.Comment.Wrap
import ApiSurface.Text.Blank

/-!
# Documentation comments

`docLines` writes documentation nodes as the lines of a comment. Prose, lists and code are the
summary, notes follow as remarks. Neighbouring list items of one type share a list.
-/

namespace ApiSurface.Comment

/-- How prose is written. -/
structure ProseStyle where
  width : Int
  links : LinkResolver

/-- A comment line with a tag. -/
def tag (text : String) : String := lead ++ text

/-- The comment lines of prose. -/
def ProseStyle.prose (style : ProseStyle) (text : String) : Except Cause (List String) :=
  wrap style.links style.width text

/-- The type that a list has in a comment. -/
def listTypeName (listType : String) : String := if listType = "ordinal" then "number" else "bullet"

/-- The line that ends a list, if one is open. -/
def endOfList (openList : Option String) : List String :=
  if openList.isSome then [tag "</list>"] else []

/-- The lines that end a list of another type and start one of the given type. -/
def startOfList (openList : Option String) (listType : String) : List String :=
  if openList = some listType then []
  else endOfList openList ++ [tag ("<list type=\"" ++ listType ++ "\">")]

/-- A comment line of code, without blanks at its end. -/
def codeLine (text : String) : String :=
  String.ofList (Text.stripEnd (lead ++ Text.escapeMarkup text).toList)

/-- The lines of a node that is no list item. Prose is set apart where there are several
paragraphs. -/
def ProseStyle.block (style : ProseStyle) (severalParagraphs : Bool) (n : DocNode) :
    Except Cause (List String) :=
  if n.kind = "code" then
    .ok ([tag "<code>"] ++ n.lines.map codeLine ++ [tag "</code>"])
  else if severalParagraphs then do
    return [tag "<para>"] ++ (← style.prose n.text) ++ [tag "</para>"]
  else style.prose n.text

/-- The lines of the nodes of a summary, after a list that may still be open. -/
def ProseStyle.summaryFrom (style : ProseStyle) (severalParagraphs : Bool) :
    (openList : Option String) → List DocNode → Except Cause (List String)
  | openList, [] => .ok (endOfList openList)
  | openList, n :: ns =>
    if n.kind = "li" then do
      let listType := listTypeName n.listType
      let text ← style.prose n.text
      let later ← style.summaryFrom severalParagraphs (some listType) ns
      return startOfList openList listType ++ [tag "<item><description>"] ++ text ++
        [tag "</description></item>"] ++ later
    else do
      let own ← style.block severalParagraphs n
      let later ← style.summaryFrom severalParagraphs none ns
      return endOfList openList ++ own ++ later

/-- Whether a node is a note. -/
def isNote (n : DocNode) : Bool := n.kind = "note"

/-- The summary of some nodes, which holds those that are no notes. -/
def ProseStyle.summary (style : ProseStyle) (nodes : List DocNode) :
    Except Cause (List String) := do
  let body := nodes.filter (!isNote ·)
  if body.isEmpty then return []
  else
    let several := decide (1 < (body.filter (·.kind = "text")).length)
    return [tag "<summary>"] ++ (← style.summaryFrom several none body) ++ [tag "</summary>"]

/-- The remarks of some nodes, which hold the notes. -/
def ProseStyle.remarks (style : ProseStyle) (nodes : List DocNode) :
    Except Cause (List String) := do
  let notes := nodes.filter isNote
  if notes.isEmpty then return []
  else
    let texts ← notes.mapM fun n => style.prose n.text
    return [tag "<remarks>"] ++ texts.flatten ++ [tag "</remarks>"]

/-- The comment lines for some documentation nodes. -/
def ProseStyle.docLines (style : ProseStyle) (nodes : List DocNode) :
    Except Cause (List String) := do
  return (← style.summary nodes) ++ (← style.remarks nodes)

end ApiSurface.Comment
