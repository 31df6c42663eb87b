import ApiSurface.Declaration
import ApiSurface.Settings
import ApiSurface.Text.Replace

/-!
# Source files

A declaration becomes a file through the template of the settings. The placeholders are replaced one
after the other, the content last.
-/

namespace ApiSurface

/-- The place of the declaration in a template. -/
def contentMark : String := "[CONTENT]"

/-- The name of the file of a declaration. -/
def Declaration.fileName (d : Declaration) : String := d.name ++ ".cs"

/-- The content of a file: lines one level further in. -/
def fileBody (indent : String) (lines : List String) : String :=
  "\n".intercalate (lines.map (Declaration.indentLine indent))

/-- The text of the file for some lines. -/
def fileText (settings : Settings) (lines : List String) : String :=
  let withVersion := Text.replaceAll "[PW_TOOL_VERSION]" settings.toolVersion settings.template
  let withNamespace := Text.replaceAll "[NAMESPACE]" settings.namespaceName withVersion
  Text.replaceAll contentMark (fileBody settings.indent lines) withNamespace

end ApiSurface
