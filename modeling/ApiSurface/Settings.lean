/-!
# Settings

The settings of a run, with their defaults.
-/

namespace ApiSurface

/-- The text around the declarations of a file. Three placeholders in it are replaced. -/
def defaultTemplate : String :=
  "// <auto-generated>\n" ++
  "// This file is generated by [PW_TOOL_VERSION]. Do not edit.\n" ++
  "// </auto-generated>\n" ++
  "using System;\n" ++
  "using System.Collections.Generic;\n" ++
  "using System.Runtime.Serialization;\n" ++
  "using System.Threading.Tasks;\n" ++
  "\n" ++
  "namespace [NAMESPACE]\n" ++
  "\x7b\n" ++
  "[CONTENT]\n" ++
  "\x7d\n"

/-- The settings of a run. -/
structure Settings where
  /-- The greatest width of a line of documentation. -/
  maxColumnWidth : Int := 120
  /-- Whether a union without an exact counterpart is a fault. -/
  strictUnions : Bool := false
  /-- Enums whose names and values are fixed in advance. Of two with one name the later counts. -/
  predefinedEnums : List (String × List String) := [("MixedState", ["on", "off", "mixed"])]
  namespaceName : String := "Microsoft.Playwright"
  toolVersion : String := "csapi"
  template : String := defaultTemplate
  /-- One level of indentation. -/
  indent : String := "    "
deriving DecidableEq, Repr

end ApiSurface
