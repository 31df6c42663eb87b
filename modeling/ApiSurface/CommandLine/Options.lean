import ApiSurface.Fault

/-!
# Command-line options

`Options.parse` reads the arguments of the program from left to right. A later option of a kind wins
over an earlier one, and the first mistake ends the reading.
-/

namespace ApiSurface.CommandLine

/-- What the input file describes. -/
inductive Mode where
  | api
  | channels
deriving DecidableEq, Repr

/-- The word for a mode. -/
def Mode.label : Mode → String
  | .api => "api"
  | .channels => "channels"

/-- The mode for a word. -/
def Mode.ofLabel? (s : String) : Option Mode :=
  if s = "api" then some .api else if s = "channels" then some .channels else none

/-- The options of a run. -/
structure Options where
  mode : Mode := .api
  inputFile : Option String := none
  outputFolder : Option String := none
  width : Option Nat := none
  strictUnions : Bool := false
  namespaceName : Option String := none
  templateFile : Option String := none
  verbose : Bool := false
deriving DecidableEq, Repr

/-- What the arguments ask for. -/
inductive Request where
  /-- A run with options, which name an input file. -/
  | run (options : Options)
  | help
  /-- The arguments are refused, with a message. -/
  | refused (message : String)
  /-- A number among the arguments cannot be read. -/
  | unreadable (fault : NumeralFault)
deriving DecidableEq, Repr

/-- The help text. -/
def usage : String :=
  "csapi [OPTIONS] INPUT\n" ++
  "\n" ++
  "Generate C# declarations from an API description (JSON or YAML) or, with\n" ++
  "--mode channels, from a protocol description (YAML).\n" ++
  "\n" ++
  "Options:\n" ++
  "  --mode MODE         What INPUT describes: api (default), channels\n" ++
  "  -o, --output DIR    Write one .cs file per declaration into DIR\n" ++
  "                      (default: print all declarations to stdout)\n" ++
  "  --width N           Maximum documentation column width (default: 120)\n" ++
  "  --strict-unions     Reject unions that have no exact C# lowering\n" ++
  "  --namespace NS      Namespace for generated files\n" ++
  "  --template FILE     File template with a [CONTENT] placeholder\n" ++
  "  --verbose           Report progress on stderr\n" ++
  "  --help              Show this help message\n"

/-- The least width that can be asked for. -/
def minWidth : Nat := 20

/-- The options that a word and the argument after it set together. -/
def valueOptions : List String :=
  ["--mode", "-o", "--output", "--width", "--namespace", "--template"]

namespace Options

/-- Sets the width of documentation. Digits of any script count, but some digits make no number. -/
def setWidth (o : Options) (value : String) : Except Request Options :=
  let refusal : Request := .refused "--width needs a number of at least 20"
  if value = "" || !value.toList.all Text.isDigit then .error refusal
  else
    match Numeral.anyScript? value with
    | .error fault => .error (.unreadable fault)
    | .ok n => if n < minWidth then .error refusal else .ok { o with width := some n }

/-- Sets one of the options that take a value. -/
def set (o : Options) (name value : String) : Except Request Options :=
  if name = "--mode" then
    match Mode.ofLabel? value with
    | some mode => .ok { o with mode }
    | none => .error (.refused ("unknown mode '" ++ value ++ "'"))
  else if name = "--width" then o.setWidth value
  else if name = "--namespace" then .ok { o with namespaceName := some value }
  else if name = "--template" then .ok { o with templateFile := some value }
  else .ok { o with outputFolder := some value }

/-- Sets the input file, once. -/
def setInput (o : Options) (arg : String) : Except Request Options :=
  if arg.startsWith "-" then .error (.refused ("unknown flag '" ++ arg ++ "'"))
  else if o.inputFile.isSome then .error (.refused ("unexpected argument '" ++ arg ++ "'"))
  else .ok { o with inputFile := some arg }

/-- Reads the arguments that are left, with the options so far. -/
def parseFrom (o : Options) : List String → Request
  | [] => if o.inputFile.isNone then .refused "missing input file" else .run o
  | arg :: args =>
    if arg = "--help" || arg = "-h" then .help
    else if valueOptions.contains arg then
      match args with
      | [] => .refused (arg ++ " requires an argument")
      | value :: args =>
        match o.set arg value with
        | .error request => request
        | .ok o => parseFrom o args
    else if arg = "--strict-unions" then parseFrom { o with strictUnions := true } args
    else if arg = "--verbose" then parseFrom { o with verbose := true } args
    else
      match o.setInput arg with
      | .error request => request
      | .ok o => parseFrom o args

/-- What the arguments of the program ask for. -/
def parse (args : List String) : Request := parseFrom {} args

end Options

end ApiSurface.CommandLine
