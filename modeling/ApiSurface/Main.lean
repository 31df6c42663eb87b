import ApiSurface.CommandLine.Run
import ApiSurface.Yaml.Document

/-!
# The program

Performs a run on the files and streams of the system, with `Yaml.read?` as the reader of YAML. What
is read, printed and written is decided by `CommandLine.prepare`.
-/

namespace ApiSurface.CommandLine

open Files (Path Refusal)

/-- The code of the system for a folder in place of a file. -/
def folderCode : UInt32 := 21

/-- The refusal that an error of the system stands for. -/
def refusalOf : IO.Error → Refusal
  | .alreadyExists .. => .present
  | .inappropriateType _ code _ => if code = folderCode then .isAFolder else .notAFolder
  | .invalidArgument .. => .nameTooLong
  | _ => .missing

/-- Does something with a path, or says why the system refuses. -/
def attempt (path : Path) (act : String → IO α) : IO (Except Refusal α) := do
  match path.misnomer?, Text.release path.toString with
  | some refusal, _ => return .error refusal
  | none, .error fault => return .error (.encoding fault)
  | none, .ok name =>
    try
      return .ok (← act name)
    catch e => return .error (refusalOf e)

/-- Reads a file of the system. -/
def readFile (path : Path) : IO Reading := do
  return .ofBytes (← attempt path (IO.FS.readBinFile ·))

/-- Writes a line to the error stream. -/
def printError (line : String) : IO Unit := IO.eprintln (Text.escapeHalves line)

/-- Writes a text to a file of the system, or an empty one if it cannot be encoded. -/
def writeFile (path : Path) (text : String) : IO (Except Refusal Unit) := do
  match Text.release text with
  | .ok s => attempt path (IO.FS.writeBinFile · s.toUTF8)
  | .error fault =>
    return (← attempt path (IO.FS.writeBinFile · .empty)).bind fun _ => .error (.encoding fault)

/-- Takes steps on the files of the system up to the first that is refused. -/
def performOnSystem : List Step → IO (Option (Path × Refusal))
  | [] => return none
  | .report message :: steps => do
    printError message
    performOnSystem steps
  | .ensureFolder path :: steps => do
    match ← attempt path (IO.FS.createDirAll ·) with
    | .ok () => performOnSystem steps
    | .error refusal => return some (path, refusal)
  | .write path text :: steps => do
    match ← writeFile path text with
    | .ok () => performOnSystem steps
    | .error refusal => return some (path, refusal)

/-- The code that a status ends the program with. -/
def exitWith : Status → IO UInt32
  | .code n => return n.toUInt32
  | .uncaught fault => do
    printError fault.message
    return 1

/-- Does what is left to do after the preparation of a run. -/
def finishOnSystem : Job → IO UInt32
  | .stop code message => do
    printError message
    return code.toUInt32
  | .crash fault => exitWith (.uncaught fault)
  | .print pieces => do
    let done := printPieces pieces
    IO.print done.text
    exitWith done.status
  | .fill folder steps => do
    let (status, lines) := statusOf folder (← performOnSystem steps)
    lines.forM printError
    exitWith status

/-- A run with some options. -/
def runOnSystem (o : Options) : IO UInt32 := do
  let templatePath := Path.ofString (o.templateFile.getD "")
  let template ← readFile templatePath
  let input ← readFile (Path.ofString (o.inputFile.getD ""))
  let preparation := prepare Yaml.read? o fun path => if path = templatePath then template else input
  preparation.log.forM printError
  finishOnSystem preparation.job

end ApiSurface.CommandLine

open ApiSurface.CommandLine in
/-- Runs the program with its arguments. -/
def main (args : List String) : IO UInt32 := do
  match Options.parse (args.map fun arg => ApiSurface.Text.ofChars arg.toList) with
  | .help =>
    IO.print usage
    return 0
  | .refused message =>
    printError ("error: " ++ message)
    return 2
  | .unreadable fault => exitWith (.uncaught (.numeral fault))
  | .run o => runOnSystem o
