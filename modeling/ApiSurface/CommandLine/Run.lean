import ApiSurface.CommandLine.Options
import ApiSurface.Description
import ApiSurface.Files.Tree
import ApiSurface.Generation
import ApiSurface.Protocol.Channel
import ApiSurface.SourceFile

/-!
# A run of the program

A run has two parts. `prepare` reads the files and generates everything, without writing anything:
it yields the pieces to print or the steps to take. `printPieces` prints pieces until one cannot be
encoded, `perform` takes steps until one is refused. `run` is the whole program on a file tree, with
any reader of YAML.
-/

namespace ApiSurface.CommandLine

open Files (Path Tree Refusal)

/-- What came of reading a file as text. -/
inductive Reading where
  | text (s : String)
  | refused (refusal : Refusal)
  /-- The bytes of the file are no text. -/
  | undecodable

/-- What came of reading the bytes of a file. -/
def Reading.ofBytes : Except Refusal ByteArray → Reading
  | .error refusal => .refused refusal
  | .ok bytes =>
    match Files.decodeText? bytes with
    | some s => .text s
    | none => .undecodable

/-- The reason why a file that was read is no text; nothing for a text. -/
def Reading.reason (path : Path) : Reading → String
  | .text _ => ""
  | .refused refusal => refusal.message path.toString
  | .undecodable => "'utf-8' codec can't decode the bytes"

/-- The fault that a refusal is if nothing in the program expects it. -/
def uncaught? : Refusal → Option Fault
  | .nullCharacter => some .nullInPath
  | .encoding fault => some (.encoding fault)
  | _ => none

/-- One step of writing the results. -/
inductive Step where
  | ensureFolder (path : Path)
  | write (path : Path) (text : String)
  /-- A message on the progress. -/
  | report (message : String)

/-- How a run ends. -/
inductive Status where
  | code (n : Nat)
  /-- A fault that the program has no message for. -/
  | uncaught (fault : Fault)

/-- What is left to do once everything is generated. -/
inductive Job where
  /-- Ends with a code, after a message on the error stream. -/
  | stop (code : Nat) (message : String)
  | crash (fault : Fault)
  | print (pieces : List String)
  /-- Takes steps to fill a folder, given as it was asked for. -/
  | fill (folder : String) (steps : List Step)

/-- What came of the first part of a run: messages on the progress, and what is left to do. -/
structure Preparation where
  log : List String
  job : Job

/-- The settings that options ask for, given what came of reading the template. -/
def settingsOf (o : Options) (readTemplate : Path → Reading) : Except String Settings :=
  let base : Settings := { strictUnions := o.strictUnions, toolVersion := "csapi " ++ o.mode.label }
  let base := match o.width with
    | some n => { base with maxColumnWidth := n }
    | none => base
  let base := match o.namespaceName with
    | some name => { base with namespaceName := name }
    | none => base
  match o.templateFile with
  | none => .ok base
  | some file =>
    let path := Path.ofString file
    match readTemplate path with
    | .text s =>
      if Text.occursIn contentMark.toList s.toList then
        .ok { base with template := Text.ofChars s.toList }
      else .error ("template '" ++ file ++ "' has no " ++ contentMark ++ " placeholder")
    | reading => .error (reading.reason path)

/-- The text of an input file. A name that is no name of a file is a fault of its own. -/
def inputText (path : Path) (reading : Reading) : Except Fault String :=
  let unreadable := Fault.ofCause (.unreadable path.toString (reading.reason path))
  match reading with
  | .text s => .ok s
  | .refused refusal => .error ((uncaught? refusal).getD unreadable)
  | .undecodable => .error unreadable

/-- The declarations in groups; each group has a folder of its own unless its name is empty. -/
abbrev Groups := List (String × List Declaration)

/-- The log and the declarations for an API description. -/
def generateApi (yaml : Yaml.Reader) (settings : Settings) (path : Path) (reading : Reading) :
    List String × Except Fault Groups :=
  let isYaml := path.hasSuffix ".yml" || path.hasSuffix ".yaml"
  match (inputText path reading).bind (Description.read yaml isYaml) with
  | .error fault => ([], .error fault)
  | .ok classes =>
    let g := generate settings classes
    (g.log, g.outcome.map fun g => [("", g.declarations)])

/-- The declarations for a protocol. -/
def generateProtocol (yaml : Yaml.Reader) (settings : Settings) (path : Path) (reading : Reading) :
    Except Fault Groups := do
  let items ← Protocol.read yaml (← inputText path reading)
  return (← Protocol.generateChannels settings items).groups

/-- The log and the declarations for an input file. -/
def generateGroups (yaml : Yaml.Reader) (o : Options) (settings : Settings) (path : Path)
    (reading : Reading) : List String × Except Fault Groups :=
  match o.mode with
  | .api => generateApi yaml settings path reading
  | .channels => ([], generateProtocol yaml settings path reading)

/-- The pieces in which declarations are printed: each behind the name of its file, with an empty
line between two of them. -/
def pieces (settings : Settings) (ds : List Declaration) : List String :=
  ["\n"].intercalate (ds.map fun d => ["// " ++ d.fileName ++ "\n", fileText settings d.lines])

/-- The steps that write a group of declarations, and the messages on the files written. -/
def groupSteps (settings : Settings) (verbose : Bool) (folder : Path) (ds : List Declaration) :
    List Step :=
  let files := ds.map fun d => (folder.join d.fileName, fileText settings d.lines)
  .ensureFolder folder :: files.map (fun (path, text) => .write path text) ++
    (if verbose then files.map fun (path, _) => .report ("Wrote " ++ path.toString) else [])

/-- The steps that write all groups. -/
def fillSteps (settings : Settings) (verbose : Bool) (folder : String) (groups : Groups) :
    List Step :=
  groups.flatMap fun (name, ds) =>
    groupSteps settings verbose ((Path.ofString folder).join name) ds

/-- The first part of a run, given how files are read. -/
def prepare (yaml : Yaml.Reader) (o : Options) (read : Path → Reading) : Preparation :=
  match settingsOf o read with
  | .error message => ⟨[], .stop 2 ("error: " ++ message)⟩
  | .ok settings =>
    let path := Path.ofString (o.inputFile.getD "")
    let (log, outcome) := generateGroups yaml o settings path (read path)
    let log := if o.verbose then log else []
    match outcome with
    | .error (.report report) => ⟨log, .stop 1 report.message⟩
    | .error fault => ⟨log, .crash fault⟩
    | .ok groups =>
      match o.outputFolder with
      | none => ⟨log, .print (pieces settings (groups.flatMap (·.2)))⟩
      | some folder => ⟨log, .fill folder (fillSteps settings o.verbose folder groups)⟩

/-- What came of printing: the text that was printed, and the fault if there was one. -/
structure Printing where
  text : String
  fault : Option CodingFault

/-- Prints pieces up to the first that cannot be encoded, of which nothing is printed. -/
def printPieces : List String → Printing
  | [] => ⟨"", none⟩
  | piece :: later =>
    match Text.release piece with
    | .error fault => ⟨"", some fault⟩
    | .ok text =>
      let rest := printPieces later
      { rest with text := text ++ rest.text }

/-- What came of taking steps: the tree, the messages, and the refusal with its path if there was
one. -/
structure Performance where
  tree : Tree
  log : List String
  refused : Option (Path × Refusal)

/-- Takes steps up to the first that is refused. -/
def perform (tree : Tree) : List Step → Performance
  | [] => ⟨tree, [], none⟩
  | .report message :: steps =>
    let later := perform tree steps
    { later with log := message :: later.log }
  | .ensureFolder path :: steps =>
    match tree.ensureFolders path with
    | (tree, none) => perform tree steps
    | (tree, some refused) => ⟨tree, [], some refused⟩
  | .write path text :: steps =>
    match tree.writeText path text with
    | (tree, none) => perform tree steps
    | (tree, some refusal) => ⟨tree, [], some (path, refusal)⟩

/-- How a run ends that prints. -/
def Printing.status (p : Printing) : Status :=
  match p.fault with
  | none => .code 0
  | some fault => .uncaught (.encoding fault)

/-- How a run ends whose steps were all taken, or refused, and the message on a refusal. -/
def statusOf (folder : String) : Option (Path × Refusal) → Status × List String
  | none => (.code 0, [])
  | some (path, refusal) =>
    match uncaught? refusal with
    | some fault => (.uncaught fault, [])
    | none =>
      (.code 1, ["error: cannot write '" ++ folder ++ "': " ++ refusal.message path.toString])

/-- What came of a run: how it ended, what it printed, the lines on the error stream, and the
files. -/
structure Outcome where
  status : Status
  printed : String
  errorLines : List String
  tree : Tree

/-- The second part of a run on a file tree. -/
def Preparation.finish (p : Preparation) (tree : Tree) : Outcome :=
  match p.job with
  | .stop code message => ⟨.code code, "", p.log ++ [message], tree⟩
  | .crash fault => ⟨.uncaught fault, "", p.log, tree⟩
  | .print pieces =>
    let done := printPieces pieces
    ⟨done.status, done.text, p.log, tree⟩
  | .fill folder steps =>
    let done := perform tree steps
    let (status, lines) := statusOf folder done.refused
    ⟨status, "", p.log ++ done.log ++ lines, done.tree⟩

/-- A run of the program with some arguments on a file tree. -/
def run (yaml : Yaml.Reader) (args : List String) (tree : Tree) : Outcome :=
  match Options.parse args with
  | .help => ⟨.code 0, usage, [], tree⟩
  | .refused message => ⟨.code 2, "", ["error: " ++ message], tree⟩
  | .unreadable fault => ⟨.uncaught (.numeral fault), "", [], tree⟩
  | .run o => (prepare yaml o fun path => .ofBytes (tree.read path)).finish tree

end ApiSurface.CommandLine
