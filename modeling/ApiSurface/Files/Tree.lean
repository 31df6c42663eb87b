import ApiSurface.Files.Path
import ApiSurface.Text.Quoted

/-!
# File trees

A file tree is what a working folder holds. Reading, making a folder and writing a file are
functions on it that fail as a file system does. Nothing is known of what lies outside the working
folder: the folders around it and the root of the file system are there, and they hold what a run
puts there.
-/

namespace ApiSurface.Files

/-- Why a file system refuses. -/
inductive Refusal where
  | missing
  | present
  | notAFolder
  | isAFolder
  | nameTooLong
  /-- The name holds a null character and is not looked up at all. -/
  | nullCharacter
  /-- The name, or the text to write, cannot be encoded. -/
  | encoding (fault : CodingFault)
deriving DecidableEq, Repr

/-- A refusal in words, with the path that was refused. -/
def Refusal.message (path : String) : Refusal → String
  | .missing => "[Errno 2] No such file or directory: " ++ Text.quoted path
  | .present => "[Errno 17] File exists: " ++ Text.quoted path
  | .notAFolder => "[Errno 20] Not a directory: " ++ Text.quoted path
  | .isAFolder => "[Errno 21] Is a directory: " ++ Text.quoted path
  | .nameTooLong => "[Errno 36] File name too long: " ++ Text.quoted path
  | .nullCharacter => "embedded null byte"
  | .encoding fault => fault.message

/-- Why a path names no file in any tree: it cannot be encoded, or it holds a null character. -/
def Path.misnomer? (p : Path) : Option Refusal :=
  match Text.codingFault? Text.isNameByte 0 p.codes with
  | some fault => some (.encoding fault)
  | none => if p.hasNull then some .nullCharacter else none

/-- What a location holds. -/
inductive Entry where
  | folder
  | file (bytes : ByteArray)

/-- A place in a file system: the names that lead there from the working folder. Those that lead
there from a root come after that root, and those from a folder around the working folder after as
many double dots. -/
abbrev Location := List String

namespace Location

/-- Whether a location is the working folder or one of the folders around it. -/
def isAround (l : Location) : Bool := l.all (· = "..")

/-- Whether a location is a root. -/
def isRoot (l : Location) : Bool := l = ["/"] || l = ["//"]

/-- The folder that a location lies in; a root lies in itself. -/
def parent (l : Location) : Location :=
  if l.isAround then l ++ [".."] else if l.isRoot then l else l.dropLast

/-- Whether a location lies in the working folder. -/
def isInside (l : Location) : Bool :=
  match l with
  | [] => false
  | name :: _ => name ≠ ".." && name ≠ "/" && name ≠ "//"

end Location

/-- What a working folder holds. Of two entries for one location the first counts. -/
structure Tree where
  entries : List (Location × Entry) := []

/-- The number of bytes that a name may have. -/
def maxNameBytes : Nat := 255

/-- The number of bytes that a path may have. -/
def maxPathBytes : Nat := 4095

namespace Tree

/-- What a location holds. -/
def get? (t : Tree) (l : Location) : Option Entry :=
  if l.isAround || l.isRoot then some .folder else t.entries.lookup l

/-- The tree with something else at a location. -/
def put (t : Tree) (l : Location) (e : Entry) : Tree :=
  ⟨(l, e) :: t.entries.filter (·.1 ≠ l)⟩

/-- The entries in the working folder. -/
def inside (t : Tree) : List (Location × Entry) := t.entries.filter (·.1.isInside)

/-- The location that names lead to from a location. All names but the last go through folders. -/
def walk (t : Tree) : Location → List String → Except Refusal Location
  | l, [] => .ok l
  | l, name :: names =>
    match t.get? l with
    | none => .error .missing
    | some (.file _) => .error .notAFolder
    | some .folder =>
      if maxNameBytes < Text.nameSize (Text.codes name.toList) then .error .nameTooLong
      else t.walk (if name = ".." then l.parent else l ++ [name]) names

/-- The location of a path. -/
def locate (t : Tree) (p : Path) : Except Refusal Location :=
  match p.misnomer? with
  | some refusal => .error refusal
  | none =>
    if maxPathBytes < Text.nameSize p.codes then .error .nameTooLong
    else t.walk (if p.root = "" then [] else [p.root]) p.parts

/-- What a path leads to, if it leads to anything. -/
def find (t : Tree) (p : Path) : Except Refusal (Location × Option Entry) := do
  let l ← t.locate p
  return (l, t.get? l)

/-- The bytes of a file. -/
def read (t : Tree) (p : Path) : Except Refusal ByteArray := do
  match ← t.find p with
  | (_, none) => throw .missing
  | (_, some .folder) => throw .isAFolder
  | (_, some (.file bytes)) => return bytes

/-- Whether a path leads to a folder. -/
def isFolder (t : Tree) (p : Path) : Bool :=
  match t.find p with
  | .ok (_, some .folder) => true
  | _ => false

/-- Makes one folder, in a folder. -/
def makeFolder (t : Tree) (p : Path) : Except Refusal Tree := do
  match ← t.find p with
  | (l, none) => return t.put l .folder
  | (_, some _) => throw .present

/-- Writes a file, which must lie in a folder, in place of what it held. -/
def write (t : Tree) (p : Path) (bytes : ByteArray) : Except Refusal Tree := do
  match ← t.find p with
  | (_, some .folder) => throw .isAFolder
  | (l, _) => return t.put l (.file bytes)

/-- Writes a text to a file. If it cannot be encoded the file is there nevertheless, and empty. -/
def writeText (t : Tree) (p : Path) (text : String) : Tree × Option Refusal :=
  let (bytes, unwritten) := match Text.release text with
    | .ok s => (s.toUTF8, none)
    | .error fault => (.empty, some (.encoding fault))
  match t.write p bytes with
  | .ok t => (t, unwritten)
  | .error refusal => (t, some refusal)

/-- Makes a folder unless it is there. -/
def ensureFolder (t : Tree) (p : Path) : Except Refusal Tree :=
  match t.makeFolder p with
  | .ok t => .ok t
  | .error refusal => if t.isFolder p then .ok t else .error refusal

/-- Makes a folder and those it lies in, unless they are there. The names come with the last one
first; the result is the tree, and the refusal with its path if there was one. -/
def ensureFoldersFrom (root : String) : List String → Tree → Tree × Option (Path × Refusal)
  | [], t =>
    let p : Path := ⟨root, []⟩
    match t.ensureFolder p with
    | .ok t => (t, none)
    | .error refusal => (t, some (p, refusal))
  | name :: names, t =>
    let p : Path := ⟨root, (name :: names).reverse⟩
    match t.ensureFolder p with
    | .ok t => (t, none)
    | .error .missing =>
      match ensureFoldersFrom root names t with
      | (t, some refused) => (t, some refused)
      | (t, none) =>
        match t.ensureFolder p with
        | .ok t => (t, none)
        | .error refusal => (t, some (p, refusal))
    | .error refusal => (t, some (p, refusal))

/-- Makes a folder and those it lies in, unless they are there. -/
def ensureFolders (t : Tree) (p : Path) : Tree × Option (Path × Refusal) :=
  ensureFoldersFrom p.root p.parts.reverse t

end Tree

/-- Text from bytes in UTF-8, if they are that. Every kind of line end becomes a line feed. -/
def decodeText? (bytes : ByteArray) : Option String :=
  (String.fromUTF8? bytes).map fun s => String.ofList (unifyBreaks s.toList)
where
  /-- Replaces carriage returns, alone or before a line feed, by line feeds. -/
  unifyBreaks : List Char → List Char
    | '\r' :: '\n' :: cs => '\n' :: unifyBreaks cs
    | '\r' :: cs => '\n' :: unifyBreaks cs
    | c :: cs => c :: unifyBreaks cs
    | [] => []

end ApiSurface.Files
