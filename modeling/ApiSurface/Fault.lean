import ApiSurface.Number.Numeral
import ApiSurface.Text.Encoding
import ApiSurface.Value.Text

/-!
# Faults

A run ends at the first fault. Most faults are reports: a cause together with the class and the
member at which it was found, as far as they are known. `Cause.message` is the only place where
causes are put into words.
-/

namespace ApiSurface

/-- What a cause is about. -/
inductive Category where
  | general
  | malformedType
  | nameCollision
  | unsupported
  | emptyName
  | registry
  | input
deriving DecidableEq, Repr

/-- The name of a category in a report. -/
def Category.label : Category → String
  | .general => "generate"
  | .malformedType => "malformed-type"
  | .nameCollision => "name-collision"
  | .unsupported => "unsupported"
  | .emptyName => "empty-name"
  | .registry => "registry"
  | .input => "input"

/-- Why a run cannot go on. -/
inductive Cause where
  /-- A name to translate is empty; the kind says what it names. -/
  | emptyName (kind : String)
  /-- An enum literal without a letter or digit. -/
  | namelessLiteral (literal : String)
  | unknownPrimitive (name : String)
  /-- An array of arrays. -/
  | nestedArray
  /-- A union that starts with null and does not have two members. -/
  | nullableArity (count : Nat)
  /-- A union without an exact counterpart; the forms of its members. -/
  | inexactUnion (forms : List String)
  /-- A string literal that is not in a union of literals. -/
  | looseLiteral (text : String)
  /-- An object type at a place without a member. -/
  | namelessShape
  | unknownMemberKind (kind : String)
  /-- A name is taken by a declaration with another content. -/
  | nameTaken (key present added : String)
  /-- Two arguments of a method have one name. -/
  | repeatedArgument (name : String)
  /-- Two enum literals have one name. -/
  | repeatedValue (first second name : String)
  /-- Something is wrong with the type of an argument. -/
  | inArgument (name : String) (cause : Cause)
  /-- A declaration is registered after the registry was drained. -/
  | registerAfterDrain (key : String)
  | drainedTwice
  | notAClassList
  | classDeclaredTwice
  | classWithoutName (entry : Value)
  | memberWithoutName (entry : Value)
  | notAList (field : String) (value : Value)
  | emptyTypeName
  | notAType (value : Value)
  | shortUnion
  | arrayArity (count : Nat)
  | notDocumentation
  | notADocNode
  | notAProtocol
  | notAProtocolItem
  | notProperties
  | unknownChannelType (name : String)
  | unsupportedChannelType (value : Value)
  /-- A file cannot be read, for a reason given by the file system. -/
  | unreadable (path reason : String)
  /-- A text is not a document of its format. -/
  | unparsable (what format : String)
  /-- A cause stated in free words. -/
  | stated (category : Category) (text : String)
deriving DecidableEq, Repr

namespace Cause

/-- What a cause is about. A fault in an argument is about what is wrong with the argument. -/
def category : Cause → Category
  | .unknownPrimitive _ | .nestedArray | .nullableArity _ | .arrayArity _ | .unknownChannelType _
  | .unsupportedChannelType _ => .malformedType
  | .nameTaken .. | .repeatedArgument _ | .repeatedValue .. => .nameCollision
  | .inexactUnion _ | .looseLiteral _ | .namelessShape | .unknownMemberKind _ => .unsupported
  | .emptyName _ | .namelessLiteral _ => .emptyName
  | .registerAfterDrain _ | .drainedTwice => .registry
  | .notAClassList | .classDeclaredTwice | .classWithoutName _ | .memberWithoutName _
  | .notAList .. | .emptyTypeName | .notAType _ | .shortUnion | .notDocumentation | .notADocNode
  | .notAProtocol | .notAProtocolItem | .notProperties | .unreadable .. | .unparsable .. => .input
  | .inArgument _ cause => cause.category
  | .stated category _ => category

/-- A cause in words. -/
def message : Cause → String
  | .emptyName kind => "cannot translate an empty " ++ kind ++ " name"
  | .namelessLiteral literal =>
    "enum literal " ++ Text.quoted literal ++ " has no identifier characters"
  | .unknownPrimitive name => "unknown primitive type '" ++ name ++ "'"
  | .nestedArray => "multi-dimensional arrays are not supported"
  | .nullableArity count => "nullable union has " ++ toString count ++ " members, expected 2"
  | .inexactUnion forms => "no lowering for union of (" ++ ", ".intercalate forms ++ ")"
  | .looseLiteral text => "string literal " ++ text ++ " outside an enum union"
  | .namelessShape => "object shape has no member to name it after"
  | .unknownMemberKind kind => "cannot render a member of kind '" ++ kind ++ "'"
  | .nameTaken key present added =>
    "'" ++ key ++ "' is already registered as " ++ present ++ ", cannot register " ++ added
  | .repeatedArgument name =>
    "argument '" ++ name ++ "' appears more than once after flattening"
  | .repeatedValue first second name =>
    "values '" ++ first ++ "' and '" ++ second ++ "' both translate to '" ++ name ++ "'"
  | .inArgument name cause => "argument '" ++ name ++ "': " ++ cause.message
  | .registerAfterDrain key => "cannot register '" ++ key ++ "' after drain"
  | .drainedTwice => "registry has already been drained"
  | .notAClassList => "API description must be a list of classes"
  | .classDeclaredTwice => "class is declared twice"
  | .classWithoutName entry => "class entry needs a name: " ++ entry.literal
  | .memberWithoutName entry => "member entry needs a name: " ++ entry.literal
  | .notAList field value => "'" ++ field ++ "' must be a list, got " ++ value.literal
  | .emptyTypeName => "empty type name"
  | .notAType value => "type must be a string or a mapping, got " ++ value.literal
  | .shortUnion => "union needs at least two members"
  | .arrayArity count => "array has " ++ toString count ++ " templates, expected exactly 1"
  | .notDocumentation => "documentation must be a list of nodes"
  | .notADocNode => "documentation node must be a string or a mapping"
  | .notAProtocol => "protocol must be a mapping of names to items"
  | .notAProtocolItem => "protocol item must be a mapping"
  | .notProperties => "properties must be a mapping"
  | .unknownChannelType name => "unknown type '" ++ name ++ "'"
  | .unsupportedChannelType value => "unsupported protocol type " ++ value.literal
  | .unreadable path reason => "cannot read '" ++ path ++ "': " ++ reason
  | .unparsable what format => "cannot parse " ++ what ++ ": not a " ++ format ++ " document"
  | .stated _ text => text

end Cause

/-- A cause and where it was found: the class or declaration, and the member in it. An empty name
means that the place is not known. -/
structure Report where
  cause : Cause
  owner : String := ""
  member : String := ""
deriving DecidableEq, Repr

namespace Report

/-- The place of a report, with a dot between owner and member. -/
def place (r : Report) : String :=
  if r.owner ≠ "" && r.member ≠ "" then r.owner ++ "." ++ r.member
  else if r.owner ≠ "" then r.owner
  else r.member

/-- Fills in what is not known of the place. -/
def locate (owner member : String) (r : Report) : Report :=
  { r with
    owner := if r.owner = "" then owner else r.owner
    member := if r.member = "" then member else r.member }

/-- A report in words. -/
def message (r : Report) : String :=
  let head := "error: [" ++ r.cause.category.label ++ "] "
  if r.place = "" then head ++ r.cause.message else head ++ r.place ++ ": " ++ r.cause.message

end Report

/-- Why a run ends without a result. -/
inductive Fault where
  | report (r : Report)
  /-- A name is looked up that is not there. -/
  | missingKey (key : String)
  /-- Enum literals are given by a value of a type that has no items. -/
  | notIterable (typeName : String)
  /-- An integer cannot be read or written. -/
  | numeral (fault : NumeralFault)
  /-- An escape stands for no character. -/
  | code (fault : CodeFault)
  /-- A file name holds a null character. -/
  | nullInPath
  /-- A text cannot be printed, written or used as the name of a file. -/
  | encoding (fault : CodingFault)
deriving DecidableEq, Repr

/-- How much of a text that is no numeral is shown, its quotes included. -/
def NumeralFault.shownLength : Nat := 200

/-- A fault of numerals in words. -/
def NumeralFault.message : NumeralFault → String
  | .tooLong digits =>
    "Exceeds the limit (" ++ toString Numeral.maxDigits ++
      " digits) for integer string conversion: value has " ++ toString digits ++
      " digits; use sys.set_int_max_str_digits() to increase the limit"
  | .notANumeral base text =>
    "invalid literal for int() with base " ++ toString base ++ ": " ++
      String.ofList ((Text.quoted text).toList.take shownLength)
  | .unwritable =>
    "Exceeds the limit (" ++ toString Numeral.maxDigits ++
      " digits) for integer string conversion; " ++
      "use sys.set_int_max_str_digits() to increase the limit"

namespace Fault

/-- A fault with a cause whose place is not known. -/
def ofCause (c : Cause) : Fault := .report ⟨c, "", ""⟩

/-- The fault with a report that shows a value. A value that cannot be written is a fault itself. -/
def showing (v : Value) (r : Report) : Fault :=
  if v.isWritable then .report r else .numeral .unwritable

/-- Fills in what is not known of the place of a report; other faults have no place. -/
def locate (owner member : String) : Fault → Fault
  | .report r => .report (r.locate owner member)
  | fault => fault

/-- A fault in the type of an argument, reported through the method with the name of the argument. -/
def inArgument (owner method name : String) : Fault → Fault
  | .report r => .report ⟨.inArgument name r.cause, owner, method⟩
  | fault => fault

/-- A fault in words. -/
def message : Fault → String
  | .report r => r.message
  | .missingKey key => Text.quoted key
  | .notIterable typeName => "'" ++ typeName ++ "' object is not iterable"
  | .numeral fault => fault.message
  | .code fault => fault.message
  | .nullInPath => "embedded null byte"
  | .encoding fault => fault.message

end Fault

/-- The text of a value where a name or a phrase is expected, if it can be written. -/
def Value.written (v : Value) : Except Fault String :=
  if v.isWritable then .ok v.display else .error (.numeral .unwritable)

/-- A place at which faults are found. Faults in the type of an argument are reported through the
method, with the name of the argument in the message. -/
structure Place where
  owner : String := ""
  member : String := ""
  argument : Option String := none
deriving DecidableEq, Repr

namespace Place

/-- The report of a cause found at a place. -/
def report (p : Place) (c : Cause) : Report :=
  ⟨match p.argument with
    | none => c
    | some name => .inArgument name c,
    p.owner, p.member⟩

/-- The fault with a cause found at a place. -/
def blame (p : Place) (c : Cause) : Fault := .report (p.report c)

end Place

end ApiSurface
