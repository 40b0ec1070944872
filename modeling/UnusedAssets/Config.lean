import UnusedAssets.Analysis
import UnusedAssets.Decimal.Shortest
import UnusedAssets.Text.Shown
import UnusedAssets.Toml.Document

/-!
# Configuration

The configuration of a project is a TOML document with lists of ignore patterns and exclusions and
the choice of an output. Its keys are checked in the order of the document, and the first that is
unknown or holds a value of another shape is reported.
-/

namespace UnusedAssets

open Text Toml

structure OutputConfig where
  format : Option String := none
  script : Option String := none
  deriving DecidableEq, Repr

structure Config where
  ignore : Option (List String) := none
  exclude : Option (List String) := none
  output : Option OutputConfig := none
  deriving DecidableEq, Repr

namespace Config

inductive Fault where
  /-- It is no TOML document. -/
  | notToml
  | unknownField (name expected : String)
  | wrongType (found expected : String)
  | wrongLength (found : Nat)
  | unknownFormat (name : String)
  deriving DecidableEq, Repr

def outputShape : String := "struct OutputConfig"

def Fault.message : Fault → String
  | .notToml => "<syntax>"
  | .unknownField name expected => "TOML: unknown field `" ++ name ++ "`, expected " ++ expected
  | .wrongType found expected => "TOML: invalid type: " ++ found ++ ", expected " ++ expected
  | .wrongLength found =>
    "TOML: invalid length " ++ toString found ++ ", expected " ++ outputShape ++
      " with 2 elements"
  | .unknownFormat name =>
    "unknown output format '" ++ name ++ "' (expected \"plain\" or \"json\")"

/-- The shape of an item, as messages put it. -/
def shape : Item → String
  | .string s => "string " ++ shown s
  | .integer n => "integer `" ++ toString n ++ "`"
  | .float x => "floating point `" ++ x.text ++ "`"
  | .boolean b => "boolean `" ++ (if b then "true" else "false") ++ "`"
  | .array _ | .tables _ => "sequence"
  | .dateTime | .table .. => "map"

def readString : Item → Except Fault String
  | .string s => .ok s
  | item => .error (.wrongType (shape item) "a string")

def items? : Item → Option (List Item)
  | .array items => some items
  | .tables elements => some (elements.map (.table .opened))
  | _ => none

def readStrings (item : Item) : Except Fault (List String) :=
  match items? item with
  | some items => items.mapM readString
  | none => .error (.wrongType (shape item) "a sequence")

def outputFields : String := "`format` or `script`"

def topFields : String := "one of `ignore`, `exclude`, `output`"

def dateField : String := "$__toml_private_datetime"

def readOutputField (o : OutputConfig) (m : String × Item) : Except Fault OutputConfig :=
  if m.1 = "format" then (readString m.2).map fun s => { o with format := some s }
  else if m.1 = "script" then (readString m.2).map fun s => { o with script := some s }
  else .error (.unknownField m.1 outputFields)

/-- An output is a table, or an array of its format and its script. -/
def readOutput (item : Item) : Except Fault OutputConfig :=
  match item with
  | .table _ ms => ms.foldlM readOutputField {}
  | .dateTime => .error (.unknownField dateField outputFields)
  | _ =>
    match items? item with
    | none => .error (.wrongType (shape item) outputShape)
    | some [] => .error (.wrongLength 0)
    | some [format] =>
      match readString format with
      | .error fault => .error fault
      | .ok _ => .error (.wrongLength 1)
    | some (format :: script :: _) =>
      match readString format with
      | .error fault => .error fault
      | .ok format => (readString script).map fun script => ⟨some format, some script⟩

def readField (c : Config) (m : String × Item) : Except Fault Config :=
  if m.1 = "ignore" then (readStrings m.2).map fun xs => { c with ignore := some xs }
  else if m.1 = "exclude" then (readStrings m.2).map fun xs => { c with exclude := some xs }
  else if m.1 = "output" then (readOutput m.2).map fun o => { c with output := some o }
  else .error (.unknownField m.1 topFields)

def ofMembers (ms : Members) : Except Fault Config := ms.foldlM readField {}

def format? (c : Config) : Option String := c.output.bind (·.format)

def scriptName? (c : Config) : Option String := c.output.bind (·.script)

def lowercase (s : String) : String := String.ofList (s.toList.map Char.toLower)

/-- Whether two texts are equal, letter by letter, if capital letters of the Latin alphabet count as
small ones. -/
def equalsUpToCase (s t : String) : Bool :=
  s.toList.isEqv t.toList fun c d => c.toLower == d.toLower

def wantsJson (c : Config) : Bool :=
  match c.format? with
  | none => false
  | some f => equalsUpToCase f "json"

/-- A configuration may choose no format but the known ones. -/
def checkFormat (c : Config) : Except Fault Config :=
  match c.format? with
  | none => .ok c
  | some f =>
    if lowercase f == "plain" || lowercase f == "json" then .ok c
    else .error (.unknownFormat f)

def read (content : String) : Except Fault Config :=
  match Document.read? content with
  | none => .error .notToml
  | some ms =>
    match ofMembers ms with
    | .error fault => .error fault
    | .ok c => c.checkFormat

def Fault.failure (path : String) (fault : Fault) : Failure := .config path fault.message

def parse (path content : String) : Except Failure Config :=
  match read content with
  | .error fault => .error (fault.failure path)
  | .ok c => .ok c

def fileName : String := "deadasset.toml"

inductive LoadFailure where
  | unreadable (path : String) (fault : FileFault)
  | invalid (path : String) (fault : Fault)
  deriving DecidableEq, Repr

def LoadFailure.message : LoadFailure → String
  | .unreadable path fault => "Failed to read " ++ path ++ ": " ++ fault.message
  | .invalid path fault => "Invalid " ++ fileName ++ ": " ++ (fault.failure path).message

/-- The configuration of the project in a folder, if it has one. -/
def load (p : Project) : Except LoadFailure (Option Config) :=
  let path := p.pathTo fileName
  if p.tree.pathExists p.cwd path then
    match p.readText path with
    | .error fault => .error (.unreadable (decodeLenient path) fault)
    | .ok content =>
      match read content with
      | .error fault => .error (.invalid (decodeLenient path) fault)
      | .ok c => .ok (some c)
  else .ok none

def settings (c : Config) : Settings := ⟨c.exclude.getD [], c.ignore.getD []⟩

end Config

end UnusedAssets
