import UnusedAssets.Text.Affix
import UnusedAssets.Text.Fields
import UnusedAssets.Text.Utf8

/-!
# Paths

A path is a sequence of components between slashes. The component `/` stands first in an absolute
path; empty components are dropped everywhere and `.` everywhere but at the front of a relative path,
while `..` is kept, since what it means depends on links.

The bytes of a path need not spell a text. Where a text is asked for, each component is read with
replacements, so that different paths can have one text.
-/

namespace UnusedAssets.Path

open Text

def slash : UInt8 := 47

def dot : UInt8 := 46

def isAbsolute (path : Bytes) : Bool := [slash].isPrefixOf path

def endsInSlash (path : Bytes) : Bool := [slash].isSuffixOf path

/-- The non-empty parts of a path between slashes, `.` and `..` included. -/
def parts (path : Bytes) : List Bytes := (fields slash path).filter (· ≠ [])

def components (path : Bytes) : List Bytes :=
  if isAbsolute path then [slash] :: (parts path).filter (· ≠ ".")
  else match parts path with
    | [] => []
    | first :: rest => first :: rest.filter (· ≠ ".")

/-- `path` continued by `next`; an absolute `next` stands for itself. -/
def join (path next : Bytes) : Bytes :=
  if isAbsolute next then next
  else if path = [] || endsInSlash path then path ++ next
  else path ++ slash :: next

def textOf (names : List Bytes) : String := joinWith "/" (names.map decodeLenient)

/-- The text of what is left of `path` below `root`, component by component; nothing if `path` is
`root` itself or lies elsewhere. -/
def relativeTo? (root path : Bytes) : Option String :=
  match after? (components root) (components path) with
  | none => none
  | some [] => none
  | some rest => some (textOf rest)

/-- The last component, if it is a name. -/
def fileName? (path : Bytes) : Option Bytes :=
  match (components path).getLast? with
  | none => none
  | some last => if last = [slash] || last = "." || last = ".." then none else some last

/-- The parts of a name before and after its last dot; no cut is made at a dot that leads the name. -/
def cutAtLastDot (name : Bytes) : Bytes × Option Bytes :=
  match (fields dot name).reverse with
  | [] => (name, none)
  | last :: before =>
    let stem := between dot before.reverse
    if before.isEmpty || stem.isEmpty then (name, none) else (stem, some last)

/-- The text of the last component without what follows its last dot; empty if it is not a name. -/
def stem (path : Bytes) : String :=
  match fileName? path with
  | none => ""
  | some name => decodeLenient (cutAtLastDot name).1

/-- The text of the last dot of the last component and what follows it; empty if there is none. -/
def extension (path : Bytes) : String :=
  match fileName? path with
  | none => ""
  | some name =>
    match (cutAtLastDot name).2 with
    | none => ""
    | some ext => "." ++ decodeLenient ext

end UnusedAssets.Path
