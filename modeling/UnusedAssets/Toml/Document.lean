import UnusedAssets.Toml.Value

/-!
# TOML documents

A document is a sequence of sections: what stands before the first header, and each header with the
assignments after it. `Document.read?` gives the members of the document in the order in which they
came about; a table that a later header opens comes about at that header.
-/

namespace UnusedAssets.Toml

structure Section where
  /-- All parts of the header's key but the last. -/
  path : List String
  key : String
  /-- Whether the header stands in double brackets. -/
  repeats : Bool
  assignments : List Assignment

namespace Document

/-- A header with its closing brackets, up to the end of its line. -/
def headerRest (repeats : Bool) (cs : List Char) : Option (Section × List Char) :=
  match key cs with
  | none => none
  | some ((path, last), rest) =>
    let closed :=
      match repeats, rest with
      | true, ']' :: ']' :: left => some left
      | false, ']' :: left => some left
      | _, _ => none
    match closed with
    | none => none
    | some left => (lineEnd? left).map fun next => (⟨path, last, repeats, []⟩, next)

/-- One line that is not empty: a header, or an assignment. -/
def line (cs : List Char) : Option ((Section ⊕ Assignment) × List Char) :=
  match cs with
  | '[' :: '[' :: rest => (headerRest true rest).map fun r => (.inl r.1, r.2)
  | '[' :: rest => (headerRest false rest).map fun r => (.inl r.1, r.2)
  | cs =>
    match assignment (value (depthLimit - 1)) cs with
    | none => none
    | some (a, rest) => (lineEnd? rest).map fun next => (.inr a, next)

def lines (cs : List Char) : Option (List (Section ⊕ Assignment)) :=
  match skipSpace cs with
  | [] => some []
  | start =>
    let next : Option (Option (Section ⊕ Assignment) × List Char) :=
      match start with
      | '#' :: _ | '\n' :: _ | '\r' :: _ => (lineEnd? start).map fun rest => (none, rest)
      | _ => (line start).map fun (found, rest) => (some found, rest)
    match next with
    | none => none
    | some (found, rest) =>
      if rest.length < cs.length then
        (lines rest).map fun more => found.toList ++ more
      else none
termination_by cs.length

/-- The assignments before the first header, and the sections. -/
def sections : List (Section ⊕ Assignment) → List Assignment × List Section
  | [] => ([], [])
  | .inr a :: rest =>
    let (as, ss) := sections rest
    (a :: as, ss)
  | .inl s :: rest =>
    let (as, ss) := sections rest
    ([], { s with assignments := as } :: ss)

/-- The document with the table of a header taken out if a header inside it has implied it, and the
members of that table. -/
def openTable (s : Section) (ms : Members) : Option (Members × Members) :=
  let opened (inner : Members) (change : Members → Members) : Option (Members × Members) :=
    match Members.updateAt false (fun _ outer => some (change outer)) .opened s.path ms with
    | none => none
    | some ms => some (ms, inner)
  match (Members.membersAt s.path ms).get? s.key with
  | none => opened [] id
  | some (.table .implied inner) => opened inner (·.erase s.key)
  | some _ => none

def closeTable (s : Section) (table ms : Members) : Option Members :=
  Members.updateAt false
    (fun _ outer =>
      match outer.get? s.key with
      | none => some (outer ++ [(s.key, .table .opened table)])
      | some _ => none)
    .opened s.path ms

/-- The document with the array of tables of a header, empty if it is new. -/
def openTables (s : Section) (ms : Members) : Option Members :=
  Members.updateAt false
    (fun _ outer =>
      match outer.get? s.key with
      | none => some (outer ++ [(s.key, .tables [])])
      | some (.tables _) => some outer
      | some _ => none)
    .opened s.path ms

def closeTables (s : Section) (table ms : Members) : Option Members :=
  Members.updateAt false
    (fun _ outer =>
      match outer.get? s.key with
      | some (.tables elements) => some (outer.set s.key (.tables (elements ++ [table])))
      | _ => none)
    .opened s.path ms

def addSection (ms : Members) (s : Section) : Option Members :=
  if s.repeats then
    match openTables s ms with
    | none => none
    | some ms =>
      match Members.assignAll .opened [] s.assignments with
      | none => none
      | some table => closeTables s table ms
  else
    match openTable s ms with
    | none => none
    | some (ms, start) =>
      match Members.assignAll .opened start s.assignments with
      | none => none
      | some table => closeTable s table ms

/-- The members of a document; none if the text is no TOML. A mark of the byte order may lead. -/
def read? (text : String) : Option Members :=
  let start :=
    match text.toList with
    | '\uFEFF' :: cs => cs
    | cs => cs
  match lines start with
  | none => none
  | some found =>
    let (as, ss) := sections found
    match Members.assignAll .opened [] as with
    | none => none
    | some ms => ss.foldlM addSection ms

end Document

end UnusedAssets.Toml
