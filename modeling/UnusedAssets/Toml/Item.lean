import UnusedAssets.Decimal.Binary64

/-!
# TOML items

The values of a TOML document. A table remembers how it came about, since that decides whether later
lines may add to it: `put?` adds a member at a dotted key where the rules allow it.
-/

namespace UnusedAssets.Toml

inductive TableState where
  /-- By a header of its own, or as the document. -/
  | opened
  /-- By the header of a table inside it. -/
  | implied
  /-- By a dotted key. -/
  | dotted
  /-- Between braces. -/
  | braced
  deriving DecidableEq, Repr

inductive Item where
  | string (s : String)
  | integer (n : Int)
  | float (x : Binary64)
  | boolean (b : Bool)
  | dateTime
  | array (items : List Item)
  | table (state : TableState) (members : List (String × Item))
  /-- The tables of headers in double brackets. -/
  | tables (elements : List (List (String × Item)))

/-- The members of a table, in the order in which they came about. -/
abbrev Members := List (String × Item)

namespace Members

def get? (ms : Members) (key : String) : Option Item :=
  (ms.find? fun m => m.1 == key).map (·.2)

def set (ms : Members) (key : String) (item : Item) : Members :=
  ms.map fun m => if m.1 = key then (key, item) else m

def erase (ms : Members) (key : String) : Members := ms.filter fun m => m.1 != key

/-- The members of the table that a path leads to; none if it leads nowhere. -/
def membersAt : List String → Members → Members
  | [], ms => ms
  | key :: path, ms =>
    match ms.get? key with
    | some (.table _ inner) => membersAt path inner
    | some (.tables elements) => membersAt path (elements.getLast?.getD [])
    | _ => []

/-- The members changed by `change` in the table that a path leads to from a table of the given
state. Tables that are missing on the way come about, by a dotted key or by a header; a dotted key
leads through no table that is complete, and nothing leads through a value. -/
def updateAt (dotted : Bool) (change : TableState → Members → Option Members) :
    TableState → List String → Members → Option Members
  | state, [], ms => change state ms
  | _, key :: path, ms =>
    match ms.get? key with
    | none =>
      let state := if dotted then .dotted else .implied
      (updateAt dotted change state path []).map fun inner => ms ++ [(key, .table state inner)]
    | some (.table state inner) =>
      if state = .braced || (dotted && state = .opened) then none
      else (updateAt dotted change state path inner).map fun inner =>
        ms.set key (.table state inner)
    | some (.tables elements) =>
      match elements.getLast? with
      | none => none
      | some last =>
        (updateAt dotted change .opened path last).map fun last =>
          ms.set key (.tables (elements.dropLast ++ [last]))
    | some _ => none

/-- The members of a table of the given state with an item at a dotted key. The key has to be new,
and all but its last part has to lead to a table made by dotted keys. -/
def put? (state : TableState) (path : List String) (key : String) (item : Item) (ms : Members) :
    Option Members :=
  updateAt true
    (fun state inner =>
      if (state == .dotted) == path.isEmpty then none
      else if (inner.get? key).isSome then none
      else some (inner ++ [(key, item)]))
    state path ms

end Members

structure Assignment where
  /-- All parts of the key but the last. -/
  path : List String
  key : String
  item : Item

/-- The members of a table of the given state with some assignments made, one after the other. -/
def Members.assignAll (state : TableState) (ms : Members) : List Assignment → Option Members
  | [] => some ms
  | a :: rest =>
    match ms.put? state a.path a.key a.item with
    | none => none
    | some ms => assignAll state ms rest

end UnusedAssets.Toml
