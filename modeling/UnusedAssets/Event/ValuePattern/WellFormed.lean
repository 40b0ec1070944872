import UnusedAssets.Event.ValuePattern.Bracket
import UnusedAssets.Text.Letter

/-!
# Patterns for values

Which texts say what the value of a field is: numbers and patterns. A pattern is a regular expression
without references to groups, without looking around, and, as long as characters count as those of any
script, without word boundaries. It must not be too deep.
-/

namespace UnusedAssets.ValuePattern

open Text

structure Level where
  mode : Mode := {}
  /-- The branches before the last one. -/
  branches : Row := {}
  /-- The elements of the last branch. -/
  elements : Row := {}
  deriving DecidableEq, Repr

namespace Level

def add (l : Level) (depth : Nat) : Level := { l with elements := l.elements.add depth }

def branch (l : Level) : Level :=
  { l with branches := l.branches.add l.elements.depth, elements := {} }

def depth (l : Level) : Nat := l.branch.branches.depth

end Level

structure State where
  level : Level := {}
  /-- The levels around, innermost first. -/
  outer : List Level := []
  /-- The names of groups. -/
  names : List String := []
  /-- The depth of the last element, if it can be repeated. -/
  last : Option Nat := none
  deriving DecidableEq, Repr

namespace State

def add (s : State) (depth : Nat) : State :=
  { s with level := s.level.add depth, last := some depth }

def inside (s : State) (mode : Mode) (names : List String) : State :=
  ⟨{ mode }, s.level :: s.outer, names, none⟩

def close? (s : State) : Option State :=
  match s.outer with
  | [] => none
  | around :: outer => some ({ s with level := around, outer }.add (s.level.depth + 1))

def repeated? (s : State) : Option State :=
  s.last.map fun depth =>
    { s with
      level := { s.level with elements := s.level.elements.deepen (depth + 1) }
      last := some (depth + 1) }

end State

/-! ## Groups -/

/-- A group with a name, which no other group has. -/
def readNamed (s : State) (cs : List Char) : Option (State × List Char) :=
  let name := cs.takeWhile (· ≠ '>')
  match name, cs.drop name.length with
  | first :: more, '>' :: rest =>
    let known := String.ofList name
    if (first = '_' || isLetter first) &&
        more.all (fun c => c ∈ "_.[]".toList || isLetterOrNumber c) && known ∉ s.names then
      some (s.inside s.level.mode (known :: s.names), rest)
    else none
  | _, _ => none

def withFlags (m : Mode) (flags : List Char) : Mode :=
  let on := flags.takeWhile (· ≠ '-')
  let set (c : Char) (old : Bool) : Bool := if c ∈ on then true else old && !(c ∈ flags)
  ⟨set 'u' m.unicode, set 'x' m.spaced⟩

/-- A group that begins with flags, or flags for the rest of a group. -/
def readFlags (s : State) (cs : List Char) : Option (State × List Char) :=
  let flags := cs.takeWhile fun c => c ≠ ':' && c ≠ ')'
  if flags.Nodup && flags.all (fun c => c ∈ "imsUuRx-".toList) && flags.getLast? ≠ some '-' then
    let mode := withFlags s.level.mode flags
    match cs.drop flags.length with
    | ':' :: rest => some (s.inside mode s.names, rest)
    | ')' :: rest =>
      if flags.isEmpty then none
      else some ({ s with level := { s.level with mode }.add 0, last := none }, rest)
    | _ => none
  else none

def readGroup (s : State) (cs : List Char) : Option (State × List Char) :=
  match s.level.mode.skip cs with
  | '?' :: 'P' :: '<' :: rest => readNamed s rest
  | '?' :: '<' :: rest => readNamed s rest
  | '?' :: rest => readFlags s rest
  | rest => some (s.inside s.level.mode s.names, rest)

/-! ## Patterns -/

/-- What follows a sign that repeats: with a question mark right after it, the fewest are meant. -/
def afterRepeat : List Char → List Char
  | '?' :: cs => cs
  | cs => cs

/-- One element of a pattern, which begins with `c`. -/
def step (s : State) (c : Char) (cs : List Char) : Option (State × List Char) :=
  let mode := s.level.mode
  if c = '(' then readGroup s cs
  else if c = ')' then s.close?.map fun s => (s, cs)
  else if c = '|' then some ({ s with level := s.level.branch, last := none }, cs)
  else if c = '[' then (readBracket mode cs).map fun found => (s.add found.1, found.2)
  else if c ∈ "?*+".toList then s.repeated?.map fun s => (s, afterRepeat cs)
  else if c = '{' then none
  else if c = '\\' then (readEscape mode cs).map fun found => (s.add 0, found.2)
  else if c = '.' && !mode.unicode then none
  else some (s.add 0, cs)

def completes (s : State) (cs : List Char) : Bool :=
  match s.level.mode.skip cs with
  | [] => s.outer.isEmpty && s.level.depth ≤ nestingLimit
  | c :: rest =>
    match step s c rest with
    | none => false
    | some (s, rest) => if rest.length < cs.length then completes s rest else false
termination_by cs.length

/-! ## Numbers -/

def isExponent : List Char → Bool
  | [] => true
  | c :: cs =>
    let digits :=
      match cs with
      | '+' :: ds => ds
      | '-' :: ds => ds
      | ds => ds
    c.toLower = 'e' && !digits.isEmpty && digits.all (·.isDigit)

def isUnsigned (cs : List Char) : Bool :=
  let whole := cs.takeWhile (·.isDigit)
  match cs.drop whole.length with
  | '.' :: rest =>
    let part := rest.takeWhile (·.isDigit)
    !(whole.isEmpty && part.isEmpty) && isExponent (rest.drop part.length)
  | rest => !whole.isEmpty && isExponent rest

/-- The texts that stand for no finite number. -/
def unboundedNames : List String := ["inf", "infinity", "nan"]

/-- Whether a text is a number with a plus sign. All other numbers are patterns anyway. -/
def isPositive : List Char → Bool
  | '+' :: cs => isUnsigned cs || String.ofList (cs.map Char.toLower) ∈ unboundedNames
  | _ => false

/-- Whether a text says which values are meant: a number, or a pattern. -/
def isWellFormed (s : String) : Bool := isPositive s.toList || completes {} s.toList

end UnusedAssets.ValuePattern
