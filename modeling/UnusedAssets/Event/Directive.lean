import UnusedAssets.Event.Basic
import UnusedAssets.Event.ValuePattern.WellFormed
import UnusedAssets.Text.Fields
import UnusedAssets.Text.Utf8

/-!
# Directives of event filters

A directive sets a level for some events: `level`, `target`, `target=level`, or a target before
brackets that name a span, a field between braces, or both, as in `target[span{field=value}]=level`.
A directive is read without the blanks around it, but its parts are cut out of the text with them, at
the same distances from its beginning.
-/

namespace UnusedAssets

open Text

structure FieldTest where
  name : String
  /-- Whether its value counts, and not only that it is there. -/
  valued : Bool
  deriving DecidableEq, Repr

structure Directive where
  /-- The rank of the most detailed events that pass; 0 lets nothing pass. -/
  rank : Nat
  /-- What the origins of the events begin with. -/
  target : Option String := none
  /-- The name of the span in which the events happen. -/
  span : Option String := none
  field : Option FieldTest := none
  deriving DecidableEq, Repr

def FieldTest.ofText? (s : String) : Option FieldTest :=
  match split s '=' with
  | [] => none
  | [name] => if name = "" then none else some ⟨name, false⟩
  | name :: value :: _ => if ValuePattern.isWellFormed value then some ⟨name, true⟩ else none

namespace Directive

/-- The rank that a number stands for, perhaps after a plus sign. -/
def rankOfNumber? (s : String) : Option Nat :=
  let digits := (dropLead? s "+").getD s
  if digits ≠ "" && digits.toList.all (·.isDigit) then
    let n := Nat.ofDigitChars 10 digits.toList 0
    if n ≤ 5 then some n else none
  else none

/-- The rank of a level by number or name. Capital and small letters count as the same. -/
def rankOf? (s : String) : Option Nat :=
  match rankOfNumber? s with
  | some n => some n
  | none =>
    let name := String.ofList (s.toList.map Char.toLower)
    if name = "off" then some 0
    else if name = "error" then some 1
    else if name = "warn" then some 2
    else if name = "info" then some 3
    else if name = "debug" then some 4
    else if name = "trace" then some 5
    else none

/-- The part of a text between two distances in bytes, unless they cut a character. -/
def cut? (s : String) (start stop : Nat) : Option String :=
  decode? (((encode s).drop start).take (stop - start))

def width (cs : List Char) : Nat := (String.ofList cs).utf8ByteSize

/-- The rank at the end of a directive, which begins at `start`; without one, everything passes. -/
def ending? (s : String) (start : Nat) : List Char → Option Nat
  | [] => some 5
  | '=' :: _ =>
    match cut? s (start + 1) s.utf8ByteSize with
    | none => none
    | some level => if level = "" then some 5 else rankOf? level
  | _ => none

/-- A field between braces after the name of a span, which begins at `start`. -/
def field? (s : String) (target span : Option String) (start : Nat) (cs : List Char) :
    Option Directive :=
  let text := cs.takeWhile (· ≠ '}')
  let stop := start + width text
  match cs.drop text.length with
  | '}' :: ']' :: rest =>
    match (cut? s start stop).bind FieldTest.ofText?, ending? s (stop + 2) rest with
    | some test, some rank => some ⟨rank, target, span, some test⟩
    | _, _ => none
  | _ => none

/-- What stands between brackets, which begins at `start`. -/
def brackets? (s : String) (target : Option String) (start : Nat) (cs : List Char) :
    Option Directive :=
  let text := cs.takeWhile fun c => c ≠ ']' && c ≠ '{'
  let stop := start + width text
  match cut? s start stop, cs.drop text.length with
  | some span, ']' :: rest =>
    (ending? s (stop + 1) rest).map fun rank => ⟨rank, target, some span, none⟩
  | some span, '{' :: rest =>
    field? s target (if span = "" then none else some span) (stop + 1) rest
  | _, _ => none

def opensTarget (c : Char) : Bool := c = '-' || c = ':' || c = '_' || isLetterOrNumber c

/-- A level, if the text is one, or else a target without a level. -/
def word (s : String) : Directive :=
  match rankOf? s with
  | some rank => ⟨rank, none, none, none⟩
  | none => ⟨5, some s, none, none⟩

def ofText? (s : String) : Option Directive :=
  let cs := (trim s).toList
  let text := cs.takeWhile fun c => c ≠ '=' && c ≠ '['
  let stop := width text
  match text, cs.drop text.length with
  | [], '[' :: rest => brackets? s none 1 rest
  | [], _ => none
  | c :: _, rest =>
    if opensTarget c then
      match rest, cut? s 0 stop with
      | [], _ => some (word s)
      | _, none => none
      | '[' :: rest, some target => brackets? s (some target) (stop + 1) rest
      | rest, some target => (ending? s stop rest).map fun rank => ⟨rank, some target, none, none⟩
    else none

/-- Whether a directive is about an event. No event happens inside a span. -/
def covers (d : Directive) (e : Event) : Bool :=
  d.span.isNone && d.target.all (startsWith e.origin) &&
    d.field.all fun f => !f.valued && f.name ∈ e.names

/-- Whether a directive gives way to another about the same event: to one with a longer target, and of
equal targets to one with a field, or with a field whose name is not before its own. -/
def yields (d next : Directive) : Bool :=
  let size (t : Option String) : Nat := (t.map (·.utf8ByteSize + 1)).getD 0
  if size d.target = size next.target then
    match d.field, next.field with
    | none, _ => true
    | some _, none => false
    | some f, some g => !decide (g.name < f.name)
  else size d.target < size next.target

end Directive

end UnusedAssets
