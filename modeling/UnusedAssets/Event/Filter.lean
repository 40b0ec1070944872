import UnusedAssets.Event.Directive

/-!
# Event filters

A filter is a list of directives between commas. Of the directives about an event the most specific
decides, and of equal ones the last.
-/

namespace UnusedAssets

open Text

abbrev EventFilter := List Directive

namespace EventFilter

def standard : EventFilter := [{ rank := 2 }]

def errorsOnly : EventFilter := [{ rank := 1 }]

/-- The filter in a text; the standard one if there is no text, or no filter in it. An empty filter
lets errors pass. -/
def ofText : Option String → EventFilter
  | none => standard
  | some s =>
    match ((split s ',').filter (· ≠ "")).mapM Directive.ofText? with
    | none => standard
    | some [] => errorsOnly
    | some ds => ds

/-- The directive that decides so far and the next one about the same event. -/
def prefer (best : Option Directive) (next : Directive) : Option Directive :=
  match best with
  | none => some next
  | some d => if d.yields next then some next else some d

def decisive? (filter : EventFilter) (e : Event) : Option Directive :=
  (filter.filter (·.covers e)).foldl prefer none

def passes (filter : EventFilter) (e : Event) : Bool :=
  match filter.decisive? e with
  | none => false
  | some d => e.severity.rank ≤ d.rank

end EventFilter

end UnusedAssets
