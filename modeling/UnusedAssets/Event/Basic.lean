/-!
# Events

What a run reports on the side: a severity, the part of the program that reports, an optional
message and named values.
-/

namespace UnusedAssets

/-- From the gravest to the most detailed. -/
inductive Severity where
  | error
  | warn
  | info
  | debug
  | trace
  deriving DecidableEq, Repr

namespace Severity

def rank : Severity → Nat
  | .error => 1
  | .warn => 2
  | .info => 3
  | .debug => 4
  | .trace => 5

def label : Severity → String
  | .error => "ERROR"
  | .warn => "WARN"
  | .info => "INFO"
  | .debug => "DEBUG"
  | .trace => "TRACE"

end Severity

inductive FieldValue where
  | text (s : String)
  | count (n : Nat)
  deriving DecidableEq, Repr

structure Event where
  severity : Severity
  /-- The part of the program that reports. -/
  origin : String
  message : Option String
  fields : List (String × FieldValue)
  deriving DecidableEq, Repr

/-- The names of an event's values; the message counts as one. -/
def Event.names (e : Event) : List String :=
  (e.message.map fun _ => "message").toList ++ e.fields.map (·.1)

end UnusedAssets
