import UnusedAssets.Event.Basic
import UnusedAssets.Report.Json

/-!
# Event lines

An event as a line of a log, after the time at which it is written: as plain text, or as a JSON
object.
-/

namespace UnusedAssets

namespace FieldValue

def plain : FieldValue → String
  | .text s => s
  | .count n => toString n

def json : FieldValue → String
  | .text s => Json.quoted s
  | .count n => toString n

end FieldValue

namespace Event

def plain (e : Event) (time : String) : String :=
  let parts := e.message.toList ++ e.fields.map fun f => f.1 ++ "=" ++ f.2.plain
  " ".intercalate ([time, e.severity.label] ++ parts)

/-- The message counts as a value of its own name. -/
def json (e : Event) (time : String) : String :=
  let fields := (e.message.toList.map fun m => ("message", FieldValue.text m)) ++ e.fields
  "\x7b\"timestamp\":" ++ Json.quoted time ++ ",\"level\":" ++ Json.quoted e.severity.label ++
    ",\"fields\":\x7b" ++
    ",".intercalate (fields.map fun f => Json.quoted f.1 ++ ":" ++ f.2.json) ++
    "\x7d,\"target\":" ++ Json.quoted e.origin ++ "\x7d"

end Event

end UnusedAssets
