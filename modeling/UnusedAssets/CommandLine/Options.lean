import UnusedAssets.Text.Affix
import UnusedAssets.Text.Fields

/-!
# Options of the command line

Words that begin with two dashes name options. A value follows as the next word, or after an equals
sign; an option with many values takes all words up to the next option, unless its value is attached.
After a word of two dashes, all words are taken as they stand. One word names the path.
-/

namespace UnusedAssets.CommandLine

open Text

structure Options where
  path : Option String := none
  json : Bool := false
  ignore : List String := []
  exclude : List String := []
  script : Option String := none
  noScript : Bool := false
  dot : Bool := false
  dotFile : Option String := none
  explain : Option String := none
  logJson : Bool := false
  deriving DecidableEq, Repr

inductive UsageFault where
  | unknownOption (word : String)
  | missingValue (name : String)
  | unexpectedValue (name : String)
  | repeated (name : String)
  | unexpectedWord (word : String)
  deriving DecidableEq, Repr

def UsageFault.message : UsageFault → String
  | .unknownOption word => "unexpected argument '" ++ word ++ "' found"
  | .missingValue name => "a value is required for '--" ++ name ++ "' but none was supplied"
  | .unexpectedValue name => "unexpected value for '--" ++ name ++ "' found"
  | .repeated name => "the argument '--" ++ name ++ "' cannot be used multiple times"
  | .unexpectedWord word => "unexpected argument '" ++ word ++ "' found"

inductive Request where
  | run (o : Options)
  | version
  | help
  deriving DecidableEq, Repr

inductive Arity where
  | none
  | one
  | many
  deriving DecidableEq, Repr

def arity? (name : String) : Option Arity :=
  if name ∈ ["json", "no-script", "dot", "log-json"] then some .none
  else if name ∈ ["script", "dot-file", "explain"] then some .one
  else if name ∈ ["ignore", "exclude"] then some .many
  else none

namespace Options

/-- The options with a switch turned on, which no other word may have done. -/
def switchOn (o : Options) (name : String) : Except UsageFault Options :=
  let once (already : Bool) (on : Options) : Except UsageFault Options :=
    if already then .error (.repeated name) else .ok on
  match name with
  | "json" => once o.json { o with json := true }
  | "no-script" => once o.noScript { o with noScript := true }
  | "dot" => once o.dot { o with dot := true }
  | "log-json" => once o.logJson { o with logJson := true }
  | _ => .error (.unknownOption name)

/-- The options with values given to an option: at least one, and only once where one is taken. -/
def give (o : Options) (name : String) (values : List String) : Except UsageFault Options :=
  match values with
  | [] => .error (.missingValue name)
  | value :: _ =>
    let once (already : Option String) (given : Options) : Except UsageFault Options :=
      if already.isSome then .error (.repeated name) else .ok given
    match name with
    | "script" => once o.script { o with script := some value }
    | "dot-file" => once o.dotFile { o with dotFile := some value }
    | "explain" => once o.explain { o with explain := some value }
    | "ignore" => .ok { o with ignore := o.ignore ++ values }
    | "exclude" => .ok { o with exclude := o.exclude ++ values }
    | _ => .error (.unknownOption name)

/-- The options with the path, which is given once. -/
def setPath (o : Options) (word : String) : Except UsageFault Options :=
  if o.path.isSome then .error (.unexpectedWord word) else .ok { o with path := some word }

end Options

/-- The words read so far: the options, and an option that still takes values. -/
structure Reading where
  options : Options := {}
  open? : Option (String × List String) := none

def Reading.settle (r : Reading) : Except UsageFault Options :=
  match r.open? with
  | none => .ok r.options
  | some (name, values) => r.options.give name values

/-- A word that begins with two dashes: its name, and what stands after an equals sign. -/
def longOption? (word : String) : Option (String × Option String) :=
  (after? ['-', '-'] word.toList).map fun rest =>
    let name := rest.takeWhile (· ≠ '=')
    match rest.dropWhile (· ≠ '=') with
    | [] => (String.ofList name, none)
    | _ :: value => (String.ofList name, some (String.ofList value))

def readPlain (o : Options) : List String → Except UsageFault Request
  | [] => .ok (.run o)
  | word :: rest =>
    match o.setPath word with
    | .error fault => .error fault
    | .ok o => readPlain o rest

def readWord (r : Reading) (word : String) : Except UsageFault Reading :=
  match r.open? with
  | none => (r.options.setPath word).map fun o => ⟨o, none⟩
  | some (name, values) =>
    if arity? name = some .many then .ok { r with open? := some (name, values ++ [word]) }
    else (r.options.give name [word]).map fun o => ⟨o, none⟩

/-- An option by name, with the value attached to it. -/
def readOption (r : Reading) (name : String) (attached : Option String) :
    Except UsageFault Reading :=
  match arity? name, attached with
  | none, _ => .error (.unknownOption name)
  | some .none, some _ => .error (.unexpectedValue name)
  | some .none, none =>
    match r.settle with
    | .error fault => .error fault
    | .ok o => (o.switchOn name).map fun o => ⟨o, none⟩
  | some _, some value =>
    match r.settle with
    | .error fault => .error fault
    | .ok o => (o.give name [value]).map fun o => ⟨o, none⟩
  | some _, none => r.settle.map fun o => ⟨o, some (name, [])⟩

def readWords (r : Reading) : List String → Except UsageFault Request
  | [] => r.settle.map .run
  | word :: rest =>
    if word = "--" then
      match r.settle with
      | .error fault => .error fault
      | .ok o => readPlain o rest
    else
      match longOption? word with
      | some ("version", none) => r.settle.map fun _ => .version
      | some ("help", none) => r.settle.map fun _ => .help
      | some (name, attached) =>
        match readOption r name attached with
        | .error fault => .error fault
        | .ok r => readWords r rest
      | none =>
        match word.toList with
        | '-' :: 'V' :: _ => r.settle.map fun _ => .version
        | '-' :: 'h' :: _ => r.settle.map fun _ => .help
        | '-' :: _ :: _ => .error (.unknownOption word)
        | _ =>
          match readWord r word with
          | .error fault => .error fault
          | .ok r => readWords r rest

def request (words : List String) : Except UsageFault Request := readWords {} words

end UnusedAssets.CommandLine
