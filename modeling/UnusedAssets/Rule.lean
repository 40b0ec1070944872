import UnusedAssets.Pattern.Source
import UnusedAssets.Reference

/-!
# Extraction rules

Each kind of source file has an ordered table of rules. A rule is a pattern and what it makes of the
groups of a match; it finds its references from left to right. `extract` runs the rules of a kind
one after the other and keeps repetitions.
-/

namespace UnusedAssets

open Text

namespace CharClass

def blanks : CharClass := ⟨[.blank], false⟩

def quotes : CharClass := ⟨[.only '\'', .only '"'], false⟩

/-- All but the quotes. -/
def unquoted : CharClass := ⟨[.only '\'', .only '"'], true⟩

/-- All but the quotes and the closing parenthesis. -/
def arguments : CharClass := ⟨[.only '\'', .only '"', .only ')'], true⟩

def opening : CharClass := ⟨[.blank, .only '\'', .only '"'], false⟩

def classNames : CharClass :=
  ⟨[.span 'A' 'Z', .span 'a' 'z', .span '0' '9', .only '\\'], false⟩

def verbs : CharClass := ⟨[.span 'a' 'z'], false⟩

def tagNames : CharClass :=
  ⟨[.span 'a' 'z', .span '0' '9', .only '.', .only '-'], false⟩

/-- All but the closing bracket. -/
def listed : CharClass := ⟨[.only ']'], true⟩

end CharClass

open CharClass

/-- What an attribute value has to end in, after a dot, to name an asset. -/
def assetExtensions : List String :=
  ["css", "js", "png", "jpg", "jpeg", "gif", "svg", "ico", "webp", "pdf", "txt"]

/-- A named pattern, and the references that a match with these groups stands for. -/
structure Rule where
  name : String
  pattern : Pattern
  references : List String → List Reference

namespace Rule

def find (r : Rule) (content : String) : List Reference :=
  (r.pattern.findAll content.toList).flatMap r.references

def ofGroup (make : String → Reference) : List String → List Reference
  | [s] => [make s]
  | _ => []

def useStatement : Rule where
  name := "use-statement"
  pattern :=
    [.piece (.literal "use"), .piece (.some blanks), .group [.some classNames],
      .piece (.literal ";")]
  references := ofGroup .classImport

def viewCall : Rule where
  name := "view-call"
  pattern :=
    [.piece (.literal "view"), .piece (.many blanks), .piece (.literal "("),
      .piece (.many opening), .group [.some arguments], .piece (.many opening)]
  references := ofGroup .view

def routeController : Rule where
  name := "route-controller"
  pattern :=
    [.piece (.literal "Route::"), .piece (.some verbs), .piece (.literal "("),
      .piece (.many opening), .group [.some unquoted], .piece (.single quotes),
      .piece (.literal ","), .piece (.many blanks), .piece (.optional "["),
      .group [.some classNames, .literal "Controller"]]
  references
    | [route, className] => [.controller route className]
    | _ => []

def inclusions : Rule where
  name := "include"
  pattern :=
    [.piece (.choice ["include", "require"]), .piece (.optional "_once"), .piece (.many blanks),
      .piece (.optional "("), .piece (.single quotes), .group [.some unquoted],
      .piece (.single quotes)]
  references := ofGroup .inclusion

/-- A name without a dot is that of a section and refers to no view. -/
def structuralDirective : Rule where
  name := "structural-directive"
  pattern :=
    [.piece (.literal "@"),
      .piece (.choice ["include", "extends", "component", "yield", "section"]),
      .piece (.many blanks), .piece (.literal "("), .piece (.many opening),
      .group [.some arguments], .piece (.many opening)]
  references
    | [name] => if '.' ∈ name.toList then [.view name] else []
    | _ => []

def componentTag : Rule where
  name := "component-tag"
  pattern := [.piece (.literal "<x-"), .group [.some tagNames]]
  references := ofGroup .component

/-- Values that lead to another host refer to no asset. -/
def assetAttribute : Rule where
  name := "asset-attribute"
  pattern :=
    [.piece (.choice ["href", "src"]), .piece (.literal "="), .piece (.single quotes),
      .group [.some unquoted, .literal ".", .choice assetExtensions], .piece (.single quotes)]
  references
    | [value] =>
      if startsWith value "http" || startsWith value "//" then [] else [.asset value]
    | _ => []

def bundlerEntry : Pattern :=
  [.piece (.single quotes), .group [.some unquoted], .piece (.single quotes)]

def bundlerList : Rule where
  name := "bundler-list"
  pattern :=
    [.piece (.literal "@vite("), .piece (.many blanks), .piece (.literal "["),
      .group [.some listed], .piece (.literal "]"), .piece (.many blanks),
      .piece (.literal ")")]
  references
    | [entries] => (bundlerEntry.findAll entries.toList).flatMap (ofGroup .bundle)
    | _ => []

def bundlerSingle : Rule where
  name := "bundler-single"
  pattern :=
    [.piece (.literal "@vite("), .piece (.many blanks), .piece (.single quotes),
      .group [.some unquoted], .piece (.single quotes), .piece (.many blanks),
      .piece (.literal ")")]
  references := ofGroup .bundle

/-- One slash is taken off the value; what then leads to another host, or to a place on the same page,
is no route. -/
def routeLink : Rule where
  name := "route-link"
  pattern :=
    [.piece (.choice ["action", "href"]), .piece (.literal "="), .piece (.single quotes),
      .piece (.optional "/"), .group [.some unquoted], .piece (.single quotes)]
  references
    | [value] =>
      if startsWith value "http" || startsWith value "#" then [] else [.routePath value]
    | _ => []

def handlerRules : List Rule := [useStatement, viewCall, routeController, inclusions]

def templateRules : List Rule :=
  [structuralDirective, componentTag, assetAttribute, bundlerList, bundlerSingle, routeLink]

/-- The rules for a kind of source file, in order. -/
def table : SourceKind → List Rule
  | .route | .handler => handlerRules
  | .template => templateRules

end Rule

/-- The references in a source file, rule by rule. -/
def extract (kind : SourceKind) (content : String) : List Reference :=
  (Rule.table kind).flatMap (·.find content)

end UnusedAssets
