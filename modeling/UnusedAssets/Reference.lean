/-!
# References between project files

A reference is a piece of text in a source file that names another file or a route. What kind of
source file it is decides which references are looked for.
-/

namespace UnusedAssets

inductive SourceKind where
  /-- A file directly under the routes directory. -/
  | route
  /-- A controller. -/
  | handler
  /-- A Blade view. -/
  | template
  deriving DecidableEq, Repr

def SourceKind.label : SourceKind → String
  | .route => "route"
  | .handler => "handler"
  | .template => "template"

/-- A reference as it stands in the text, before it is resolved. -/
inductive Reference where
  /-- A class named by an import. -/
  | classImport (name : String)
  /-- A view, by its dotted name. -/
  | view (name : String)
  /-- A controller class, bound to a route. -/
  | controller (route className : String)
  /-- A script, by its path. -/
  | inclusion (path : String)
  /-- A component, by the dotted name of its tag. -/
  | component (name : String)
  /-- A public file, by the value of an attribute. -/
  | asset (value : String)
  /-- An entry of the bundler. -/
  | bundle (path : String)
  /-- A link that may name a route. -/
  | routePath (path : String)
  deriving DecidableEq, Repr

def Reference.literal : Reference → String
  | .classImport s | .view s | .inclusion s | .component s | .asset s | .bundle s
  | .routePath s => s
  | .controller _ className => className

end UnusedAssets
