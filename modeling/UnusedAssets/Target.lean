import UnusedAssets.Path
import UnusedAssets.Reference

/-!
# What references refer to

Naming conventions turn a reference into a project file or a route: dotted names nest directories,
the namespace `App` lies in the directory `app`, and public files lie below `public`.
-/

namespace UnusedAssets

open Text

namespace Layout

def viewsDir : String := "resources/views"

def componentsDir : String := "resources/views/components"

def controllersDir : String := "app/Http/Controllers"

def routesDir : String := "routes"

def publicDir : String := "public"

def appDir : String := "app"

def viewSuffix : String := ".blade.php"

def sourceSuffix : String := ".php"

def appNamespace : String := "App\\"

/-- What a controller class begins with if it is written in full. -/
def controllersNamespace : String := "App\\Http\\Controllers\\"

def dottedPath (dir name : String) : String :=
  dir ++ "/" ++ substitute name '.' "/" ++ viewSuffix

def viewPath (name : String) : String := dottedPath viewsDir name

def componentPath (name : String) : String := dottedPath componentsDir name

/-- The segments of a class name, one directory for each. -/
def nestedPath (className : String) : String :=
  joinWith "/" ((split className '\\').filter (· ≠ ""))

/-- The file of a class of the application; none for any other class. -/
def classPath? (className : String) : Option String :=
  match dropLead? (dropLeading className '\\') appNamespace with
  | none => none
  | some inner =>
    let nested := nestedPath inner
    if nested = "" then none else some (appDir ++ "/" ++ nested ++ sourceSuffix)

/-- The file of a controller class, written in full or from the controllers' namespace. -/
def controllerPath (className : String) : String :=
  let name := dropLeading className '\\'
  let inner := (dropLead? name controllersNamespace).getD name
  controllersDir ++ "/" ++ nestedPath inner ++ sourceSuffix

def assetPath (value : String) : String := publicDir ++ "/" ++ dropLeading value '/'

/-- The dotted name of the view in a file; none if the file is no view. -/
def viewName? (path : String) : Option String :=
  match dropLead? path (viewsDir ++ "/") with
  | none => none
  | some inner =>
    match dropTail? inner viewSuffix with
    | none => none
    | some name => some (substitute name '/' ".")

end Layout

inductive Target where
  | file (path : String)
  | route (path : String)
  /-- Nothing in the project. -/
  | unresolved (name : String)
  deriving DecidableEq, Repr

open Layout in
def Reference.target : Reference → Target
  | .classImport name =>
    match classPath? name with
    | some path => .file path
    | none => .unresolved name
  | .view name => .file (viewPath name)
  | .controller _ className => .file (controllerPath className)
  | .inclusion path | .bundle path => .file path
  | .component name => .file (componentPath name)
  | .asset value => .file (assetPath value)
  | .routePath path => .route path

end UnusedAssets
