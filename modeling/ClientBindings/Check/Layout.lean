import ClientBindings.Check.SchemaSource
import ClientBindings.Entries
import ClientBindings.Files.Tree

/-!
# Project layout

Where a project keeps its backend functions and its schema module.

* `findFunctions`: the function directory: `convex` with `_generated` in it, below the project or
  below one of its directories.
* `findSchema`: the schema module: the first source beside the function directory that has a mark
  of one.
-/

namespace ClientBindings.Check

/-- Why a part of the layout is not found. -/
inductive LayoutError
  | noFunctions (project : String)
  | noSchema (directory : String)
  | unreadable (path : String)
  deriving DecidableEq, Repr

/-- The report of a failure. -/
def LayoutError.message : LayoutError → String
  | noFunctions project =>
    s!"could not find convex/ directory with _generated/ under '{project}'"
  | noSchema directory => s!"could not find schema file with lazyconvex markers in '{directory}'"
  | unreadable path => s!"failed to read '{path}'"

/-- The schema module of a project. -/
structure SchemaFile where
  path : String
  text : String
  deriving DecidableEq, Repr

/-- The name that issues are attributed to. -/
def SchemaFile.name (file : SchemaFile) : String := (Path.fileName? file.path).getD ""

/-- Whether a path is that of a function directory. -/
def isFunctions (tree : Tree) (path : String) : Bool :=
  tree.isDirectory (Path.join path "_generated")

/-- The name of function directories. -/
def functionsName : String := "convex"

/-- The function directory of a project. -/
def findFunctions (tree : Tree) (project : String) : Except LayoutError String :=
  let direct := Path.join project functionsName
  if isFunctions tree direct then .ok direct
  else
    let directories := (sortedSet ((tree.list? project).getD [])).map (Path.join project)
    let candidates := (directories.filter tree.isDirectory).map fun directory =>
      Path.join directory functionsName
    match candidates.find? (isFunctions tree) with
    | some path => .ok path
    | none => .error (.noFunctions project)

/-- Whether a name is that of a source which may be the schema module. -/
def isSchemaCandidate (name : String) : Bool :=
  let endsWith (ending : String) := ending.toList.isSuffixOf name.toList
  endsWith ".ts" && !endsWith ".test.ts" && !endsWith ".config.ts"

/-- The first of the files that has a mark of the schema module; a file that is no text stops the
search. -/
def firstSchema (tree : Tree) (directory : String) : List String → Except LayoutError SchemaFile
  | [] => .error (.noSchema directory)
  | path :: rest =>
    match tree.readText? path with
    | none => .error (.unreadable path)
    | some text => if isSchemaSource text then .ok ⟨path, text⟩ else firstSchema tree directory rest

/-- The directory that a path stands in; the current one for a single name. -/
def directoryOf (path : String) : String :=
  match Path.parent? path with
  | some parent => if parent.isEmpty then "." else parent
  | none => "."

/-- The schema module beside a function directory. -/
def findSchema (tree : Tree) (functions : String) : Except LayoutError SchemaFile :=
  let directory := directoryOf functions
  match tree.list? directory with
  | none => .error (.noSchema directory)
  | some names =>
    let paths := (sortedSet (names.filter isSchemaCandidate)).map (Path.join directory)
    firstSchema tree directory (paths.filter tree.isFile)

end ClientBindings.Check
