import ClientBindings.Client.File
import ClientBindings.Files.Tree
import ClientBindings.Functions.Config
import ClientBindings.Generate.Error

/-!
# Runs of the generator

From a schema, a directory of backend functions and a configuration to the files of the client.

* `readSources`: the source files of a directory, in the order of their names.
* `generate`: both clients in memory; nothing is written.
* `run`: a run on a file tree, and its summary.
-/

namespace ClientBindings

/-- The inputs and destinations of a run, as paths. -/
structure Options where
  schema : String
  /-- The directory of backend functions. -/
  functions : String
  output : String
  /-- The destination of the reduced client. -/
  mobile : Option String := none
  config : Option String := none
  deriving DecidableEq, Repr

/-- The clients of a run. -/
structure Generated where
  full : FullClient
  reduced : Option ReducedClient
  deriving DecidableEq, Repr

/-- The source files in a directory whose names are included, in the order of their names. -/
def readSources (tree : Tree) (directory : String) (included : String → Bool) :
    Except GenerateError (List SourceFile) :=
  match tree.list? directory with
  | none => .error (.unreadable directory)
  | some names =>
    let files := names.filter fun name => included name && tree.isFile (Path.join directory name)
    (sortedSet files).mapM fun name =>
      let path := Path.join directory name
      match tree.readText? path with
      | some text => .ok ⟨name, text⟩
      | none => .error (.unreadable path)

/-- A check that an input is there. -/
def require (found : Bool) (input : Input) (path : String) : Except GenerateError Unit :=
  if found then .ok () else .error (.missing input path)

/-- The schema in a file. -/
def loadSchema (tree : Tree) (path : String) : Except GenerateError Schema :=
  match tree.readText? path with
  | none => .error (.unreadable path)
  | some text =>
    match Schema.parse? text with
    | some schema => .ok schema
    | none => .error .schemaSyntax

/-- The configuration in a file; the empty one without a file. -/
def loadConfig (tree : Tree) : Option String → Except GenerateError Config
  | none => .ok {}
  | some path =>
    match tree.readText? path with
    | none => .error (.unreadable path)
    | some text =>
      match Config.parse? text with
      | some config => .ok config
      | none => .error (.configSyntax path)

/-- The model of a schema. -/
def loadModel (schema : Schema) : Except GenerateError Model :=
  (Model.ofSchema schema).mapError .model

/-- Both clients of a run. -/
def generate (tree : Tree) (options : Options) : Except GenerateError Generated := do
  require (tree.isFile options.schema) .schema options.schema
  require (tree.isDirectory options.functions) .functions options.functions
  match options.config with
  | some path => require (tree.isFile path) .config path
  | none => pure ()
  let schema ← loadSchema tree options.schema
  let model ← loadModel schema
  let sources ← readSources tree options.functions SourceFile.isModule
  let config ← loadConfig tree options.config
  let inputs : Inputs := { model, modules := modulesOf model sources, config }
  return {
    full := FullClient.ofInputs inputs
    reduced := options.mobile.map fun _ => ReducedClient.ofInputs inputs }

/-- The summary of a run. -/
def summary (options : Options) (stats : Stats) : String :=
  let mobile := match options.mobile with
    | some path => s!"Generated {path}\n"
    | none => ""
  s!"Generated {options.output}\n  {stats.text}\n" ++ mobile

/-- A run: the summary or the cause of its failure, and the tree after it. -/
def run (tree : Tree) (options : Options) : Except GenerateError String × Tree :=
  match generate tree options with
  | .error error => (.error error, tree)
  | .ok generated =>
    let report := summary options (Stats.ofClient generated.full)
    let (tree, written) := tree.replaceFile options.output generated.full.text
    if !written then (.error (.unwritable options.output), tree)
    else match options.mobile, generated.reduced with
      | some path, some client =>
        let (tree, written) := tree.replaceFile path client.text
        (if written then .ok report else .error (.unwritable path), tree)
      | _, _ => (.ok report, tree)

end ClientBindings
