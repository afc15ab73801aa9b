import ClientBindings.Model.Table
import ClientBindings.Source.Export
import ClientBindings.Source.FactoryCall

/-!
# Backend modules

A source file of the function directory is a module when it exports anything. It serves the table
of its own name, or else the first table of the schema that one of its factory calls names.

* `SourceFile.isModule`: the files that clients are bound to.
* `Module.ofFile?`: the module of a file.
-/

namespace ClientBindings

/-- A source file of the function directory. -/
structure SourceFile where
  name : String
  text : String
  deriving DecidableEq, Repr

/-- A module of backend functions. -/
structure Module where
  name : String
  /-- The exported names. -/
  exports : List String
  /-- The table that the module serves. -/
  table : String
  /-- The kind of that table, if the schema declares it. -/
  kind : Option TableKind
  calls : List FactoryCall
  deriving DecidableEq, Repr

namespace SourceFile

/-- The ending of source files. -/
def ending : String := ".ts"

/-- The name of a module, given its file name. -/
def moduleName (fileName : String) : String := Text.dropEnding ending fileName

/-- Modules that never get client bindings. -/
def skippedModules : List String :=
  ["_generated", "auth", "auth.config", "http", "schema", "testauth"]

/-- Whether a file name is that of a module which gets client bindings. -/
def isModule (fileName : String) : Bool :=
  match Text.withoutEnd? ending.toList fileName.toList with
  | none => false
  | some stem => !Text.hasPart ".test." fileName && !skippedModules.contains (String.ofList stem)

/-- Whether a file name is that of a module whose factory calls are checked. -/
def isChecked (fileName : String) : Bool :=
  ending.toList.isSuffixOf fileName.toList && fileName.toList.head? != some '_' &&
    !Text.hasPart ".test." fileName && !Text.hasPart ".config." fileName

end SourceFile

namespace Module

/-- Whether the module exports a name. -/
def exportsName (module : Module) (name : String) : Bool := module.exports.contains name

/-- The name with its first letter in lower case, ASCII letters only. -/
def lowerFirst (name : String) : String :=
  match name.toList with
  | [] => ""
  | c :: rest => String.ofList (c.toLower :: rest)

/-- The table that a module of the given name and calls serves. -/
def servedTable (model : Model) (name : String) (calls : List FactoryCall) : String :=
  let own := lowerFirst name
  if (model.table? own).isSome then own
  else match calls.find? fun call => (model.table? call.table).isSome with
    | some call => call.table
    | none => own

/-- The module of a source file; none if it exports nothing. -/
def ofFile? (model : Model) (file : SourceFile) : Option Module :=
  let exports := Source.exportedNames file.text
  if exports.isEmpty then none
  else
    let name := SourceFile.moduleName file.name
    let calls := Source.factoryCalls file.name file.text
    let table := servedTable model name calls
    some { name, exports, table, kind := (model.table? table).map (·.kind), calls }

end Module

/-- The modules of source files, in their order. -/
def modulesOf (model : Model) (files : List SourceFile) : List Module :=
  files.filterMap (Module.ofFile? model)

end ClientBindings
