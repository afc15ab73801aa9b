import ClientBindings.Model.Registry

/-!
# Causes of failure

Why a run of the generator writes no client.

* `GenerateError.message`: what is reported.
-/

namespace ClientBindings

/-- An input of the generator that is checked before anything is read. -/
inductive Input
  | schema
  | functions
  | config
  deriving DecidableEq, Repr

/-- What the input is called. -/
def Input.text : Input → String
  | schema => "schema file"
  | functions => "convex directory"
  | config => "custom config"

/-- Why a run fails. -/
inductive GenerateError
  | missing (input : Input) (path : String)
  | unreadable (path : String)
  | schemaSyntax
  | model (error : ModelError)
  | configSyntax (path : String)
  | unwritable (path : String)
  deriving DecidableEq, Repr

/-- The word for the sort of a definition. -/
def DefinitionSort.word : DefinitionSort → String
  | enum => "enum"
  | record => "record"

/-- The report of a schema without a model. -/
def ModelError.message : ModelError → String
  | unsupported kind model field => s!"unsupported validator kind '{kind}' at {model}.{field}"
  | clash sort name =>
    s!"{sort.word} name collision: '{name}' is already registered with a different shape"
  | notObject table name found =>
    s!"schema parse error: {table.mapName} table '{name}' must be an object validator, " ++
      s!"found '{found}'"

/-- The report of a failure. -/
def GenerateError.message : GenerateError → String
  | missing input path => s!"usage error: {input.text} not found: {path}"
  | unreadable path => s!"failed to read '{path}'"
  | schemaSyntax => "schema parse error: malformed document"
  | model error => error.message
  | configSyntax path => s!"custom config parse error in '{path}'"
  | unwritable path => s!"failed to write '{path}'"

end ClientBindings
