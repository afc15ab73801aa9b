import ClientBindings.Client.Identifier
import ClientBindings.Client.Method
import ClientBindings.Source.Module

/-!
# Table endpoints

One typed method for every exported endpoint of a table.

* `Surroundings`: a module with the table it serves and the filter of that table.
* `CrudFunction.offered`: the endpoints that a client has for a table, in order.
* `crudMethods`: the methods of a module.
* `ListArgs`: the helper that puts paging arguments together.
-/

namespace ClientBindings

/-- A module with what its methods depend on. -/
structure Surroundings where
  module : Module
  /-- The table that the module serves, if the schema declares it. -/
  table : Option Table
  filter : Option Filter
  registry : Registry

namespace Surroundings

/-- The surroundings of a module in a model. -/
def ofModule (model : Model) (module : Module) : Surroundings where
  module := module
  table := model.table? module.table
  filter := model.filters.find? fun filter => filter.table == module.table
  registry := model.registry

/-- The key of a function of the module. -/
def key (around : Surroundings) (function : String) : String :=
  around.module.name ++ ":" ++ function

/-- The record of the module's table. -/
def struct (around : Surroundings) : String := structName around.module.table

/-- The kind of the module's table. -/
def kind (around : Surroundings) : Option TableKind := around.table.map (·.kind)

/-- Whether the table belongs to an organization, whose id every endpoint then takes. -/
def isOrgScoped (around : Surroundings) : Bool := around.kind = some .orgScoped

/-- The organization's id as a parameter, where endpoints take it. -/
def scopeParams (around : Surroundings) : List Parameter :=
  if around.isOrgScoped then [{ name := "orgId", type := .string }] else []

/-- The organization's id as an argument, where endpoints take it. -/
def scopeEntries (around : Surroundings) : List DictEntry :=
  if around.isOrgScoped then [.same "orgId"] else []

/-- The filter as a parameter, where the table has one. -/
def filterParams (around : Surroundings) : List Parameter :=
  if around.filter.isSome then
    [.optional "`where`" (.named (filterName around.module.table))]
  else []

end Surroundings

/-! ## Paging -/

/-- The parameters of a page: the number of items and the place in the list. -/
def pageParams (numItems : Nat) : List Parameter :=
  [{ name := "numItems", type := .named "Int", fallback := some (toString numItems) },
    .optional "cursor" .string]

/-- The entry for the paging options. -/
def pagingEntry : DictEntry := .same "paginationOpts"

/-- The helper of a module that puts the arguments of a page together. -/
structure ListArgs where
  params : List Parameter
  entries : List DictEntry
  hasFilter : Bool
  deriving DecidableEq, Repr

namespace ListArgs

/-- The helper of a module; a module has one if it exports the list of a table that is filtered. -/
def ofModule? (around : Surroundings) : Option ListArgs :=
  if (around.kind.map TableKind.isFilterable).getD false ∧ around.module.exportsName "list" then
    some {
      params := around.scopeParams ++ pageParams 50 ++ around.filterParams
      entries := around.scopeEntries ++ [pagingEntry]
      hasFilter := around.filter.isSome }
  else none

/-- The lines of the helper. -/
def lines (helper : ListArgs) : List String :=
  let body := if helper.hasFilter then
      [Statement.dictionaryLine 2 true "args" helper.entries,
        Lines.line 2 "if let w = `where` \x7b args[\"where\"] = w.toDict() \x7d",
        Lines.line 2 "return args"]
    else [Lines.line 2 s!"return {DictEntry.literal helper.entries}"]
  Lines.multilineSignature "listArgs" (helper.params.map Parameter.text) "-> [String: Any] \x7b" ++
    pagingStatements.flatMap Statement.lines ++ body ++ [Lines.line 1 "\x7d"]

end ListArgs

/-! ## Endpoints -/

/-- An endpoint of a table that a client has a method for. -/
inductive CrudFunction
  | list
  | search
  | create
  | update
  | rm
  | read
  | restore
  | bulkRm
  | upsert
  | get
  deriving DecidableEq, Repr

namespace CrudFunction

/-- The name of the endpoint. -/
def name : CrudFunction → String
  | list => "list"
  | search => "search"
  | create => "create"
  | update => "update"
  | rm => "rm"
  | read => "read"
  | restore => "restore"
  | bulkRm => "bulkRm"
  | upsert => "upsert"
  | get => "get"

/-- The endpoints that a client has methods for, in order. The reduced client has no queries. Rows
of a child table are created here only if every field can be sent as it is. -/
def offered (table : Table) : Target → List CrudFunction
  | .full =>
    match table.kind with
    | .owned | .orgScoped => [list, search, create, update, rm, read, restore, bulkRm]
    | .singleton => [upsert, get]
    | .child =>
      if table.declared.all fun (_, entry) => entry.type.isArgSafe then [create] else []
    | .base => []
  | .reduced =>
    match table.kind with
    | .owned | .orgScoped => [create, update, rm, restore, bulkRm]
    | .singleton => [upsert]
    | .child | .base => []

end CrudFunction

/-- The parameter of a declared field. -/
def fieldParam (name : String) (entry : FieldEntry) : Parameter :=
  if entry.isOptional then .optional name (.ofField entry.type)
  else { name, type := .ofField entry.type }

/-- The entry for a declared field. -/
def fieldEntry (name : String) (type : FieldType) : DictEntry := ⟨name, .ofField name type⟩

/-- A declared field put into the arguments where it has a value. -/
def fieldCopy (name : String) (type : FieldType) : Statement :=
  .copy name "args" (fieldEntry name type)

/-- The guard against updates in between: the time of the update that the caller has seen. -/
def updateGuard : String := "expectedUpdatedAt"

/-- The parameter of a row's id. -/
def idParam : Parameter := { name := "id", type := .string }

/-- The method of an endpoint. `table` is the table that the module serves. -/
def CrudFunction.method (function : CrudFunction) (around : Surroundings) (table : Table)
    (target : Target) : Method :=
  let key := around.key function.name
  let scope := around.scopeParams
  let page : Outcome := .value (.page (.named around.struct))
  let byId (kind : CallKind) (outcome : Outcome) : Method :=
    { target, name := function.name, kind, isInline := true, key, outcome
      params := scope ++ [idParam]
      payload := .literal (.same "id" :: around.scopeEntries) }
  let optionalCopies := table.declared.map fun (name, entry) => fieldCopy name entry.type
  let optionalParams :=
    table.declared.map fun (name, entry) => Parameter.optional name (.ofField entry.type)
  match function with
  | .list =>
    { target, name := function.name, kind := .query, key, outcome := page
      params := scope ++ pageParams 50 ++ around.filterParams
      payload := .listArgs (
        (if around.isOrgScoped then [("orgId", "orgId")] else []) ++
          [("numItems", "numItems"), ("cursor", "cursor")] ++
          if around.filter.isSome then [("where", "`where`")] else []) }
  | .search =>
    { target, name := function.name, kind := .query, key, outcome := page
      params := scope ++
        { label := some "query", name := "searchQuery", type := .string } :: pageParams 20
      setup := pagingStatements
      payload := .literal (around.scopeEntries ++ [pagingEntry, ⟨"query", ⟨"searchQuery", .plain⟩⟩]) }
  | .create =>
    let (optional, required) := table.declared.partition fun (_, entry) => entry.isOptional
    let entries := required.map fun (name, entry) => fieldEntry name entry.type
    { target, name := function.name, kind := .mutation, key
      params := scope ++ table.declared.map fun (name, entry) => fieldParam name entry
      setup := .dictionary (!optional.isEmpty) "args" (around.scopeEntries ++ entries) ::
        optional.map fun (name, entry) => fieldCopy name entry.type
      payload := .variable "args" }
  | .update =>
    { target, name := function.name, kind := .mutation, key
      params := scope ++ idParam :: optionalParams ++ [.optional updateGuard .number]
      setup := .dictionary true "args" (.same "id" :: around.scopeEntries) ::
        optionalCopies ++ [fieldCopy updateGuard .number]
      payload := .variable "args" }
  | .rm => byId .mutation .none
  | .restore => byId .mutation .none
  | .read => byId .query (.value (.named around.struct))
  | .bulkRm =>
    { target, name := function.name, kind := .mutation, isInline := true, key
      params := scope ++ [{ name := "ids", type := .array .string }]
      payload := .literal (.same "ids" :: around.scopeEntries) }
  | .upsert =>
    { target, name := function.name, kind := .mutation, key
      params := optionalParams
      setup := .dictionary true "args" [] :: optionalCopies
      payload := .variable "args" }
  | .get =>
    { target, name := function.name, kind := .query, isInline := true, key
      params := []
      payload := .literal []
      outcome := .value (.optional (.named around.struct)) }

/-- The methods for the table endpoints that a module exports, in order. -/
def crudMethods (around : Surroundings) (target : Target) : List Method :=
  match around.table with
  | none => []
  | some table =>
    ((CrudFunction.offered table target).filter fun function =>
      around.module.exportsName function.name).map fun function =>
        function.method around table target

end ClientBindings
