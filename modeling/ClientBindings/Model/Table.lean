import ClientBindings.Model.Resolution

/-!
# Tables

The model of a schema: a table for every entry of the five maps, and the types synthesized on the
way.

* `Table.ofDeclaration`: the fields of a row are the implicit ones of its kind, then the declared
  ones, then a URL field for every upload; a declared field takes the place of an implicit one.
* `Model.ofSchema`: the tables in the order of the maps, or the first cause of failure.
-/

namespace ClientBindings

/-- The declaration of a table: an entry of one of the five maps. -/
structure TableDeclaration where
  kind : TableKind
  name : String
  validator : Validator
  foreignKey : Option String

/-- The declarations of a map of plain tables. -/
def TableDeclaration.ofMap (kind : TableKind) (tables : Entries Validator) :
    List TableDeclaration :=
  tables.map fun (name, validator) => ⟨kind, name, validator, none⟩

/-- The declarations of the map of child tables. -/
def TableDeclaration.ofChildren (tables : Entries ChildTable) : List TableDeclaration :=
  tables.map fun (name, table) => ⟨.child, name, table.validator, table.foreignKey⟩

/-- The declarations of a schema, map by map. -/
def Schema.declarations (schema : Schema) : List TableDeclaration :=
  TableDeclaration.ofMap .owned schema.owned ++ TableDeclaration.ofMap .orgScoped schema.orgScoped ++
    TableDeclaration.ofMap .base schema.base ++ TableDeclaration.ofMap .singleton schema.singleton ++
    TableDeclaration.ofChildren schema.children

/-- A table of the schema. -/
structure Table where
  name : String
  kind : TableKind
  /-- The fields of a row: implicit, declared, derived. -/
  fields : Fields
  /-- The declared fields. -/
  declared : Fields
  /-- The declared fields that hold uploads. -/
  uploads : List (String × Upload)
  /-- The field with the id of the parent row. -/
  foreignKey : Option String
  deriving DecidableEq, Repr

namespace Table

/-- Whether the field holds uploads. -/
def isUpload (table : Table) (field : String) : Bool :=
  table.uploads.any fun upload => upload.1 == field

/-- The field with the addresses of an upload. -/
def urlField : String × Upload → String × FieldEntry
  | (field, .single) => (field ++ "Url", .optional .string)
  | (field, .multiple) => (field ++ "Urls", .optional (.array .string false))

/-- The fields of a row. -/
def rowFields (kind : TableKind) (declared : Fields) (uploads : List (String × Upload)) : Fields :=
  let all := declared ++ uploads.map urlField
  all.foldl (fun fields field => Entries.put field.1 field.2 fields) kind.implicitFields

/-- The uploads among declared fields. -/
def uploadsOf (fields : Entries Validator) : List (String × Upload) :=
  fields.filterMap fun (field, validator) => validator.upload?.map fun upload => (field, upload)

/-- The table of a declaration with the given fields, which resolved to `declared`. -/
def ofFields (declaration : TableDeclaration) (fields : Entries Validator) (declared : Fields) :
    Table :=
  let uploads := uploadsOf fields
  { name := declaration.name
    kind := declaration.kind
    fields := rowFields declaration.kind declared uploads
    declared
    uploads
    foreignKey := declaration.foreignKey }

/-- The table of a declaration. -/
def ofDeclaration (declaration : TableDeclaration) : Resolution Table := do
  match declaration.validator.fields with
  | none => throw (.notObject declaration.kind declaration.name declaration.validator.kind)
  | some fields =>
    let declared ← resolveFields fields declaration.name
    return ofFields declaration fields declared

end Table

/-- The tables of a schema and the types that their fields give rise to. -/
structure Model where
  tables : List Table := []
  registry : Registry := {}
  deriving DecidableEq, Repr

namespace Model

/-- The table of a name. -/
def table? (model : Model) (name : String) : Option Table :=
  model.tables.find? fun table => table.name == name

/-- The tables of the declarations, resolved one after the other. -/
def resolveTables : List TableDeclaration → Resolution (List Table)
  | [] => return []
  | declaration :: rest => do
    let table ← Table.ofDeclaration declaration
    let tables ← resolveTables rest
    return table :: tables

/-- The model of a schema. -/
def ofSchema (schema : Schema) : Except ModelError Model :=
  let (result, registry) := (resolveTables schema.declarations).run.run {}
  result.map fun tables => ⟨tables, registry⟩

end Model

/-! ## Filters -/

/-- The filter of a table: the fields that its clauses compare. The tables of a user also accept a
flag for the user's own rows. -/
structure Filter where
  table : String
  fields : Entries FieldType
  own : Bool
  deriving DecidableEq, Repr

namespace Filter

/-- The filter of a table, over its declared scalars and enumerations that hold no upload; none for
a table without such fields or of a kind that is not filtered. -/
def ofTable? (table : Table) : Option Filter :=
  let fields := (table.declared.filter fun (name, entry) =>
    entry.type.isFilterable && !table.isUpload name).map fun (name, entry) => (name, entry.type)
  if table.kind.isFilterable ∧ fields ≠ [] then some ⟨table.name, fields, table.kind == .owned⟩
  else none

end Filter

/-- The filters of the tables, in table order. -/
def Model.filters (model : Model) : List Filter := model.tables.filterMap Filter.ofTable?

end ClientBindings
