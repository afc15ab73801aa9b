import ClientBindings.Json.Reader
import ClientBindings.Json.Record
import ClientBindings.Schema.Validator

/-!
# Schema documents

A schema declares its tables in five maps, one for each kind of table, in the order of the
document.

* `Validator.decode?`: the validator that a JSON value describes.
* `Schema.parse?`: the schema of a text; none if it is no JSON document of this form.
-/

namespace ClientBindings

/-- Kind of a table: it decides the fields every row has and the endpoints of its factory. -/
inductive TableKind
  /-- Rows of a user. -/
  | owned
  /-- Rows of an organization. -/
  | orgScoped
  /-- Cached external data. -/
  | base
  /-- One row for each user. -/
  | singleton
  /-- Rows attached to a row of another table. -/
  | child
  deriving DecidableEq, Repr

/-- The name of the map that declares tables of the kind. -/
def TableKind.mapName : TableKind → String
  | .owned => "owned"
  | .orgScoped => "orgScoped"
  | .base => "base"
  | .singleton => "singleton"
  | .child => "children"

/-- A child table: the validator of its rows, and the field with the id of the parent row. -/
structure ChildTable where
  validator : Validator
  foreignKey : Option String

/-- The five maps of tables. -/
structure Schema where
  owned : Entries Validator := []
  orgScoped : Entries Validator := []
  base : Entries Validator := []
  singleton : Entries Validator := []
  children : Entries ChildTable := []

/-! ## Reading -/

namespace Validator

/-- The texts of a list of literals; values of other kinds are dropped. -/
def literals? (depth : Nat) (json : Json) : Option (List String) := do
  if json.readable depth then
    let items ← json.listOf? some
    return items.filterMap Json.literalText?
  else none

/-- The keys of a map of enumeration entries. -/
def entryNames? (depth : Nat) (json : Json) : Option (List String) :=
  if json.readable depth then (json.tableOf? some).map Entries.names else none

/-- The fields of a validator record, in declaration order. -/
def recordFields : List String :=
  ["type", "innerType", "element", "values", "entries", "shape", "properties", "options"]

/-- The validator of a JSON value, with `depth` containers left to open. The fields of a node stand
under `shape` or else `properties`; its values under `values` or else as the keys of `entries`. -/
def decode? : Nat → Json → Option Validator
  | 0, _ => none
  | depth + 1, json => do
    let record ← json.record? recordFields
    let kind ← Json.required? record "type" Json.text?
    let inner ← Json.optional? record "innerType" (decode? depth)
    let element ← Json.optional? record "element" (decode? depth)
    let values ← Json.optional? record "values" (literals? depth)
    let entries ← Json.optional? record "entries" (entryNames? depth)
    let shape ← Json.optional? record "shape" fun json =>
      match depth with
      | 0 => none
      | depth + 1 => json.tableOf? (decode? depth)
    let properties ← Json.optional? record "properties" fun json =>
      match depth with
      | 0 => none
      | depth + 1 => json.tableOf? (decode? depth)
    let options ← Json.optional? record "options" fun json =>
      match depth with
      | 0 => none
      | depth + 1 => json.listOf? (decode? depth)
    let fields := shape.or properties
    return .node kind ((values.or entries).getD []) fields
      (formOf kind inner element fields options)

end Validator

/-- The child table of a JSON value. -/
def ChildTable.decode? : Nat → Json → Option ChildTable
  | 0, _ => none
  | depth + 1, json => do
    let record ← json.record? ["schema", "foreignKey"]
    let validator ← Json.required? record "schema" (Validator.decode? depth)
    let foreignKey ← Json.optional? record "foreignKey" Json.text?
    return ⟨validator, foreignKey⟩

namespace Schema

/-- The schema of a JSON document. -/
def ofJson? (json : Json) : Option Schema := do
  let record ← json.record? ["owned", "orgScoped", "base", "singleton", "children"]
  let depth := Json.maxDepth - 2
  let table := Json.tableOf? (Validator.decode? depth)
  let owned ← Json.orElse? record "owned" [] table
  let orgScoped ← Json.orElse? record "orgScoped" [] table
  let base ← Json.orElse? record "base" [] table
  let singleton ← Json.orElse? record "singleton" [] table
  let children ← Json.orElse? record "children" [] (Json.tableOf? (ChildTable.decode? depth))
  return ⟨owned, orgScoped, base, singleton, children⟩

/-- The schema of a text. -/
def parse? (text : String) : Option Schema := (Json.parse? text).bind ofJson?

end Schema

/-- The validator of a text. -/
def Validator.parse? (text : String) : Option Validator :=
  (Json.parse? text).bind (Validator.decode? Json.maxDepth)

end ClientBindings
