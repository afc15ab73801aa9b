import ClientBindings.Model.FieldType

/-!
# Registry of synthesized types

Enumerations and records that fields give rise to, in the order of their registration.

* A name may be registered again with the same definition; another definition under it is a clash.
* `Registry.addEnum`, `Registry.addRecord`: registration, which appends or changes nothing.
-/

namespace ClientBindings

/-- An enumeration: its values are in order and without repetitions. -/
structure EnumDef where
  name : String
  values : List String
  deriving DecidableEq, Repr

/-- What a record comes from. -/
inductive RecordKind
  /-- An object inside a field. -/
  | nested
  /-- A union merged into one record, with the enumeration of its tags if they are declared. -/
  | union (discriminant : Option String)
  deriving DecidableEq, Repr

/-- A record with its fields in order. -/
structure RecordDef where
  name : String
  kind : RecordKind
  fields : Fields
  deriving DecidableEq, Repr

/-- The sort of a definition. -/
inductive DefinitionSort
  | enum
  | record
  deriving DecidableEq, Repr

/-- Why a schema gives no model. -/
inductive ModelError
  /-- A node of the given kind at a field of a model. -/
  | unsupported (kind model field : String)
  /-- Two definitions under one name. -/
  | clash (sort : DefinitionSort) (name : String)
  /-- A table whose validator has no fields. -/
  | notObject (table : TableKind) (name found : String)
  deriving DecidableEq, Repr

/-- The types synthesized so far. -/
structure Registry where
  enums : List EnumDef := []
  records : List RecordDef := []
  deriving DecidableEq, Repr

namespace Registry

/-- The enumeration of a name. -/
def enum? (registry : Registry) (name : String) : Option EnumDef :=
  registry.enums.find? fun definition => definition.name == name

/-- The record of a name. -/
def record? (registry : Registry) (name : String) : Option RecordDef :=
  registry.records.find? fun definition => definition.name == name

/-- Registers an enumeration of the given values. -/
def addEnum (registry : Registry) (name : String) (values : List String) :
    Except ModelError Registry :=
  let definition : EnumDef := ⟨name, sortedSet values⟩
  match registry.enum? name with
  | none => .ok { registry with enums := registry.enums ++ [definition] }
  | some known => if known = definition then .ok registry else .error (.clash .enum name)

/-- Registers a record. -/
def addRecord (registry : Registry) (definition : RecordDef) : Except ModelError Registry :=
  match registry.record? definition.name with
  | none => .ok { registry with records := registry.records ++ [definition] }
  | some known =>
    if known = definition then .ok registry else .error (.clash .record definition.name)

end Registry

end ClientBindings
