import ClientBindings.Schema.Document

/-!
# Field types

The types that declared fields resolve to, and the fields of table records.

* `FieldType.isFilterable`, `FieldType.isArgSafe`: which types a filter clause can compare and a
  method can send as they are.
* `TableKind.implicitFields`: the fields that every row of a kind has.
-/

namespace ClientBindings

/-- Type of a field. Whether the field may be absent stands in its entry. -/
inductive FieldType
  | scalar (scalar : Scalar)
  | enumRef (name : String)
  /-- An array; the flag marks elements that may be absent. -/
  | array (element : FieldType) (optional : Bool)
  | recordRef (name : String)
  | unionRef (name : String)
  deriving DecidableEq, Repr

/-- A type and whether the field may be absent. -/
structure FieldEntry where
  type : FieldType
  isOptional : Bool
  deriving DecidableEq, Repr

/-- Fields by name, in order. -/
abbrev Fields := Entries FieldEntry

namespace FieldType

/-- A string. -/
def string : FieldType := .scalar .string

/-- A number. -/
def number : FieldType := .scalar .number

/-- Scalars and enumerations can stand in filter clauses. -/
def isFilterable : FieldType → Bool
  | .scalar _ => true
  | .enumRef _ => true
  | _ => false

/-- Whether a method can take the type as a parameter and send it as it is: scalars, enumerations,
and arrays of either whose elements are all present. -/
def isArgSafe : FieldType → Bool
  | .scalar _ => true
  | .enumRef _ => true
  | .array element optional => !optional && element.isFilterable
  | _ => false

/-- The record or union that an array has as its elements. -/
def elementRecord? : FieldType → Option String
  | .array (.recordRef name) _ => some name
  | .array (.unionRef name) _ => some name
  | _ => none

/-- The enumeration that the type is. -/
def enumName? : FieldType → Option String
  | .enumRef name => some name
  | _ => none

end FieldType

namespace FieldEntry

/-- A field that is always present. -/
def required (type : FieldType) : FieldEntry := ⟨type, false⟩

/-- A field that may be absent. -/
def optional (type : FieldType) : FieldEntry := ⟨type, true⟩

end FieldEntry

namespace TableKind

/-- Whether tables of the kind get a filter. -/
def isFilterable : TableKind → Bool
  | .owned => true
  | .orgScoped => true
  | _ => false

/-- The fields that every row of the kind has. -/
def implicitFields : TableKind → Fields
  | .owned =>
    [("_id", .required .string), ("_creationTime", .required .number),
      ("author", .optional (.recordRef "Author")), ("updatedAt", .required .number),
      ("userId", .required .string)]
  | .orgScoped =>
    [("_id", .required .string), ("_creationTime", .required .number),
      ("orgId", .required .string), ("updatedAt", .required .number),
      ("userId", .required .string)]
  | .base =>
    [("_id", .optional .string), ("_creationTime", .optional .number),
      ("cacheHit", .optional (.scalar .bool))]
  | .singleton => [("_id", .optional .string)]
  | .child =>
    [("_id", .required .string), ("_creationTime", .required .number),
      ("updatedAt", .optional .number), ("userId", .optional .string)]

/-- The kind whose map has the given name. -/
def ofMapName? (name : String) : Option TableKind :=
  [owned, orgScoped, base, singleton, child].find? fun kind => kind.mapName == name

end TableKind

end ClientBindings
