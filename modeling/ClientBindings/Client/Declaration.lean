import ClientBindings.Client.Identifier
import ClientBindings.Client.Method
import ClientBindings.Model.Table

/-!
# Declarations of types

The records and enumerations of the client as data, and their lines.

* `StructDecl`, `EnumDecl`: the declarations; `FilterDecl` is that of a filter.
* `StructDecl.ofRecord`, `StructDecl.ofTable`, `EnumDecl.ofEnum`: what the model declares.
* `tableDecls`: one record for every table; a table whose record's name is taken is passed over.
-/

namespace ClientBindings

/-- A stored property. -/
structure Property where
  name : String
  type : TypeExpr
  deriving DecidableEq, Repr

namespace Property

/-- The property of a field. -/
def ofField : String × FieldEntry → Property
  | (name, entry) => ⟨name, .ofEntry entry⟩

/-- The property as a parameter of an initializer. An optional one may be left out. -/
def param (property : Property) : Parameter :=
  { name := property.name
    type := property.type
    fallback := if property.type.isOptional then some "nil" else none }

end Property

/-- The lines of an initializer that sets every property. -/
def initializerLines (properties : List Property) : List String :=
  Lines.line 1 "public init(" ::
    Lines.commaSeparated 2 (properties.map fun property => property.param.text) ++
    [Lines.line 1 ") \x7b"] ++
    (properties.map fun property => Lines.line 2 s!"self.{property.name} = {property.name}") ++
    [Lines.line 1 "\x7d"]

/-! ## Records -/

/-- A record. -/
structure StructDecl where
  name : String
  properties : List Property
  /-- Whether an initializer is written. -/
  hasInitializer : Bool := false
  /-- The expression that identifies a value, if any does. -/
  identity : Option String := none
  deriving DecidableEq, Repr

namespace StructDecl

/-- A synthesized record. That of a union gets an initializer, since most of its fields are
absent. -/
def ofRecord (record : RecordDef) : StructDecl where
  name := record.name
  properties := record.fields.map Property.ofField
  hasInitializer := match record.kind with
    | .nested => false
    | .union _ => true

/-- The expression that identifies a row: its id, or the empty text where it has none. -/
def rowIdentity (fields : Fields) : Option String :=
  (fields.find? "_id").map fun entry => if entry.isOptional then "_id ?? \"\"" else "_id"

/-- The record of a table. -/
def ofTable (table : Table) : StructDecl where
  name := structName table.name
  properties := table.fields.map Property.ofField
  identity := rowIdentity table.fields

/-- The protocols of the record. -/
def protocols (struct : StructDecl) : String :=
  if struct.identity.isSome then "Codable, Identifiable, Sendable" else "Codable, Sendable"

/-- The lines of the record. -/
def lines (struct : StructDecl) : List String :=
  let properties := struct.properties.map fun property =>
    Lines.line 1 s!"public let {property.name}: {property.type.text}"
  let initializer :=
    if struct.hasInitializer then "" :: initializerLines struct.properties else []
  let identity := match struct.identity with
    | some expression => ["", Lines.line 1 s!"public var id: String \x7b {expression} \x7d"]
    | none => []
  Lines.line 0 s!"public struct {struct.name}: {struct.protocols} \x7b" ::
    properties ++ initializer ++ identity ++ [Lines.line 0 "\x7d", ""]

end StructDecl

/-! ## Enumerations -/

/-- An enumeration of texts. -/
structure EnumDecl where
  name : String
  cases : List EnumCase
  /-- Further members, as they are written. -/
  members : List String := []
  deriving DecidableEq, Repr

namespace EnumDecl

/-- A synthesized enumeration. -/
def ofEnum (definition : EnumDef) : EnumDecl where
  name := definition.name
  cases := definition.values.map EnumCase.ofValue

/-- The lines of the enumeration. -/
def lines (enum : EnumDecl) : List String :=
  Lines.line 0 s!"public enum {enum.name}: String, CaseIterable, Codable, Sendable \x7b" ::
    (enum.cases.map fun enumCase => Lines.line 1 enumCase.text) ++
    ["", Lines.line 1 "public var displayName: String \x7b rawValue.capitalized \x7d"] ++
    enum.members.map (Lines.line 1) ++ [Lines.line 0 "\x7d", ""]

end EnumDecl

/-! ## Filters -/

/-- A filter: its clauses, with what each sends. -/
structure FilterDecl where
  name : String
  clauses : Entries FieldType
  /-- Whether the filter has a flag for the user's own rows. -/
  own : Bool
  deriving DecidableEq, Repr

namespace FilterDecl

/-- The declaration of a filter. -/
def ofFilter (filter : Filter) : FilterDecl where
  name := filterName filter.table
  clauses := filter.fields
  own := filter.own

/-- The stored properties: the clauses, the flag for the user's own rows, and alternatives. -/
def properties (filter : FilterDecl) : List Property :=
  (filter.clauses.map fun (name, type) => ⟨name, .optional (.ofField type)⟩) ++
    (if filter.own then [⟨"own", .optional .bool⟩] else []) ++
    [⟨"or", .optional (.array (.named "Self"))⟩]

/-- The lines that encode the filter as a dictionary. -/
def encoderLines (filter : FilterDecl) : List String :=
  let clauses := filter.clauses.map fun (name, type) =>
    (Statement.copy name "d" ⟨name, .ofField name type⟩)
  let own := if filter.own then [Statement.copy "own" "d" (.same "own")] else []
  [Lines.line 1 "public func toDict() -> [String: Any] \x7b",
      Lines.line 2 "var d = [String: Any]()"] ++
    (clauses ++ own).flatMap Statement.lines ++
    [Lines.line 2 "if let or \x7b",
      Lines.line 3 "var arr = [[String: Any]]()",
      Lines.line 3 "for w in or \x7b arr.append(w.toDict()) \x7d",
      Lines.line 3 "d[\"or\"] = arr",
      Lines.line 2 "\x7d",
      Lines.line 2 "return d",
      Lines.line 1 "\x7d"]

/-- The lines of the filter. -/
def lines (filter : FilterDecl) : List String :=
  let properties := filter.properties.map fun property =>
    Lines.line 1 s!"public var {property.name}: {property.type.text}"
  Lines.line 0 s!"public struct {filter.name}: Sendable \x7b" ::
    properties ++ "" :: initializerLines filter.properties ++ "" :: filter.encoderLines ++
    [Lines.line 0 "\x7d", ""]

end FilterDecl

/-! ## Declarations of a model -/

/-- The synthesized records, in the order of their registration. -/
def recordDecls (registry : Registry) : List StructDecl :=
  registry.records.map StructDecl.ofRecord

/-- The synthesized enumerations, in the order of their registration. -/
def enumDecls (registry : Registry) : List EnumDecl := registry.enums.map EnumDecl.ofEnum

/-- The records of the tables, in table order. One whose name is taken, by `taken` or by an earlier
table, is passed over. -/
def tableDecls (taken : List String) : List Table → List StructDecl
  | [] => []
  | table :: rest =>
    let struct := StructDecl.ofTable table
    if taken.contains struct.name then tableDecls taken rest
    else struct :: tableDecls (struct.name :: taken) rest

end ClientBindings
