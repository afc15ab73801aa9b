import ClientBindings.Entries

/-!
# Validators

The definition tree of a schema. A node carries a type tag and the parts its kind needs.

* `Form`: what a node describes, as its tag and parts decide; a node of an unknown kind, or one
  that lacks a part its kind needs, is unsupported.
* `Validator.unwrapped`: the node inside optional wrappers; `Validator.upload?`: the uploads that a
  field holds.
* A node may carry fields and values whatever its kind is: a union reads the fields of its options,
  and a discriminant the values of its tag, by that alone.
-/

namespace ClientBindings

/-- Scalar types. Every numeric kind is one type. -/
inductive Scalar
  | string
  | number
  | bool
  deriving DecidableEq, Repr

/-- What a node describes. -/
inductive Form (V : Type)
  | scalar (scalar : Scalar)
  /-- A placeholder for an uploaded file. -/
  | file
  | enumeration
  /-- A value that may be absent. -/
  | optional (inner : V)
  | array (element : V)
  /-- A record; its fields are those of the node. -/
  | object
  | union (options : List V)
  | unsupported

/-- A node: its type tag, the values of an enumeration or literal, its fields if it has any, and
what it describes. -/
inductive Validator
  | node (kind : String) (values : List String) (fields : Option (List (String × Validator)))
      (form : Form Validator)

/-- How many uploads a field holds. -/
inductive Upload
  | single
  | multiple
  deriving DecidableEq, Repr

namespace Validator

/-- The type tag. -/
def kind : Validator → String
  | .node kind _ _ _ => kind

/-- The values of an enumeration or literal. -/
def values : Validator → List String
  | .node _ values _ _ => values

/-- The fields, whatever the node's kind. -/
def fields : Validator → Option (Entries Validator)
  | .node _ _ fields _ => fields

/-- What the node describes. -/
def form : Validator → Form Validator
  | .node _ _ _ form => form

/-- Whether the node is the placeholder for a file. -/
def isFile : Validator → Bool
  | .node _ _ _ .file => true
  | _ => false

/-- The node inside every optional wrapper. -/
def unwrapped : Validator → Validator
  | .node _ _ _ (.optional inner) => inner.unwrapped
  | validator => validator

/-- The uploads of a field: one for a file, several for an array of files. Optional wrappers do not
matter. -/
def upload? : Validator → Option Upload
  | .node _ _ _ (.optional inner) => inner.upload?
  | .node _ _ _ .file => some .single
  | .node _ _ _ (.array element) =>
    if element.upload? = some .single then some .multiple else none
  | _ => none

/-- The values of the tag field `type` that the node declares, if the tag is an enumeration or a
literal. Optional wrappers do not matter. -/
def tagValues (option : Validator) : List String :=
  match option.unwrapped.fields.bind (Entries.find? "type") with
  | none => []
  | some tag =>
    let tag := tag.unwrapped
    if tag.kind = "enum" ∨ tag.kind = "literal" then tag.values else []

/-- What a node with the given tag and parts describes. -/
def formOf (kind : String) (inner element : Option Validator)
    (fields : Option (Entries Validator)) (options : Option (List Validator)) : Form Validator :=
  match kind with
  | "string" => .scalar .string
  | "number" | "float" | "int" => .scalar .number
  | "boolean" => .scalar .bool
  | "custom" => .file
  | "optional" | "nullable" => (inner.map .optional).getD .unsupported
  | "enum" => .enumeration
  | "array" => (element.map .array).getD .unsupported
  | "object" => if fields.isSome then .object else .unsupported
  | "union" => (options.map .union).getD .unsupported
  | _ => .unsupported

end Validator

end ClientBindings
