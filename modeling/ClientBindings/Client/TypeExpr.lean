import ClientBindings.Model.FieldType

/-!
# Type expressions

The types that declarations of the client mention.

* `TypeExpr.ofField`, `TypeExpr.ofEntry`: the type of a field, without and with its optionality.
* `TypeExpr.text`: the spelling of a type.
-/

namespace ClientBindings

/-- A type of the client. -/
inductive TypeExpr
  | named (name : String)
  | array (element : TypeExpr)
  | optional (wrapped : TypeExpr)
  /-- A page of results. -/
  | page (element : TypeExpr)
  /-- A type as a configuration writes it. -/
  | verbatim (text : String)
  deriving DecidableEq, Repr

namespace TypeExpr

/-- The record that holds a page of results. -/
def pageName : String := "PaginatedResult"

/-- The spelling of the type. -/
def text : TypeExpr → String
  | named name => name
  | array element => "[" ++ element.text ++ "]"
  | optional wrapped => wrapped.text ++ "?"
  | page element => pageName ++ "<" ++ element.text ++ ">"
  | verbatim text => text

/-- Whether the type is optional at the outside. -/
def isOptional : TypeExpr → Bool
  | optional _ => true
  | _ => false

/-- Strings. -/
def string : TypeExpr := .named "String"

/-- Numbers. -/
def number : TypeExpr := .named "Double"

/-- Truth values. -/
def bool : TypeExpr := .named "Bool"

/-- The type of a scalar. -/
def ofScalar : Scalar → TypeExpr
  | .string => string
  | .number => number
  | .bool => bool

/-- The type of a field that is present. -/
def ofField : FieldType → TypeExpr
  | .scalar scalar => ofScalar scalar
  | .enumRef name => .named name
  | .recordRef name => .named name
  | .unionRef name => .named name
  | .array element isOptional =>
    .array (if isOptional then .optional (ofField element) else ofField element)

/-- The type of a field. -/
def ofEntry (entry : FieldEntry) : TypeExpr :=
  if entry.isOptional then .optional (ofField entry.type) else ofField entry.type

end TypeExpr

end ClientBindings
