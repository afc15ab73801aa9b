import ClientBindings.Text.CamelCase

/-!
# Names in the client

How names of tables, modules and enumeration values become identifiers of the client's language.

* `pascalCase`: the parts of a name between `_` and `-`, each capitalized; `structName`, `apiName`
  and `filterName` derive the names of declarations from it.
* `EnumCase.ofValue`: the case of an enumeration value: the value itself where it is an identifier,
  quoted if it is a keyword, else a camel-case name with the value as its raw value.
-/

namespace ClientBindings

/-- The parts of a name between underscores and hyphens. -/
def nameParts : List Char → List (List Char)
  | [] => [[]]
  | c :: rest =>
    if c = '_' ∨ c = '-' then [] :: nameParts rest else Text.consFirst c (nameParts rest)

/-- The parts of a name, each capitalized, as one name. -/
def pascalCase (name : String) : String :=
  String.ofList ((nameParts name.toList).flatMap Text.capitalizeChars)

/-- The record of a table. `Task` is taken by the language, so that record is a `TaskItem`. -/
def structName (table : String) : String :=
  let name := pascalCase table
  if name = "Task" then "TaskItem" else name

/-- The declaration that holds the functions of a module. -/
def apiName (module : String) : String := pascalCase module ++ "API"

/-- The filter of a table. -/
def filterName (table : String) : String := pascalCase table ++ "Where"

/-! ## Cases of enumerations -/

/-- Keywords that must be quoted as the name of a case. -/
def keywords : List String :=
  ["as", "associatedtype", "break", "case", "catch", "class", "continue", "default", "defer",
    "deinit", "do", "else", "enum", "extension", "fallthrough", "false", "fileprivate", "for",
    "func", "guard", "if", "import", "in", "init", "inout", "internal", "is", "let", "nil",
    "open", "operator", "private", "protocol", "public", "repeat", "rethrows", "return", "self",
    "static", "struct", "subscript", "super", "switch", "throw", "throws", "true", "try",
    "typealias", "var", "where", "while"]

/-- An identifier of ASCII letters, digits and underscores. -/
def isPlainIdentifier : List Char → Bool
  | [] => false
  | c :: rest => (c.isAlpha || c == '_') && rest.all fun c => c.isAlphanum || c == '_'

/-- A case of an enumeration. Without a raw value of its own, the raw value is the name. -/
structure EnumCase where
  name : String
  isQuoted : Bool := false
  rawValue : Option String := none
  deriving DecidableEq, Repr

namespace EnumCase

/-- The camel-case name of a value, with an underscore where it would be empty or start with a
digit. -/
def nameOf (value : List Char) : List Char :=
  match Text.lowerCamel value with
  | [] => ['_']
  | c :: rest => if c.isDigit then '_' :: c :: rest else c :: rest

/-- The case of a value. -/
def ofValue (value : String) : EnumCase :=
  if keywords.contains value then { name := value, isQuoted := true }
  else if isPlainIdentifier value.toList then { name := value }
  else { name := String.ofList (nameOf value.toList), rawValue := some value }

/-- The declaration of the case. -/
def text (enumCase : EnumCase) : String :=
  let name := if enumCase.isQuoted then "`" ++ enumCase.name ++ "`" else enumCase.name
  match enumCase.rawValue with
  | none => s!"case {name}"
  | some value => s!"case {name} = \"{value}\""

end EnumCase

end ClientBindings
