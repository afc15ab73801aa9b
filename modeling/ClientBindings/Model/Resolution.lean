import ClientBindings.Model.Registry
import ClientBindings.Text.Case
import ClientBindings.Text.Cut

/-!
# Resolution of validators

The field entry that a validator stands for. Enumerations, objects and unions on the way register
a synthesized type, named after the model and the field they stand at.

* `resolve`: the entry of one field; `resolveFields`: those of an object's fields.
* A union becomes one record: its tag field `type`, then the fields of its options, each of them
  optional and typed by the first option that declares it.
* A resolution that fails keeps what it registered before.
-/

namespace ClientBindings

/-- A computation that registers types and may fail; the registry outlives a failure. -/
abbrev Resolution := ExceptT ModelError (StateM Registry)

namespace Resolution

/-- A registration as a step of a resolution. -/
def register (step : Registry → Except ModelError Registry) : Resolution Unit := do
  match step (← get) with
  | .ok registry => set registry
  | .error error => throw error

/-- Registers an enumeration. -/
def addEnum (name : String) (values : List String) : Resolution Unit :=
  register fun registry => registry.addEnum name values

/-- Registers a record. -/
def addRecord (definition : RecordDef) : Resolution Unit :=
  register fun registry => registry.addRecord definition

end Resolution

/-- The name of the type that a field of a model gives rise to. -/
def synthesizedName (model field : String) : String :=
  Text.capitalize model ++ Text.capitalize field

/-- Registers the enumeration of a union's tags, if any option declares one; its name. -/
def addDiscriminant (union : String) (tags : List String) : Resolution (Option String) := do
  if tags.isEmpty then return none
  else
    let name := union ++ "Type"
    Resolution.addEnum name tags
    return some name

/-- The tag field of a union's record. -/
def tagField (discriminant : Option String) : String × FieldEntry :=
  ("type", .required ((discriminant.map .enumRef).getD .string))

mutual

/-- The entry of the field that `validator` declares at `model` and `field`. An array of objects
names its element type by the field without its plural `s`. -/
def resolve (validator : Validator) (model field : String) : Resolution FieldEntry :=
  match validator with
  | .node _ _ _ (.optional inner) => do
    let entry ← resolve inner model field
    return .optional entry.type
  | .node _ _ _ (.scalar scalar) => return .required (.scalar scalar)
  | .node _ _ _ .file => return .required .string
  | .node _ values _ .enumeration => do
    let name := synthesizedName model field
    Resolution.addEnum name values
    return .required (.enumRef name)
  | .node _ _ _ (.array element) =>
    if element.isFile then return .required (.array .string false)
    else do
      let entry ← resolve element model (Text.dropEnding "s" field)
      return .required (.array entry.type entry.isOptional)
  | .node _ _ (some fields) .object => do
    let name := synthesizedName model field
    let fields ← resolveFields fields (Text.lowercase name)
    Resolution.addRecord ⟨name, .nested, fields⟩
    return .required (.recordRef name)
  | .node _ _ _ (.union options) => do
    let name := synthesizedName model field
    let discriminant ← addDiscriminant name (options.flatMap Validator.tagValues)
    let fields ← resolveOptions options name [tagField discriminant]
    Resolution.addRecord ⟨name, .union discriminant, fields⟩
    return .required (.unionRef name)
  | .node kind _ _ _ => throw (.unsupported kind model field)

/-- The entries of the fields of an object of `model`. -/
def resolveFields (fields : List (String × Validator)) (model : String) : Resolution Fields :=
  match fields with
  | [] => return []
  | (field, validator) :: rest => do
    let entry ← resolve validator model field
    let entries ← resolveFields rest model
    return (field, entry) :: entries

/-- Adds the fields of the options of a union to those found before. -/
def resolveOptions (options : List Validator) (union : String) (found : Fields) :
    Resolution Fields :=
  match options with
  | [] => return found
  | option :: rest => do
    let found ← resolveOption option union found
    resolveOptions rest union found

/-- Adds the fields of one option. Optional wrappers do not matter, and an option without fields
adds none. -/
def resolveOption (option : Validator) (union : String) (found : Fields) : Resolution Fields :=
  match option with
  | .node _ _ _ (.optional inner) => resolveOption inner union found
  | .node _ _ (some fields) _ => resolveVariant fields union found
  | .node _ _ none _ => return found

/-- Adds the fields that are neither the tag nor found before. -/
def resolveVariant (fields : List (String × Validator)) (union : String) (found : Fields) :
    Resolution Fields :=
  match fields with
  | [] => return found
  | (field, validator) :: rest =>
    if field = "type" ∨ field ∈ found.names then resolveVariant rest union found
    else do
      let entry ← resolve validator union field
      resolveVariant rest union (found ++ [(field, .optional entry.type)])

end

end ClientBindings
