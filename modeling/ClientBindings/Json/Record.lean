import ClientBindings.Entries
import ClientBindings.Json.Basic

/-!
# Records in JSON documents

How the parts of a record are read.

* `record?`: the fields of a record, written as an object or as an array of the fields in order.
  Unknown keys are passed over; a known key stands once.
* `tableOf?`: an object whose keys are names of values of one kind; a repeated key keeps its first
  position and takes its last value.
* `required?`, `orElse?`, `nullable?`: fields that must stand, may be missing, may be null.
-/

namespace ClientBindings.Json

/-- The fields of a record with the given field names. -/
def record? (known : List String) : Json → Option (Entries Json)
  | .array items => if items.length ≤ known.length then some (known.zip items) else none
  | .object entries => do
    let entries ← entries.mapM fun (key, value) => key.map fun key => (key, value)
    let fields := entries.filter fun entry => known.contains entry.1
    if (firstSeen (Entries.names fields)).length = fields.length then some fields else none
  | _ => none

/-- The entries of an object read by `read`, in document order with repetitions. -/
def pairsOf? {α : Type} (read : Json → Option α) : Json → Option (List (String × α))
  | .object entries => entries.mapM fun (key, value) => do
    let key ← key
    let value ← read value
    return (key, value)
  | _ => none

/-- The entries of an object read by `read`. -/
def tableOf? {α : Type} (read : Json → Option α) (json : Json) : Option (Entries α) :=
  (pairsOf? read json).map Entries.ofPairs

/-- The entries of an object read by `read`, in the order of their names. -/
def sortedTableOf? {α : Type} (read : Json → Option α) (json : Json) : Option (Entries α) :=
  (pairsOf? read json).map Entries.sortedOfPairs

/-- The items of an array read by `read`. -/
def listOf? {α : Type} (read : Json → Option α) : Json → Option (List α)
  | .array items => items.mapM read
  | _ => none

/-- A text. -/
def text? : Json → Option String
  | .string text => text
  | _ => none

/-- A truth value. -/
def flag? : Json → Option Bool
  | .bool value => some value
  | _ => none

/-- A natural number up to `bound`, spelled without fraction or exponent. -/
def natural? (bound : Nat) : Json → Option Nat
  | .number numeral =>
    match numeral.value? with
    | some (.natural n) => if n ≤ bound then some n else none
    | _ => none
  | _ => none

/-- A value that may be null. -/
def nullable? {α : Type} (read : Json → Option α) : Json → Option (Option α)
  | .null => some none
  | json => (read json).map some

/-- A field that must stand. -/
def required? {α : Type} (fields : Entries Json) (name : String) (read : Json → Option α) :
    Option α :=
  (fields.find? name).bind read

/-- A field that has a default. -/
def orElse? {α : Type} (fields : Entries Json) (name : String) (fallback : α)
    (read : Json → Option α) : Option α :=
  match fields.find? name with
  | some json => read json
  | none => some fallback

/-- A field that may be missing or null. -/
def optional? {α : Type} (fields : Entries Json) (name : String) (read : Json → Option α) :
    Option (Option α) :=
  orElse? fields name none (nullable? read)

/-- The text of a string, number or truth value; nothing for other values. -/
def literalText? : Json → Option String
  | .string text => text
  | .number numeral => numeral.value?.map Number.text
  | .bool true => some "true"
  | .bool false => some "false"
  | _ => none

end ClientBindings.Json
