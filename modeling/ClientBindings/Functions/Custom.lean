import ClientBindings.Model.Registry
import ClientBindings.Text.Cut

/-!
# Custom functions and subscriptions

Backend functions beyond the endpoints of tables, described as data: their arguments and the way
these are sent.

* `CustomFunction`: a query, mutation or action. Its arguments go in one dictionary, in a nested
  one, or with one array of records encoded element by element.
* `Subscription`: a live subscription of the reduced client.
* Types are texts of the client's language; in a return type, the text `$STRUCT` stands for the
  record of the module's table.
-/

namespace ClientBindings

/-- What a backend function does when it is called. -/
inductive CallKind
  | query
  | mutation
  | action
  deriving DecidableEq, Repr

/-- The word for the kind. -/
def CallKind.word : CallKind → String
  | .query => "query"
  | .mutation => "mutation"
  | .action => "action"

/-- The kind of a word. -/
def CallKind.ofWord? (word : String) : Option CallKind :=
  [CallKind.query, .mutation, .action].find? fun kind => kind.word == word

/-- An argument of a custom function. -/
structure Argument where
  name : String
  /-- The type without the mark of an optional. -/
  type : String
  isOptional : Bool := false
  /-- The key it is sent under, if that is not its name. -/
  wireName? : Option String := none
  /-- The expression that is sent, if that is not its name. -/
  wireExpr? : Option String := none
  deriving DecidableEq, Repr

namespace Argument

/-- An argument that must be given. -/
def required (name type : String) : Argument := { name, type }

/-- An argument that may be left out. -/
def optional (name type : String) : Argument := { name, type, isOptional := true }

/-- The key that the argument is sent under. -/
def wireName (argument : Argument) : String := argument.wireName?.getD argument.name

/-- The expression that is sent. -/
def wireExpr (argument : Argument) : String := argument.wireExpr?.getD argument.name

end Argument

/-- A field of the elements of an array of records, as it is sent. -/
structure ElementField where
  name : String
  /-- Sent by the raw value of its enumeration. -/
  isEnum : Bool := false
  /-- Sent only where the element has a value. -/
  isOptional : Bool := false
  deriving DecidableEq, Repr

/-- An argument that is an array of records. -/
structure RecordArray where
  argument : String
  record : String
  /-- The fields that are sent; those of the record if they are not listed. -/
  fields? : Option (List ElementField) := none
  deriving DecidableEq, Repr

/-- The fields of a record as they are sent. -/
def RecordDef.elementFields (record : RecordDef) : List ElementField :=
  record.fields.map fun (name, entry) =>
    { name, isEnum := entry.type.enumName?.isSome, isOptional := entry.isOptional }

/-- The fields of the elements that are sent: those listed, or those of the registered record. -/
def RecordArray.fields (array : RecordArray) (registry : Registry) : List ElementField :=
  match array.fields? with
  | some fields => fields
  | none => ((registry.record? array.record).map RecordDef.elementFields).getD []

/-- A backend function beyond the endpoints of tables. -/
structure CustomFunction where
  name : String
  kind : CallKind
  arguments : List Argument := []
  returnType? : Option String := none
  /-- Send the arguments in a dictionary `data` of their own. -/
  isNested : Bool := false
  /-- String arguments that stand beside `data`. -/
  outer : List String := []
  recordArray? : Option RecordArray := none
  /-- The type that the result is decoded as before it is dropped. -/
  discardType? : Option String := none
  /-- The bridged method for an action of the reduced client. -/
  bridgeMethod? : Option String := none
  /-- Convert the bridged result to an array. -/
  bridgeArray : Bool := false
  deriving DecidableEq, Repr

/-- What stands for the record of the module's table in a return type. -/
def structPlaceholder : String := "$STRUCT"

/-- The return type with the record of the module's table in the place left for it. -/
def CustomFunction.returnType (function : CustomFunction) (struct : String) : Option String :=
  function.returnType?.map fun type =>
    String.ofList (Text.replaceAll structPlaceholder.toList struct.toList type.toList)

/-- An argument of a subscription. -/
structure SubscriptionArgument where
  name : String
  type : String
  deriving DecidableEq, Repr

/-- A live subscription of the reduced client. -/
structure Subscription where
  methodName : String
  /-- The function subscribed to. -/
  function : String
  /-- The type that updates are decoded as. -/
  updateType : String
  /-- Build the arguments with the module's `listArgs`. -/
  isPaginated : Bool := false
  /-- Convert the bridged result to an array. -/
  isArray : Bool := false
  isNullable : Bool := false
  /-- Take a callback for the absence of a value. -/
  onNull : Bool := false
  bridgeMethod : String
  /-- The filter that the subscription accepts. -/
  filterType? : Option String := none
  arguments : List SubscriptionArgument := []
  deriving DecidableEq, Repr

/-- The configuration: functions and subscriptions by module, in the order of the module names. -/
structure Config where
  version? : Option Nat := none
  functions : Entries (List CustomFunction) := []
  subscriptions : Entries (List Subscription) := []
  deriving DecidableEq, Repr

namespace Config

/-- The functions configured for a module. -/
def functionsFor (config : Config) (module : String) : List CustomFunction :=
  (config.functions.find? module).getD []

/-- The subscriptions configured for a module. -/
def subscriptionsFor (config : Config) (module : String) : List Subscription :=
  (config.subscriptions.find? module).getD []

end Config

end ClientBindings
