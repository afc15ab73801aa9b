import ClientBindings.Functions.Custom
import ClientBindings.Json.Reader
import ClientBindings.Json.Record

/-!
# Configuration documents

The configuration as a JSON document.

* `Config.parse?`: the configuration of a text; none if it is no JSON document of this form.
-/

namespace ClientBindings

open Json (required? orElse? optional? text? flag? listOf? natural? sortedTableOf?)

/-- A call kind, written as its word or as an object with the word as its only key. -/
def CallKind.decode? : Json → Option CallKind
  | .string text => text.bind ofWord?
  | .object [(key, .null)] => key.bind ofWord?
  | _ => none

/-- The argument of a JSON value. -/
def Argument.decode? (json : Json) : Option Argument := do
  let record ← json.record? ["name", "swiftType", "isOptional", "wireName", "wireExpr"]
  return {
    name := ← required? record "name" text?
    type := ← required? record "swiftType" text?
    isOptional := ← orElse? record "isOptional" false flag?
    wireName? := ← optional? record "wireName" text?
    wireExpr? := ← optional? record "wireExpr" text? }

/-- The element field of a JSON value. -/
def ElementField.decode? (json : Json) : Option ElementField := do
  let record ← json.record? ["name", "enumField", "optional"]
  return {
    name := ← required? record "name" text?
    isEnum := ← orElse? record "enumField" false flag?
    isOptional := ← orElse? record "optional" false flag? }

/-- The array of records of a JSON value. -/
def RecordArray.decode? (json : Json) : Option RecordArray := do
  let record ← json.record? ["arg", "record", "fields"]
  return {
    argument := ← required? record "arg" text?
    record := ← required? record "record" text?
    fields? := ← optional? record "fields" (listOf? ElementField.decode?) }

/-- The fields of a function record, in declaration order. -/
def CustomFunction.recordFields : List String :=
  ["fn", "kind", "args", "returnType", "nestedData", "nestedDataOuter", "structArray",
    "dummyActionType", "skipMethod", "skipArrayCast"]

/-- The function of a JSON value. -/
def CustomFunction.decode? (json : Json) : Option CustomFunction := do
  let record ← json.record? recordFields
  return {
    name := ← required? record "fn" text?
    kind := ← required? record "kind" CallKind.decode?
    arguments := ← orElse? record "args" [] (listOf? Argument.decode?)
    returnType? := ← optional? record "returnType" text?
    isNested := ← orElse? record "nestedData" false flag?
    outer := ← orElse? record "nestedDataOuter" [] (listOf? text?)
    recordArray? := ← optional? record "structArray" RecordArray.decode?
    discardType? := ← optional? record "dummyActionType" text?
    bridgeMethod? := ← optional? record "skipMethod" text?
    bridgeArray := ← orElse? record "skipArrayCast" false flag? }

/-- The subscription argument of a JSON value. -/
def SubscriptionArgument.decode? (json : Json) : Option SubscriptionArgument := do
  let record ← json.record? ["name", "swiftType"]
  return { name := ← required? record "name" text?, type := ← required? record "swiftType" text? }

/-- The fields of a subscription record, in declaration order. -/
def Subscription.recordFields : List String :=
  ["methodName", "fn", "swiftType", "paginated", "array", "nullable", "onNull", "skipMethod",
    "whereType", "args"]

/-- The subscription of a JSON value. -/
def Subscription.decode? (json : Json) : Option Subscription := do
  let record ← json.record? recordFields
  return {
    methodName := ← required? record "methodName" text?
    function := ← required? record "fn" text?
    updateType := ← required? record "swiftType" text?
    isPaginated := ← orElse? record "paginated" false flag?
    isArray := ← orElse? record "array" false flag?
    isNullable := ← orElse? record "nullable" false flag?
    onNull := ← orElse? record "onNull" false flag?
    bridgeMethod := ← required? record "skipMethod" text?
    filterType? := ← optional? record "whereType" text?
    arguments := ← orElse? record "args" [] (listOf? SubscriptionArgument.decode?) }

namespace Config

/-- The largest version number. -/
def maxVersion : Nat := 0xFFFFFFFF

/-- The configuration of a JSON document. -/
def ofJson? (json : Json) : Option Config := do
  let record ← json.record? ["version", "functions", "subscriptions"]
  return {
    version? := ← optional? record "version" (natural? maxVersion)
    functions :=
      ← orElse? record "functions" [] (sortedTableOf? (listOf? CustomFunction.decode?))
    subscriptions :=
      ← orElse? record "subscriptions" [] (sortedTableOf? (listOf? Subscription.decode?)) }

/-- The configuration of a text. -/
def parse? (text : String) : Option Config := (Json.parse? text).bind ofJson?

end Config

end ClientBindings
