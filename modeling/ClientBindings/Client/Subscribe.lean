import ClientBindings.Client.Crud

/-!
# Methods of subscriptions

The reduced client's methods for live subscriptions.

* `SubscriptionMethod.ofSubscription`: the method as data; a paginated subscription puts its
  arguments together with the module's `listArgs`.
-/

namespace ClientBindings

/-- A method that subscribes to a function. -/
structure SubscriptionMethod where
  name : String
  params : List Parameter
  /-- The declaration that holds the function, and the function. -/
  api : String
  function : String
  /-- The arguments of `listArgs`, for a paginated subscription. -/
  paging : Option (List (String × String)) := none
  /-- The arguments of the subscription, if it sends any. -/
  payload : Option Payload
  updateType : String
  bridgeMethod : String
  /-- Convert the bridged result to an array. -/
  isArray : Bool
  onNull : Bool
  deriving DecidableEq, Repr

namespace SubscriptionMethod

/-- The type of a callback on the main thread. -/
def callback (argument : String) : TypeExpr :=
  .verbatim s!"@escaping @Sendable @MainActor ({argument}) -> Void"

/-- The parameters of a subscription. -/
def paramsOf (subscription : Subscription) : List Parameter :=
  let filter := subscription.filterType?.toList.map fun type =>
    { Parameter.optional "filterWhere" (.verbatim type) with label := some "where" }
  let arguments := subscription.arguments.map fun argument =>
    ({ name := argument.name, type := .verbatim argument.type } : Parameter)
  let update := subscription.updateType ++ if subscription.isNullable then "?" else ""
  let onError : Parameter :=
    { name := "onError", type := callback "Error", fallback := some "\x7b _ in _ = () \x7d" }
  let onNull : Parameter :=
    { name := "onNull", type := callback "", fallback := some "\x7b () \x7d" }
  filter ++ arguments ++ [{ name := "onUpdate", type := callback update }, onError] ++
    if subscription.onNull then [onNull] else []

/-- The arguments of `listArgs` for a paginated subscription. -/
def pagingOf (subscription : Subscription) : List (String × String) :=
  let hasOrg := subscription.arguments.any fun argument => argument.name == "orgId"
  (if hasOrg then [("orgId", "orgId")] else []) ++
    if subscription.filterType?.isSome then [("where", "filterWhere")] else []

/-- What a subscription sends. One to an array without arguments leaves them to the bridge. -/
def payloadOf (subscription : Subscription) : Option Payload :=
  if subscription.isPaginated then some (.variable "args")
  else if subscription.arguments.isEmpty then
    if subscription.isArray then none else some (.literal [])
  else some (.literal (subscription.arguments.map fun argument => .same argument.name))

/-- The method of a subscription of a module. -/
def ofSubscription (module : String) (subscription : Subscription) : SubscriptionMethod where
  name := subscription.methodName
  params := paramsOf subscription
  api := apiName module
  function := subscription.function
  paging := if subscription.isPaginated then some (pagingOf subscription) else none
  payload := payloadOf subscription
  updateType := subscription.updateType
  bridgeMethod := subscription.bridgeMethod
  isArray := subscription.isArray
  onNull := subscription.onNull

/-- The lines of the method. -/
def lines (method : SubscriptionMethod) : List String :=
  let paging := match method.paging with
    | some arguments => [Lines.line 2 s!"let args = {(Payload.listArgs arguments).text}"]
    | none => []
  let arguments := match method.payload with
    | some payload => ", args: " ++ payload.text
    | none => ""
  let source := s!"to: {method.api}.{method.function}{arguments}"
  let update := if method.isArray then "\x7b r in onUpdate(Array(r)) \x7d"
    else "\x7b r in onUpdate(r) \x7d"
  let onNull := if method.onNull then ", onNull: \x7b onNull() \x7d" else ""
  let native := s!"type: {method.updateType}.self, onUpdate: onUpdate, onError: onError"
  let bridged := s!"onUpdate: {update}, onError: " ++ "\x7b e in onError(e) \x7d" ++ onNull
  let service := "return ConvexService.shared."
  Lines.line 1 "@preconcurrency" ::
    Lines.multilineSignature method.name (method.params.map Parameter.text) "-> String \x7b" ++
    paging ++
    [Lines.line 2 "#if !SKIP",
      Lines.line 2 s!"{service}subscribe({source}, {native})",
      Lines.line 2 "#else",
      Lines.line 2 s!"{service}{method.bridgeMethod}({source}, {bridged})",
      Lines.line 2 "#endif",
      Lines.line 1 "\x7d"]

end SubscriptionMethod

end ClientBindings
