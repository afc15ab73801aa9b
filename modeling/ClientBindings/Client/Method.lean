import ClientBindings.Client.Lines
import ClientBindings.Client.TypeExpr
import ClientBindings.Functions.Custom
import ClientBindings.Text.Alphabet

/-!
# Methods

Typed methods of the client as data: parameters, statements that put the arguments together, and one
backend call. How they are written comes last (`Method.lines`).

* `Target`: the full client takes the connection as its first parameter; the reduced one goes
  through a shared service and bridges the results of actions.
* `WireValue`: what is sent for a value, by its type (`WireValue.ofField`).
* `Statement`, `Payload`: the dictionaries of arguments and the ways they are filled.
-/

namespace ClientBindings

/-- Which client is written. -/
inductive Target
  | full
  | reduced
  deriving DecidableEq, Repr

/-! ## Parameters -/

/-- A parameter, with the label it has at call sites if that is not its name. -/
structure Parameter where
  label : Option String := none
  name : String
  type : TypeExpr
  /-- The expression used where no argument is given. -/
  fallback : Option String := none
  deriving DecidableEq, Repr

namespace Parameter

/-- The parameter as it is declared. -/
def text (parameter : Parameter) : String :=
  let label := (parameter.label.map (· ++ " ")).getD ""
  let fallback := (parameter.fallback.map (" = " ++ ·)).getD ""
  label ++ parameter.name ++ ": " ++ parameter.type.text ++ fallback

/-- A parameter that may be left out. -/
def optional (name : String) (type : TypeExpr) : Parameter :=
  { name, type := .optional type, fallback := some "nil" }

/-- The connection of the full client. -/
def client : Parameter :=
  { label := some "_", name := "client", type := .named "ConvexClientProtocol" }

end Parameter

/-- The parameters that every method of the target starts with. -/
def Target.params : Target → List Parameter
  | .full => [.client]
  | .reduced => []

/-- The receiver and method of a backend call. -/
def Target.call : Target → CallKind → String
  | .full, kind => "client." ++ kind.word
  | .reduced, .mutation => "ConvexService.shared.mutate"
  | .reduced, .query => "ConvexService.shared.query"
  | .reduced, .action => "ConvexService.shared.action"

/-! ## Values on the wire -/

/-- How a value is encoded. -/
inductive Coding
  | plain
  /-- An enumeration, by its raw value. -/
  | rawValue
  /-- An array of enumerations, by the raw values of its elements. -/
  | rawValues
  deriving DecidableEq, Repr

/-- An expression and the way its value is encoded. -/
structure WireValue where
  subject : String
  coding : Coding := .plain
  deriving DecidableEq, Repr

namespace WireValue

/-- The expression that is sent. -/
def text (value : WireValue) : String :=
  match value.coding with
  | .plain => value.subject
  | .rawValue => value.subject ++ ".rawValue"
  | .rawValues => value.subject ++ ".map(\\.rawValue)"

/-- The value of a subject of the given type. -/
def ofField (subject : String) : FieldType → WireValue
  | .enumRef _ => ⟨subject, .rawValue⟩
  | .array (.enumRef _) false => ⟨subject, .rawValues⟩
  | _ => ⟨subject, .plain⟩

end WireValue

/-- An entry of a dictionary. -/
structure DictEntry where
  key : String
  value : WireValue
  deriving DecidableEq, Repr

namespace DictEntry

/-- An entry for a variable under its own name. -/
def same (name : String) : DictEntry := ⟨name, ⟨name, .plain⟩⟩

/-- The entry in a dictionary literal. -/
def text (entry : DictEntry) : String := s!"\"{entry.key}\": {entry.value.text}"

/-- A dictionary literal. -/
def literal (entries : List DictEntry) : String :=
  if entries.isEmpty then "[:]" else "[" ++ Lines.joined (entries.map text) ++ "]"

end DictEntry

/-! ## Statements -/

/-- A statement that comes before the backend call. -/
inductive Statement
  /-- A new dictionary. -/
  | dictionary (isMutable : Bool) (name : String) (entries : List DictEntry)
  /-- A parameter put into a dictionary where it has a value. -/
  | copy (parameter dictionary : String) (entry : DictEntry)
  /-- The place in a list of pages, or none. -/
  | cursor
  /-- The elements of an array of records, each as a dictionary of its own. -/
  | elements (array dictionaries : String) (required optional : List ElementField)
  deriving DecidableEq, Repr

namespace Statement

/-- The value of a field of an element. -/
def elementValue (subject : String) (field : ElementField) : WireValue :=
  ⟨subject, if field.isEnum then .rawValue else .plain⟩

/-- A new dictionary on a line. -/
def dictionaryLine (level : Nat) (isMutable : Bool) (name : String) (entries : List DictEntry) :
    String :=
  let binding := if isMutable then "var" else "let"
  Lines.line level s!"{binding} {name}: [String: Any] = {DictEntry.literal entries}"

/-- The lines of the statement. -/
def lines : Statement → List String
  | dictionary isMutable name entries => [dictionaryLine 2 isMutable name entries]
  | copy parameter target entry =>
    let assigned := s!"{target}[\"{entry.key}\"] = {entry.value.text}"
    [Lines.line 2 s!"if let {parameter} \x7b {assigned} \x7d"]
  | cursor =>
    [Lines.line 2 ("if let cursor \x7b paginationOpts[\"cursor\"] = cursor \x7d " ++
      "else \x7b paginationOpts[\"cursor\"] = NSNull() \x7d")]
  | elements array dictionaries required optional =>
    let entries := required.map fun field =>
      (⟨field.name, elementValue ("p." ++ field.name) field⟩ : DictEntry)
    let copies := optional.map fun field =>
      let value := (elementValue field.name field).text
      Lines.line 3
        s!"if let {field.name} = p.{field.name} \x7b d[\"{field.name}\"] = {value} \x7d"
    [Lines.line 2 s!"var {dictionaries} = [[String: Any]]()",
        Lines.line 2 s!"for p in {array} \x7b",
        dictionaryLine 3 (!optional.isEmpty) "d" entries] ++
      copies ++ [Lines.line 3 s!"{dictionaries}.append(d)", Lines.line 2 "\x7d"]

end Statement

/-- The dictionary of paging options, and the place in the list. -/
def pagingStatements : List Statement :=
  [.dictionary true "paginationOpts" [.same "numItems"], .cursor]

/-- The argument expression of a backend call. -/
inductive Payload
  | literal (entries : List DictEntry)
  | variable (name : String)
  /-- What the module's `listArgs` gives for labelled arguments. -/
  | listArgs (arguments : List (String × String))
  deriving DecidableEq, Repr

/-- The expression of the payload. -/
def Payload.text : Payload → String
  | .literal entries => DictEntry.literal entries
  | .variable name => name
  | .listArgs arguments =>
    let arguments := arguments.map fun (label, value) => s!"{label}: {value}"
    "listArgs(" ++ Lines.joined arguments ++ ")"

/-! ## Methods -/

/-- What becomes of the result of a call. -/
inductive Outcome
  /-- There is none. -/
  | none
  | value (type : TypeExpr)
  /-- It is decoded as the type and dropped. -/
  | discard (type : String)
  deriving DecidableEq, Repr

/-- A typed method around one backend call. -/
structure Method where
  target : Target
  name : String
  kind : CallKind
  /-- The parameters past those of the target. -/
  params : List Parameter
  /-- Whether the parameters stand on one line. -/
  isInline : Bool := false
  setup : List Statement := []
  /-- The function called, as `module:function`. -/
  key : String
  payload : Payload
  outcome : Outcome := .none
  /-- The bridged method for an action, if it is not named by the type. -/
  bridgeMethod? : Option String := Option.none
  bridgeArray : Bool := false
  deriving DecidableEq, Repr

namespace Method

/-- What follows the parameters. -/
def tail (method : Method) : String :=
  match method.outcome with
  | .value type => s!"async throws -> {type.text} \x7b"
  | _ => "async throws \x7b"

/-- The opening lines. -/
def signature (method : Method) : List String :=
  let params := (method.target.params ++ method.params).map Parameter.text
  if method.isInline then [Lines.inlineSignature method.name params method.tail]
  else Lines.multilineSignature method.name params method.tail

/-- The type that a result without use is decoded as. -/
def voidType : String := "[String: String]"

/-- The bridged method for an action with a result of the given type, and whether its result is
converted to an array. Without a method of its own it is named by the type, in the plural for an
array. -/
def bridge (method : Method) (type : String) : String × Bool :=
  match method.bridgeMethod? with
  | some name => (name, method.bridgeArray)
  | Option.none =>
    let bare := String.ofList (type.toList.filter Text.isLetterOrNumber)
    if type.toList.head? = some '[' then ("action" ++ bare ++ "s", true)
    else ("action" ++ bare, method.bridgeArray)

/-- A bridged call whose result is decoded and dropped. -/
def discardLines (method : Method) (type : String) : List String :=
  let arguments := s!"args: {method.payload.text}"
  let service := "try await ConvexService.shared.action"
  [Lines.line 2 "#if !SKIP",
    Lines.line 2
      s!"let _: {type} = {service}(\"{method.key}\", {arguments}, returning: {type}.self)",
    Lines.line 2 "#else",
    Lines.line 2 s!"{service}(name: \"{method.key}\", {arguments})",
    Lines.line 2 "#endif"]

/-- A bridged call whose result is returned. -/
def bridgedLines (method : Method) (type : String) : List String :=
  let arguments := s!"args: {method.payload.text}"
  let (name, isArray) := method.bridge type
  let bridged := s!"try await ConvexService.shared.{name}(name: \"{method.key}\", {arguments})"
  let service := "try await ConvexService.shared.action"
  [Lines.line 2 "#if !SKIP",
    Lines.line 2 s!"return {service}(\"{method.key}\", {arguments}, returning: {type}.self)",
    Lines.line 2 "#else",
    Lines.line 2 (if isArray then s!"return Array({bridged})" else s!"return {bridged}"),
    Lines.line 2 "#endif"]

/-- A call that the client makes itself. A value is returned by name where statements come before
the call. -/
def directLine (method : Method) : String :=
  let call := s!"try await {method.target.call method.kind}(\"{method.key}\", " ++
    s!"args: {method.payload.text})"
  match method.outcome with
  | .discard type => Lines.line 2 s!"let _: {type} = {call}"
  | .value _ => Lines.line 2 (if method.setup.isEmpty then call else "return " ++ call)
  | .none => Lines.line 2 call

/-- The lines of the backend call. The reduced client bridges actions. -/
def callLines (method : Method) : List String :=
  match method.target, method.kind with
  | .reduced, .action =>
    match method.outcome with
    | .discard type => method.discardLines type
    | .none => method.discardLines voidType
    | .value type => method.bridgedLines type.text
  | _, _ => [method.directLine]

/-- The lines of the method. -/
def lines (method : Method) : List String :=
  method.signature ++ method.setup.flatMap Statement.lines ++ method.callLines ++
    [Lines.line 1 "\x7d"]

end Method

end ClientBindings
