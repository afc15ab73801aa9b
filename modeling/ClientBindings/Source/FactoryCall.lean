import ClientBindings.Schema.Document
import ClientBindings.Source.Lexing
import ClientBindings.Source.Pattern

/-!
# Factory calls

Calls such as `crud('blog', owned.blog, { search: true })` wire the endpoints of a table into the
backend. They are found by their masked form; table names and option texts are read from the source.

* `factoryCalls`: the calls of a source, in source order. A call whose first argument is no plain
  word in quotes is passed over.
* `detectOptions`: the option keys that stand in a text.
* `FactoryCall.endpoints`: what a call exposes.
-/

namespace ClientBindings

/-- A factory of endpoints. -/
inductive Factory
  | crud
  | orgCrud
  | childCrud
  | cacheCrud
  | singletonCrud
  deriving DecidableEq, Repr

namespace Factory

/-- The factories by name. -/
def named : List (String × Factory) :=
  [("crud", crud), ("orgCrud", orgCrud), ("childCrud", childCrud), ("cacheCrud", cacheCrud),
    ("singletonCrud", singletonCrud)]

/-- The name of the factory. -/
def name : Factory → String
  | crud => "crud"
  | orgCrud => "orgCrud"
  | childCrud => "childCrud"
  | cacheCrud => "cacheCrud"
  | singletonCrud => "singletonCrud"

/-- The factory of a name. -/
def ofName? (name : String) : Option Factory := named.lookup name

/-- The kind of the tables that the factory serves. -/
def tableKind : Factory → TableKind
  | crud => .owned
  | orgCrud => .orgScoped
  | childCrud => .child
  | cacheCrud => .base
  | singletonCrud => .singleton

end Factory

/-- The options that a factory call sets. -/
structure FactoryOptions where
  search : Bool := false
  softDelete : Bool := false
  acl : Bool := false
  isPublic : Bool := false
  deriving DecidableEq, Repr

/-- A factory call in a source file. -/
structure FactoryCall where
  factory : Factory
  table : String
  file : String
  /-- The source between the table name and the closing parenthesis. -/
  optionsText : String
  options : FactoryOptions
  deriving DecidableEq, Repr

/-- An endpoint; a public one is reached without a login. -/
structure Endpoint where
  name : String
  isPublic : Bool := false
  deriving DecidableEq, Repr

namespace Source

/-! ## Options -/

/-- An option key. -/
inductive OptionKey
  | search
  | softDelete
  | acl
  | pub
  deriving DecidableEq, Repr

/-- The option keys by name. -/
def OptionKey.named : List (String × OptionKey) :=
  [("search", search), ("softDelete", softDelete), ("acl", acl), ("pub", pub)]

/-- The options with one key set. -/
def OptionKey.set (options : FactoryOptions) : OptionKey → FactoryOptions
  | search => { options with search := true }
  | softDelete => { options with softDelete := true }
  | acl => { options with acl := true }
  | pub => { options with isPublic := true }

/-- An option key with the mark that makes it one: a colon, or the end of a shorthand. -/
def optionKey? (last : Option Char) (text : List Char) : Option (OptionKey × Nat) := do
  if outsideWord id last then
    let (key, rest) ← dropAny? id text OptionKey.named
    match skipBlanks id rest with
    | c :: rest =>
      if c = ':' ∨ c = ',' ∨ c = '}' ∨ c = ')' then return upTo text rest key else none
    | [] => none
  else none

/-- The options whose keys stand in a text. -/
def detectOptions (text : List Char) : FactoryOptions :=
  (scan optionKey? text).foldl OptionKey.set {}

/-! ## Calls -/

/-- A factory name, its opening parenthesis and the opening quote of its first argument: the
factory, the quote and the cells past it. -/
def callOpening? (last : Option Cell) (text : List Cell) :
    Option ((Factory × Char × List Cell) × Nat) := do
  if outsideWord Cell.shown last then
    let (factory, rest) ← dropAny? Cell.shown text Factory.named
    let rest ← dropMark? Cell.shown ['('] (skipBlanks Cell.shown rest)
    match skipBlanks Cell.shown rest with
    | c :: rest =>
      if c.shown = '\'' ∨ c.shown = '"' then return upTo text rest (factory, c.shown, rest)
      else none
    | [] => none
  else none

/-- The cells of a call up to the parenthesis that closes it, with `depth` more open inside; all of
them if it is not closed. -/
def untilClosed : Nat → List Cell → List Cell
  | _, [] => []
  | depth, c :: rest =>
    if c.shown = '(' then c :: untilClosed (depth + 1) rest
    else if c.shown = ')' then
      match depth with
      | 0 => []
      | depth + 1 => c :: untilClosed depth rest
    else c :: untilClosed depth rest

/-- The source of some cells. -/
def sourceText (cells : List Cell) : String := String.ofList (cells.map Cell.char)

/-- The call with the given opening; none if its first argument is no plain word in quotes. -/
def callOf? (file : String) : Factory × Char × List Cell → Option FactoryCall
  | (factory, quote, text) =>
    let table := (text.takeWhile fun c => c.shown ≠ quote).map Cell.char
    match text.dropWhile fun c => c.shown ≠ quote with
    | [] => none
    | _ :: rest =>
      if !table.isEmpty && table.all Text.isWord then
        let arguments := untilClosed 0 rest
        some {
          factory
          table := String.ofList table
          file
          optionsText := sourceText arguments
          options := detectOptions (arguments.map Cell.shown) }
      else none

/-- The factory calls of a source file, in source order. -/
def factoryCalls (file source : String) : List FactoryCall :=
  (scan callOpening? (mask source.toList)).filterMap (callOf? file)

end Source

/-! ## Endpoints -/

/-- The name of an endpoint with the mark of a public one. -/
def Endpoint.text (endpoint : Endpoint) : String :=
  if endpoint.isPublic then "pub." ++ endpoint.name else endpoint.name

/-- Endpoints behind a login. -/
def Endpoint.guarded (names : List String) : List Endpoint := names.map fun name => { name }

/-- Public endpoints. -/
def Endpoint.open (names : List String) : List Endpoint :=
  names.map fun name => { name, isPublic := true }

/-- Writing endpoints that most factories share. -/
def writeEndpoints : List String :=
  ["create", "update", "rm", "bulkCreate", "bulkRm", "bulkUpdate"]

/-- The endpoints that a call exposes. -/
def FactoryCall.endpoints (call : FactoryCall) : List Endpoint :=
  let options := call.options
  let whenSet (flag : Bool) (endpoints : List Endpoint) := if flag then endpoints else []
  match call.factory with
  | .singletonCrud => Endpoint.guarded ["get", "upsert"]
  | .cacheCrud =>
    Endpoint.guarded ["get", "all", "list", "create", "update", "rm", "invalidate", "purge",
      "load", "refresh"]
  | .childCrud =>
    Endpoint.guarded ("list" :: writeEndpoints) ++
      whenSet options.isPublic (Endpoint.open ["list", "get"])
  | .orgCrud =>
    Endpoint.guarded ("list" :: "read" :: writeEndpoints) ++
      whenSet options.acl
        (Endpoint.guarded ["addEditor", "removeEditor", "setEditors", "editors"]) ++
      whenSet options.softDelete (Endpoint.guarded ["restore"]) ++
      whenSet options.search (Endpoint.guarded ["search"])
  | .crud =>
    Endpoint.guarded writeEndpoints ++ Endpoint.open ["list", "read"] ++
      whenSet options.search (Endpoint.open ["search"]) ++
      whenSet options.softDelete (Endpoint.guarded ["restore"])

end ClientBindings
