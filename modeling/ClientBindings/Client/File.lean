import ClientBindings.Client.CustomMethod
import ClientBindings.Client.Shared
import ClientBindings.Client.Subscribe

/-!
# Client files

The two files of the client as data, and their texts.

* `FullClient`: every declaration: synthesized records and enumerations, the records of tables,
  shared types, filters, and one declaration of functions for every module.
* `ReducedClient`: extensions of the functions with the mutations, actions and subscriptions of the
  reduced client.
* `Stats`: the counts reported after a run.
-/

namespace ClientBindings

/-- What the client is made from. -/
structure Inputs where
  model : Model
  modules : List Module
  config : Config

/-- The declaration that holds the functions of a module. -/
structure ApiDecl where
  name : String
  /-- The exported functions and their keys. -/
  constants : List (String × String)
  listArgs : Option ListArgs
  methods : List Method
  deriving DecidableEq, Repr

namespace ApiDecl

/-- The declaration of a module. -/
def ofModule (inputs : Inputs) (module : Module) : ApiDecl :=
  let around := Surroundings.ofModule inputs.model module
  { name := apiName module.name
    constants := module.exports.map fun function => (function, around.key function)
    listArgs := ListArgs.ofModule? around
    methods := moduleMethods inputs.model inputs.config around .full }

/-- The lines of the declaration. -/
def lines (api : ApiDecl) : List String :=
  let constants := api.constants.map fun (name, key) =>
    Lines.line 1 s!"public static let {name} = \"{key}\""
  let helper := match api.listArgs with
    | some helper => "" :: helper.lines
    | none => []
  let methods := if api.methods.isEmpty then [] else
    "" :: Lines.line 1 "#if DESKTOP" :: Lines.separated (api.methods.map Method.lines) ++
      [Lines.line 1 "#endif"]
  Lines.line 0 s!"public enum {api.name} \x7b" :: constants ++ helper ++ methods ++
    [Lines.line 0 "\x7d", ""]

end ApiDecl

/-! ## The full client -/

/-- The first line of every file. -/
def banner : String := "// Auto-generated by lazyconvex-codegen-swift. DO NOT EDIT."

/-- The full client. -/
structure FullClient where
  records : List StructDecl
  enums : List EnumDecl
  tables : List StructDecl
  shared : SharedDecls
  filters : List FilterDecl
  apis : List ApiDecl
  deriving DecidableEq, Repr

namespace FullClient

/-- The full client of some inputs. -/
def ofInputs (inputs : Inputs) : FullClient :=
  let records := recordDecls inputs.model.registry
  let enums := enumDecls inputs.model.registry
  let synthesized := records.map (·.name) ++ enums.map (·.name)
  let tables := tableDecls synthesized inputs.model.tables
  { records, enums, tables
    shared := sharedDecls (synthesized ++ tables.map (·.name))
    filters := inputs.model.filters.map FilterDecl.ofFilter
    apis := inputs.modules.map (ApiDecl.ofModule inputs) }

/-- The names of all declarations, in the order of the file. -/
def typeNames (client : FullClient) : List String :=
  client.records.map (·.name) ++ client.enums.map (·.name) ++ client.tables.map (·.name) ++
    client.shared.names ++ client.filters.map (·.name) ++ client.apis.map (·.name)

/-- The lines of the file. -/
def lines (client : FullClient) : List String :=
  [banner, "// swiftlint:disable file_types_order file_length", "import Foundation", ""] ++
    client.records.flatMap StructDecl.lines ++ client.enums.flatMap EnumDecl.lines ++
    client.tables.flatMap StructDecl.lines ++ client.shared.lines ++
    client.filters.flatMap FilterDecl.lines ++ client.apis.flatMap ApiDecl.lines ++
    ["// swiftlint:enable file_types_order file_length"]

/-- The text of the file. -/
def text (client : FullClient) : String := Lines.fileText client.lines

end FullClient

/-! ## The reduced client -/

/-- The extensions of the functions of a module. -/
structure ApiExtension where
  name : String
  methods : List Method
  subscriptions : List SubscriptionMethod
  deriving DecidableEq, Repr

namespace ApiExtension

/-- The extensions of a module. -/
def ofModule (inputs : Inputs) (module : Module) : ApiExtension :=
  let around := Surroundings.ofModule inputs.model module
  { name := apiName module.name
    methods := moduleMethods inputs.model inputs.config around .reduced
    subscriptions := (inputs.config.subscriptionsFor module.name).map
      (SubscriptionMethod.ofSubscription module.name) }

/-- The lines of one extension; there is none without members. -/
def blockLines (name : String) (members : List (List String)) : List String :=
  if members.isEmpty then []
  else "" :: Lines.line 0 s!"extension {name} \x7b" :: Lines.separated members ++
    [Lines.line 0 "\x7d"]

/-- The lines of the extensions. -/
def lines (api : ApiExtension) : List String :=
  blockLines api.name (api.methods.map Method.lines) ++
    blockLines api.name (api.subscriptions.map SubscriptionMethod.lines)

end ApiExtension

/-- The reduced client. -/
structure ReducedClient where
  extensions : List ApiExtension
  deriving DecidableEq, Repr

namespace ReducedClient

/-- The reduced client of some inputs. -/
def ofInputs (inputs : Inputs) : ReducedClient :=
  { extensions := inputs.modules.map (ApiExtension.ofModule inputs) }

/-- The lines of the file. -/
def lines (client : ReducedClient) : List String :=
  [banner, "// swiftlint:disable file_length", "import Foundation", ""] ++
    client.extensions.flatMap ApiExtension.lines

/-- The text of the file. -/
def text (client : ReducedClient) : String := Lines.fileText client.lines

end ReducedClient

/-! ## Counts -/

/-- The counts reported after a run. -/
structure Stats where
  /-- Records of tables and synthesized ones. -/
  structs : Nat
  enums : Nat
  modules : Nat
  /-- Exported functions over all modules. -/
  constants : Nat
  /-- Methods of the full client. -/
  methods : Nat
  filters : Nat
  deriving DecidableEq, Repr

namespace Stats

/-- The counts of a full client. -/
def ofClient (client : FullClient) : Stats where
  structs := client.tables.length + client.records.length
  enums := client.enums.length
  modules := client.apis.length
  constants := client.apis.foldl (fun count api => count + api.constants.length) 0
  methods := client.apis.foldl (fun count api => count + api.methods.length) 0
  filters := client.filters.length

/-- The counts as one line. -/
def text (stats : Stats) : String :=
  s!"{stats.structs} structs, {stats.enums} enums, {stats.modules} modules, " ++
    s!"{stats.constants} API constants, {stats.methods} typed wrappers, " ++
    s!"{stats.filters} Where structs"

end Stats

end ClientBindings
