import ClientBindings.Client.TypeExpr
import ClientBindings.Functions.Custom
import ClientBindings.Source.Module

/-!
# Standard functions

Functions that backends share, and the modules they apply to. What a module exports and the table it
serves decide, never its name.

* `organizationFunctions`: the life of an organization, its members, invites and join requests.
* `editorFunctions`: the editors of the rows of a table.
* `childFunctions`: the rows of a child table by their parent, and the creation of rows with an
  array of records.
* `Module.standardFunctions`: those that apply to a module.
-/

namespace ClientBindings

namespace Standard

/-- A query. -/
def query (name : String) (arguments : List Argument) (returns : String) : CustomFunction :=
  { name, kind := .query, arguments, returnType? := some returns }

/-- A mutation without a result. -/
def mutation (name : String) (arguments : List Argument) : CustomFunction :=
  { name, kind := .mutation, arguments }

/-- A mutation that sends its arguments in a dictionary of their own, beside the outer ones. -/
def nested (name : String) (outer : List String) (arguments : List Argument) : CustomFunction :=
  { mutation name arguments with isNested := true, outer }

/-- The id of an organization. -/
def orgId : Argument := .required "orgId" "String"

/-- The functions of an organization module. -/
def organizationFunctions : List CustomFunction := [
  nested "create" []
    [.required "name" "String", .required "slug" "String", .optional "avatarId" "String"],
  nested "update" ["orgId"]
    [.optional "name" "String", .optional "slug" "String", .optional "avatarId" "String"],
  query "get" [orgId] "Org",
  query "getBySlug" [.required "slug" "String"] "Org?",
  query "getPublic" [.required "slug" "String"] "Org?",
  query "myOrgs" [] "[OrgWithRole]",
  mutation "remove" [orgId],
  query "isSlugAvailable" [.required "slug" "String"] "SlugAvailability",
  { mutation "getOrCreate" [] with returnType? := some "OrgGetOrCreateResult" },
  query "membership" [orgId] "OrgMembership",
  query "members" [orgId] "[OrgMemberEntry]",
  mutation "setAdmin" [.required "isAdmin" "Bool", .required "memberId" "String"],
  mutation "removeMember" [.required "memberId" "String"],
  mutation "leave" [orgId],
  mutation "transferOwnership" [.required "newOwnerId" "String", orgId],
  mutation "invite" [.required "email" "String", .required "isAdmin" "Bool", orgId],
  mutation "acceptInvite" [.required "token" "String"],
  mutation "revokeInvite" [.required "inviteId" "String"],
  query "pendingInvites" [orgId] "[OrgInvite]",
  mutation "requestJoin" [orgId, .optional "message" "String"],
  mutation "approveJoinRequest" [.required "requestId" "String", .optional "isAdmin" "Bool"],
  mutation "rejectJoinRequest" [.required "requestId" "String"],
  mutation "cancelJoinRequest" [.required "requestId" "String"],
  query "pendingJoinRequests" [orgId] "[JoinRequestEntry]",
  query "myJoinRequest" [orgId] "OrgJoinRequest?"]

/-- The functions for the editors of the rows of a table. -/
def editorFunctions (table : String) : List CustomFunction :=
  let rowId := Argument.required (table ++ "Id") "String"
  [mutation "addEditor" [orgId, .required "editorId" "String", rowId],
    query "editors" [orgId, rowId] "[EditorEntry]",
    mutation "removeEditor" [orgId, .required "editorId" "String", rowId],
    mutation "setEditors" [orgId, .required "editorIds" "[String]", rowId]]

/-- An argument for a field of a row. An enumeration is sent by its raw value. -/
def fieldArgument (name : String) (entry : FieldEntry) : Argument :=
  { name
    type := (TypeExpr.ofField entry.type).text
    isOptional := entry.isOptional
    wireExpr? := entry.type.enumName?.map fun _ => name ++ ".rawValue" }

/-- The rows of a child table by their parent. -/
def childList (table : Table) : List CustomFunction :=
  match table.foreignKey with
  | some foreignKey =>
    [query "list" [.required foreignKey "String"] ("[" ++ structPlaceholder ++ "]")]
  | none => []

/-- Whether every declared field can be sent as it is. -/
def allArgSafe (table : Table) : Bool := table.declared.all fun (_, entry) => entry.type.isArgSafe

/-- The first declared field that is an array of records, and the record. -/
def recordArray? (table : Table) : Option RecordArray :=
  table.declared.findSome? fun (name, entry) =>
    entry.type.elementRecord?.map fun record => { argument := name, record }

/-- The creation of rows where some field cannot be sent as it is and one is an array of
records. -/
def childCreate (table : Table) : List CustomFunction :=
  match allArgSafe table, recordArray? table with
  | false, some array =>
    let arguments := table.declared.map fun (name, entry) => fieldArgument name entry
    [{ mutation "create" arguments with recordArray? := some array }]
  | _, _ => []

/-- The functions of a child table. -/
def childFunctions (table : Table) : List CustomFunction := childList table ++ childCreate table

/-- The exports that make a module that of the organizations. -/
def organizationExports : List String := ["myOrgs", "membership", "members"]

/-- The exports that make a module one with editors. -/
def editorExports : List String := ["addEditor", "removeEditor", "setEditors", "editors"]

end Standard

namespace Module

/-- Whether the module exports all of the names. -/
def exportsAll (module : Module) (names : List String) : Bool := names.all module.exportsName

/-- The functions of organizations, or those for editors. -/
def sharedFunctions (module : Module) : List CustomFunction :=
  if module.exportsAll Standard.organizationExports then Standard.organizationFunctions
  else if module.exportsAll Standard.editorExports then Standard.editorFunctions module.table
  else []

/-- The upload of a file, in a module that serves no table. -/
def uploadFunctions (module : Module) : List CustomFunction :=
  if module.kind.isNone && module.exportsName "upload" then
    [{ Standard.mutation "upload" [] with returnType? := some "String" }]
  else []

/-- The functions of the child table that the module serves. -/
def childFunctions (module : Module) (model : Model) : List CustomFunction :=
  match model.table? module.table with
  | some table => if table.kind = .child then Standard.childFunctions table else []
  | none => []

/-- The standard functions that apply to the module. -/
def standardFunctions (module : Module) (model : Model) : List CustomFunction :=
  module.sharedFunctions ++ module.uploadFunctions ++ module.childFunctions model

end Module

end ClientBindings
