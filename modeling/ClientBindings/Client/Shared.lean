import ClientBindings.Client.Declaration

/-!
# Shared types

The types that every client relies on: authors, pages of results, and the records and enumerations
of organizations.

* `sharedDecls`: the shared types whose names no type of the schema has taken.
-/

namespace ClientBindings

namespace Shared

/-- An optional string. -/
def stringOrNil : TypeExpr := .optional .string

/-- The author of a row. -/
def author : StructDecl where
  name := "Author"
  properties := [⟨"name", stringOrNil⟩, ⟨"email", stringOrNil⟩, ⟨"imageUrl", stringOrNil⟩]

/-- Organizations and their members. -/
def organizationRecords : List StructDecl := [
  { name := "Org"
    properties := [⟨"_id", .string⟩, ⟨"_creationTime", .number⟩, ⟨"name", .string⟩,
      ⟨"slug", .string⟩, ⟨"userId", .string⟩, ⟨"updatedAt", .number⟩]
    identity := some "_id" },
  { name := "OrgMember"
    properties := [⟨"_id", .string⟩, ⟨"orgId", .string⟩, ⟨"userId", .string⟩, ⟨"isAdmin", .bool⟩,
      ⟨"updatedAt", .number⟩]
    identity := some "_id" }]

/-- The roles of members, and the states of requests to join. -/
def organizationEnums : List EnumDecl := [
  { name := "OrgRole"
    cases := [{ name := "admin" }, { name := "member" }, { name := "owner" }]
    members := ["public var isOwner: Bool \x7b self == .owner \x7d",
      "public var isAdmin: Bool \x7b self == .owner || self == .admin \x7d"] },
  { name := "JoinRequestStatus"
    cases := [{ name := "approved" }, { name := "pending" }, { name := "rejected" }] }]

/-- What the functions of organizations return. -/
def membershipRecords : List StructDecl := [
  { name := "OrgMemberEntry"
    properties := [⟨"memberId", stringOrNil⟩, ⟨"userId", .string⟩, ⟨"role", .named "OrgRole"⟩,
      ⟨"name", stringOrNil⟩, ⟨"email", stringOrNil⟩, ⟨"imageUrl", stringOrNil⟩]
    identity := some "userId" },
  { name := "OrgWithRole"
    properties := [⟨"org", .named "Org"⟩, ⟨"role", .named "OrgRole"⟩]
    identity := some "org._id" },
  { name := "OrgMembership"
    properties := [⟨"_id", stringOrNil⟩, ⟨"orgId", stringOrNil⟩, ⟨"userId", stringOrNil⟩,
      ⟨"isAdmin", .optional .bool⟩, ⟨"role", .optional (.named "OrgRole")⟩] },
  { name := "OrgInvite"
    properties := [⟨"_id", .string⟩, ⟨"_creationTime", .optional .number⟩, ⟨"orgId", .string⟩,
      ⟨"email", .string⟩, ⟨"expiresAt", .number⟩, ⟨"token", stringOrNil⟩,
      ⟨"isAdmin", .optional .bool⟩]
    identity := some "_id" },
  { name := "OrgJoinRequest"
    properties := [⟨"_id", .string⟩, ⟨"_creationTime", .optional .number⟩, ⟨"orgId", .string⟩,
      ⟨"userId", .string⟩, ⟨"status", .named "JoinRequestStatus"⟩, ⟨"message", stringOrNil⟩]
    identity := some "_id" },
  { name := "JoinRequestUser"
    properties := [⟨"name", stringOrNil⟩, ⟨"image", stringOrNil⟩] },
  { name := "JoinRequestEntry"
    properties := [⟨"request", .named "OrgJoinRequest"⟩,
      ⟨"user", .optional (.named "JoinRequestUser")⟩]
    identity := some "request._id" },
  { name := "EditorEntry"
    properties := [⟨"userId", .string⟩, ⟨"name", stringOrNil⟩, ⟨"email", stringOrNil⟩]
    identity := some "userId" },
  { name := "SlugAvailability"
    properties := [⟨"available", .bool⟩] },
  { name := "OrgGetOrCreateResult"
    properties := [⟨"created", .bool⟩, ⟨"orgId", .string⟩] }]

/-- The record of a page, for the given protocols. -/
def pageStructLines (protocols : String) : List String :=
  [Lines.line 0
      s!"public struct {TypeExpr.pageName}<T: Codable & Sendable>: {protocols} \x7b",
    Lines.line 1 "public let page: [T]",
    Lines.line 1 "public let continueCursor: String",
    Lines.line 1 "public let isDone: Bool",
    "",
    Lines.line 1 "public init(page: [T], continueCursor: String, isDone: Bool) \x7b",
    Lines.line 2 "self.page = page",
    Lines.line 2 "self.continueCursor = continueCursor",
    Lines.line 2 "self.isDone = isDone",
    Lines.line 1 "\x7d",
    Lines.line 0 "\x7d"]

/-- A page of results. The bridged build cannot decode generic records. -/
def pageLines : List String :=
  Lines.line 0 "#if !SKIP" :: pageStructLines "Codable, Sendable" ++
    Lines.line 0 "#else" :: pageStructLines "Sendable" ++ [Lines.line 0 "#endif", ""]

end Shared

/-- The shared types of one client. -/
structure SharedDecls where
  authors : List StructDecl
  /-- Whether the record of a page is among them. -/
  hasPage : Bool
  organizations : List StructDecl
  enums : List EnumDecl
  memberships : List StructDecl
  deriving DecidableEq, Repr

/-- The shared types whose names are not taken. -/
def sharedDecls (taken : List String) : SharedDecls :=
  let free (name : String) : Bool := !taken.contains name
  { authors := [Shared.author].filter fun struct => free struct.name
    hasPage := free TypeExpr.pageName
    organizations := Shared.organizationRecords.filter fun struct => free struct.name
    enums := Shared.organizationEnums.filter fun enum => free enum.name
    memberships := Shared.membershipRecords.filter fun struct => free struct.name }

/-- The names of the shared types. -/
def SharedDecls.names (shared : SharedDecls) : List String :=
  shared.authors.map (·.name) ++ (if shared.hasPage then [TypeExpr.pageName] else []) ++
    shared.organizations.map (·.name) ++ shared.enums.map (·.name) ++
    shared.memberships.map (·.name)

/-- The lines of the shared types. -/
def SharedDecls.lines (shared : SharedDecls) : List String :=
  shared.authors.flatMap StructDecl.lines ++ (if shared.hasPage then Shared.pageLines else []) ++
    shared.organizations.flatMap StructDecl.lines ++ "" :: shared.enums.flatMap EnumDecl.lines ++
    shared.memberships.flatMap StructDecl.lines

end ClientBindings
