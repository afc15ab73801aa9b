import ClientBindings.Proofs.Client.TypeNames
import ClientBindings.Proofs.Resolution.Agreement

/-!
# References to types

Every type that a full client mentions is one of the language or is declared in the same file.

* `TypeExpr.Known`: a type all of whose names are those of the language or among given ones. A
  type that is written out is known if it is the spelling of a known one.
* `Model.references`: the names that the model's fields, tables, filters and shared types stand
  for. `FullClient.mentions_known`: a client mentions no other ones.
* `Model.references_declared`: the client of a model that was harvested declares all of them.
* `FullClient.mentions_declared`: so nothing that the client mentions is undeclared.
-/

namespace ClientBindings

/-! ## Known types -/

namespace TypeExpr

/-- The types of the language and of its runtime that clients mention. -/
def builtin : List String := ["String", "Double", "Bool", "Int", "Self", "ConvexClientProtocol"]

/-- All names of the type are names of the language or among the given ones. -/
inductive Known (names : List String) : TypeExpr → Prop
  | builtin {name : String} (h : name ∈ TypeExpr.builtin) : Known names (.named name)
  | declared {name : String} (h : name ∈ names) : Known names (.named name)
  | array {element : TypeExpr} (h : Known names element) : Known names (.array element)
  | optional {wrapped : TypeExpr} (h : Known names wrapped) : Known names (.optional wrapped)
  | page {element : TypeExpr} (hpage : pageName ∈ names) (h : Known names element) :
      Known names (.page element)
  /-- The spelling of a known type. -/
  | verbatim {type : TypeExpr} (h : Known names type) : Known names (.verbatim type.text)

variable {names more : List String} {type : TypeExpr}

theorem Known.mono (h : type.Known names) (hsub : names ⊆ more) : type.Known more := by
  induction h with
  | builtin h => exact .builtin h
  | declared h => exact .declared (hsub h)
  | array _ ih => exact .array ih
  | optional _ ih => exact .optional ih
  | page hpage _ ih => exact .page (hsub hpage) ih
  | verbatim _ ih => exact .verbatim ih

/-- Whether the type is known; it is not checked where it is written out. -/
def isKnown (names : List String) : TypeExpr → Bool
  | named name => TypeExpr.builtin.contains name || names.contains name
  | array element => element.isKnown names
  | optional wrapped => wrapped.isKnown names
  | page element => names.contains pageName && element.isKnown names
  | verbatim _ => false

theorem known_of_isKnown (h : type.isKnown names = true) : type.Known names := by
  induction type with
  | named name =>
    rw [isKnown, Bool.or_eq_true, List.contains_iff_mem, List.contains_iff_mem] at h
    exact h.elim .builtin .declared
  | array element ih => exact .array (ih h)
  | optional wrapped ih => exact .optional (ih h)
  | page element ih =>
    rw [isKnown, Bool.and_eq_true, List.contains_iff_mem] at h
    exact .page h.1 (ih h.2)
  | verbatim => cases h

theorem string_known : string.Known names := .builtin (by decide)

theorem number_known : number.Known names := .builtin (by decide)

theorem bool_known : bool.Known names := .builtin (by decide)

theorem ofScalar_known (scalar : Scalar) : (ofScalar scalar).Known names := by
  cases scalar with
  | string => exact string_known
  | number => exact number_known
  | bool => exact bool_known

end TypeExpr

/-! ## References of a model -/

/-- The names of the types that a field type refers to. -/
def FieldType.references : FieldType → List String
  | .scalar _ => []
  | .enumRef name => [name]
  | .array element _ => element.references
  | .recordRef name => [name]
  | .unionRef name => [name]

section FieldType

variable {names : List String}

theorem TypeExpr.ofField_known {type : FieldType} (h : type.references ⊆ names) :
    (TypeExpr.ofField type).Known names := by
  induction type with
  | scalar scalar => exact ofScalar_known scalar
  | enumRef name => exact .declared (h (List.mem_singleton_self name))
  | recordRef name => exact .declared (h (List.mem_singleton_self name))
  | unionRef name => exact .declared (h (List.mem_singleton_self name))
  | array element isOptional ih =>
    rw [TypeExpr.ofField]
    cases isOptional with
    | false => exact .array (ih h)
    | true => exact .array (.optional (ih h))

theorem TypeExpr.ofEntry_known {entry : FieldEntry} (h : entry.type.references ⊆ names) :
    (TypeExpr.ofEntry entry).Known names := by
  rw [TypeExpr.ofEntry]
  split
  · exact .optional (ofField_known h)
  · exact ofField_known h

theorem Registry.mem_names {r : Registry} {d : Definition} (h : d ∈ r.definitions) :
    d.name ∈ r.names := by
  cases d with
  | enum d =>
    exact List.mem_append_right _ (List.mem_map_of_mem (Registry.enum_mem_definitions.mp h))
  | record d =>
    exact List.mem_append_left _ (List.mem_map_of_mem (Registry.record_mem_definitions.mp h))

/-- A type that is known in a registry refers to names of the registry. -/
theorem FieldType.KnownIn.references {r : Registry} {type : FieldType}
    (h : type.KnownIn r.definitions) : type.references ⊆ r.names := by
  have hsingle {name : String} (hname : name ∈ r.names) : [name] ⊆ r.names :=
    List.cons_subset.mpr ⟨hname, List.nil_subset _⟩
  induction type with
  | scalar => exact List.nil_subset _
  | enumRef =>
    obtain ⟨d, hd, rfl⟩ := h
    exact hsingle (Registry.mem_names hd)
  | recordRef =>
    obtain ⟨d, hd, rfl, -⟩ := h
    exact hsingle (Registry.mem_names hd)
  | unionRef =>
    obtain ⟨d, -, hd, rfl, -⟩ := h
    exact hsingle (Registry.mem_names hd)
  | array element _ ih => exact ih h

end FieldType

namespace Model

/-- The types of all fields: those of synthesized records, those of rows, the declared ones, and
those that filters compare. -/
def fieldTypes (model : Model) : List FieldType :=
  (model.registry.records.flatMap (·.fields)).map (·.2.type) ++
    (model.tables.flatMap fun table => table.fields ++ table.declared).map (·.2.type) ++
    (model.filters.flatMap (·.fields)).map (·.2)

/-- The names of types that a client of the model may mention: those that its fields refer to, the
records of its tables, its filters, and the shared types. -/
def references (model : Model) : List String :=
  model.fieldTypes.flatMap FieldType.references ++ model.tables.map (structName ·.name) ++
    model.filters.map (filterName ·.table) ++ Shared.names

variable {model : Model}

theorem references_field {type : FieldType} (h : type ∈ model.fieldTypes) :
    type.references ⊆ model.references := by
  intro name hname
  simp only [references, List.mem_append, List.mem_flatMap]
  exact .inl (.inl (.inl ⟨type, h, hname⟩))

theorem references_record {record : RecordDef} (h : record ∈ model.registry.records)
    {field : String × FieldEntry} (hfield : field ∈ record.fields) :
    field.2.type.references ⊆ model.references := by
  refine references_field (List.mem_append_left _ (List.mem_append_left _ ?_))
  exact List.mem_map_of_mem (List.mem_flatMap.mpr ⟨record, h, hfield⟩)

theorem references_table {table : Table} (h : table ∈ model.tables)
    {field : String × FieldEntry} (hfield : field ∈ table.fields ++ table.declared) :
    field.2.type.references ⊆ model.references := by
  refine references_field (List.mem_append_left _ (List.mem_append_right _ ?_))
  exact List.mem_map_of_mem (List.mem_flatMap.mpr ⟨table, h, hfield⟩)

theorem references_declared_field {table : Table} (h : table ∈ model.tables)
    {field : String × FieldEntry} (hfield : field ∈ table.declared) :
    field.2.type.references ⊆ model.references :=
  references_table h (List.mem_append_right _ hfield)

theorem references_filter {filter : Filter} (h : filter ∈ model.filters)
    {field : String × FieldType} (hfield : field ∈ filter.fields) :
    field.2.references ⊆ model.references := by
  refine references_field (List.mem_append_right _ ?_)
  exact List.mem_map_of_mem (List.mem_flatMap.mpr ⟨filter, h, hfield⟩)

theorem structName_mem_references {table : Table} (h : table ∈ model.tables) :
    structName table.name ∈ model.references := by
  simp only [references, List.mem_append]
  exact .inl (.inl (.inr (List.mem_map_of_mem h)))

theorem filterName_mem_references {filter : Filter} (h : filter ∈ model.filters) :
    filterName filter.table ∈ model.references := by
  simp only [references, List.mem_append]
  exact .inl (.inr (List.mem_map_of_mem h))

theorem shared_subset_references : Shared.names ⊆ model.references :=
  List.subset_append_right _ _

end Model

/-! ## Mentions of a client -/

/-- The types that a record mentions. -/
def StructDecl.mentions (struct : StructDecl) : List TypeExpr := struct.properties.map (·.type)

/-- The types that a method mentions for its result. -/
def Outcome.mentions : Outcome → List TypeExpr
  | .none => []
  | .value type => [type]
  | .discard text => [.verbatim text]

/-- The types that a method mentions. -/
def Method.mentions (method : Method) : List TypeExpr :=
  (method.target.params ++ method.params).map (·.type) ++ method.outcome.mentions

/-- The types that the functions of a module mention. -/
def ApiDecl.mentions (api : ApiDecl) : List TypeExpr :=
  (api.listArgs.toList.flatMap (·.params)).map (·.type) ++ api.methods.flatMap Method.mentions

/-- The records among shared types. -/
def SharedDecls.structs (shared : SharedDecls) : List StructDecl :=
  shared.authors ++ shared.organizations ++ shared.memberships

/-- The types that the declarations of a client mention. -/
def FullClient.mentions (client : FullClient) : List TypeExpr :=
  (client.records ++ client.tables ++ client.shared.structs).flatMap StructDecl.mentions ++
    (client.filters.flatMap (·.properties)).map (·.type) ++ client.apis.flatMap ApiDecl.mentions

/-! ## Declarations of types -/

section Declarations

variable {names : List String} {model : Model}

theorem StructDecl.mentions_fields {fields : Fields} {type : TypeExpr}
    (h : ∀ field ∈ fields, field.2.type.references ⊆ names)
    (htype : type ∈ (fields.map Property.ofField).map (·.type)) : type.Known names := by
  rw [List.map_map] at htype
  obtain ⟨field, hfield, rfl⟩ := List.mem_map.mp htype
  exact TypeExpr.ofEntry_known (h field hfield)

/-- The shared types mention only each other. -/
theorem sharedDecls_mentions_known {taken : List String} {struct : StructDecl}
    (h : struct ∈ (sharedDecls taken).structs) {type : TypeExpr} (htype : type ∈ struct.mentions) :
    type.Known Shared.names := by
  have hall : ∀ struct ∈ [Shared.author] ++ Shared.organizationRecords ++ Shared.membershipRecords,
      ∀ type ∈ struct.mentions, type.isKnown Shared.names = true := by decide
  have hmem : struct ∈ [Shared.author] ++ Shared.organizationRecords ++
      Shared.membershipRecords := by
    simp only [SharedDecls.structs, sharedDecls, List.mem_append, List.mem_filter] at h ⊢
    exact h.imp (Or.imp And.left And.left) And.left
  exact TypeExpr.known_of_isKnown (hall struct hmem type htype)

theorem FilterDecl.properties_known {filter : Filter}
    (h : ∀ field ∈ filter.fields, field.2.references ⊆ names) {property : Property}
    (hproperty : property ∈ (FilterDecl.ofFilter filter).properties) :
    property.type.Known names := by
  simp only [FilterDecl.properties, List.mem_append] at hproperty
  rcases hproperty with (hclause | hown) | hor
  · obtain ⟨⟨name, type⟩, hmem, rfl⟩ := List.mem_map.mp hclause
    exact .optional (TypeExpr.ofField_known (h _ hmem))
  · split at hown
    · rw [List.mem_singleton.mp hown]
      exact .optional TypeExpr.bool_known
    · cases hown
  · rw [List.mem_singleton.mp hor]
    exact .optional (.array (.builtin (by decide)))

end Declarations

/-! ## Methods -/

namespace Surroundings

variable {model : Model} {module : Module}

theorem table_mem {table : Table} (h : (ofModule model module).table = some table) :
    table ∈ model.tables ∧ table.name = module.table :=
  ⟨List.mem_of_find?_eq_some h, by simpa using List.find?_some h⟩

theorem filter_mem {filter : Filter} (h : (ofModule model module).filter = some filter) :
    filter ∈ model.filters ∧ filter.table = module.table :=
  ⟨List.mem_of_find?_eq_some h, by simpa using List.find?_some h⟩

/-- The record of a module's table is one that the model refers to. -/
theorem struct_known {table : Table} (h : (ofModule model module).table = some table) :
    (TypeExpr.named (ofModule model module).struct).Known model.references := by
  obtain ⟨hmem, hname⟩ := table_mem h
  refine .declared ?_
  rw [struct, ofModule, ← hname]
  exact Model.structName_mem_references hmem

theorem scopeParams_known (around : Surroundings) (names : List String) :
    ∀ param ∈ around.scopeParams, param.type.Known names := by
  intro param hparam
  rw [scopeParams] at hparam
  split at hparam
  · rw [List.mem_singleton.mp hparam]
    exact TypeExpr.string_known
  · cases hparam

theorem filterParams_known :
    ∀ param ∈ (ofModule model module).filterParams, param.type.Known model.references := by
  intro param hparam
  rw [filterParams] at hparam
  split at hparam
  · next hsome =>
    obtain ⟨filter, hfilter⟩ := Option.isSome_iff_exists.mp hsome
    obtain ⟨hmem, hname⟩ := filter_mem hfilter
    rw [List.mem_singleton.mp hparam]
    refine .optional (.declared ?_)
    rw [ofModule, ← hname]
    exact Model.filterName_mem_references hmem
  · cases hparam

end Surroundings

theorem pageParams_known (numItems : Nat) (names : List String) :
    ∀ param ∈ pageParams numItems, param.type.Known names := by
  simp only [pageParams, List.forall_mem_cons]
  exact ⟨.builtin (by decide), .optional TypeExpr.string_known, by simp⟩

theorem target_params_known (target : Target) (names : List String) :
    ∀ param ∈ target.params, param.type.Known names := by
  cases target with
  | full =>
    simp only [Target.params, List.forall_mem_cons]
    exact ⟨.builtin (by decide), by simp⟩
  | reduced => simp [Target.params]

/-- A method whose parameters and result are known mentions known types only. -/
theorem Method.mentions_known {method : Method} {names : List String}
    (hparams : ∀ param ∈ method.params, param.type.Known names)
    (houtcome : ∀ type ∈ method.outcome.mentions, type.Known names) :
    ∀ type ∈ method.mentions, type.Known names := by
  intro type htype
  rcases List.mem_append.mp htype with htype | htype
  · obtain ⟨param, hparam, rfl⟩ := List.mem_map.mp htype
    rcases List.mem_append.mp hparam with hparam | hparam
    · exact target_params_known _ _ param hparam
    · exact hparams param hparam
  · exact houtcome type htype

namespace CrudFunction

variable {model : Model} {module : Module} {table : Table}
  (h : (Surroundings.ofModule model module).table = some table)

include h

/-- The parameters of an endpoint of the module's table have known types. -/
theorem params_known (function : CrudFunction) (target : Target) :
    ∀ param ∈ (function.method (.ofModule model module) table target).params,
      param.type.Known model.references := by
  have hscope := Surroundings.scopeParams_known (.ofModule model module) model.references
  have hfilter := @Surroundings.filterParams_known model module
  have hpage (numItems : Nat) := pageParams_known numItems model.references
  have hid : idParam.type.Known model.references := TypeExpr.string_known
  have hfield {field : String × FieldEntry} (hfield : field ∈ table.declared) :
      (TypeExpr.ofField field.2.type).Known model.references :=
    TypeExpr.ofField_known
      (Model.references_declared_field (Surroundings.table_mem h).1 hfield)
  have hoptional : ∀ param ∈ table.declared.map fun field =>
      Parameter.optional field.1 (.ofField field.2.type), param.type.Known model.references := by
    intro param hparam
    obtain ⟨field, hmem, rfl⟩ := List.mem_map.mp hparam
    exact .optional (hfield hmem)
  cases function with
  | list =>
    simp only [method, List.forall_mem_append]
    exact ⟨⟨hscope, hpage 50⟩, hfilter⟩
  | search =>
    simp only [method, List.forall_mem_append, List.forall_mem_cons]
    exact ⟨hscope, TypeExpr.string_known, hpage 20⟩
  | create =>
    simp only [method, List.forall_mem_append]
    refine ⟨hscope, fun param hparam => ?_⟩
    obtain ⟨⟨name, entry⟩, hmem, rfl⟩ := List.mem_map.mp hparam
    rw [fieldParam]
    split
    · exact .optional (hfield hmem)
    · exact hfield hmem
  | update =>
    simp only [method, List.forall_mem_append, List.forall_mem_cons]
    exact ⟨⟨hscope, hid, hoptional⟩, .optional TypeExpr.number_known, by simp⟩
  | upsert => exact hoptional
  | get => simp [method]
  | bulkRm =>
    simp only [method, List.forall_mem_append, List.forall_mem_cons]
    exact ⟨hscope, .array TypeExpr.string_known, by simp⟩
  | rm | read | restore =>
    simp only [method, List.forall_mem_append, List.forall_mem_cons]
    exact ⟨hscope, hid, by simp⟩

/-- The result of an endpoint of the module's table has a known type: it is a row of the table or a
page of rows, where there is one. -/
theorem outcome_known (function : CrudFunction) (target : Target) :
    ∀ type ∈ (function.method (.ofModule model module) table target).outcome.mentions,
      type.Known model.references := by
  have hstruct := Surroundings.struct_known h
  have hlist : TypeExpr.pageName ∈ model.references :=
    Model.shared_subset_references (by decide)
  cases function with
  | list | search =>
    simp only [method, Outcome.mentions, List.forall_mem_cons]
    exact ⟨.page hlist hstruct, by simp⟩
  | read =>
    simp only [method, Outcome.mentions, List.forall_mem_cons]
    exact ⟨hstruct, by simp⟩
  | get =>
    simp only [method, Outcome.mentions, List.forall_mem_cons]
    exact ⟨.optional hstruct, by simp⟩
  | create | update | upsert | bulkRm | rm | restore => simp [method, Outcome.mentions]

/-- The methods of the endpoints of the module's table mention known types only. -/
theorem method_known (function : CrudFunction) (target : Target) :
    ∀ type ∈ (function.method (.ofModule model module) table target).mentions,
      type.Known model.references :=
  Method.mentions_known (params_known h function target) (outcome_known h function target)

end CrudFunction

/-! ## Standard functions -/

/-- A mark does not stand in a text without its first character. -/
theorem Text.replaceAll_of_not_mem {c : Char} {mark new cs : List Char} (h : c ∉ cs) :
    Text.replaceAll (c :: mark) new cs = cs := by
  rw [Text.replaceAll]
  induction cs with
  | nil => rfl
  | cons d rest ih =>
    rw [List.mem_cons, not_or] at h
    obtain ⟨hne, hrest⟩ := h
    rw [Text.replaceFrom, if_neg (by simp [List.isPrefixOf, hne]), ih hrest]

/-- The types that a function writes are spellings of known ones, and its result is kept. -/
structure CustomFunction.Known (names : List String) (struct : String)
    (function : CustomFunction) : Prop where
  arguments : ∀ argument ∈ function.arguments, (TypeExpr.verbatim argument.type).Known names
  result : ∀ type, function.returnType struct = some type → (TypeExpr.verbatim type).Known names
  kept : function.discardType? = none

namespace Standard

/-- The types that standard functions write, but for those of the fields and rows of a table. -/
def written : List TypeExpr :=
  [.string, .bool, .array .string, .named "Org", .optional (.named "Org"),
    .array (.named "OrgWithRole"), .named "SlugAvailability", .named "OrgGetOrCreateResult",
    .named "OrgMembership", .array (.named "OrgMemberEntry"), .array (.named "OrgInvite"),
    .array (.named "JoinRequestEntry"), .optional (.named "OrgJoinRequest"),
    .array (.named "EditorEntry")]

/-- The spellings of these types. -/
def spellings : List String := written.map TypeExpr.text

theorem written_known {text : String} (h : text ∈ spellings) :
    (TypeExpr.verbatim text).Known Shared.names := by
  have hall : ∀ type ∈ written, type.isKnown Shared.names = true := by decide
  obtain ⟨type, htype, rfl⟩ := List.mem_map.mp h
  exact .verbatim (TypeExpr.known_of_isKnown (hall type htype))

/-- What a function that writes such types has to show. -/
def IsWritten (function : CustomFunction) : Prop :=
  (∀ argument ∈ function.arguments, argument.type ∈ spellings) ∧
    (∀ type ∈ function.returnType?, type ∈ spellings) ∧
    function.discardType? = none

theorem IsWritten.known {function : CustomFunction} (h : IsWritten function) (struct : String) :
    function.Known Shared.names struct := by
  have hplain : ∀ type ∈ spellings, '$' ∉ type.toList := by decide
  refine ⟨fun argument hargument => written_known (h.1 argument hargument), ?_, h.2.2⟩
  intro type htype
  obtain ⟨text, htext, rfl⟩ := Option.map_eq_some_iff.mp htype
  have hwritten := h.2.1 text htext
  have hsame : Text.replaceAll structPlaceholder.toList struct.toList text.toList = text.toList :=
    Text.replaceAll_of_not_mem (hplain text hwritten)
  rw [hsame, String.ofList_toList]
  exact written_known hwritten

theorem organizationFunctions_written : ∀ function ∈ organizationFunctions,
    IsWritten function := by
  unfold IsWritten
  decide

theorem editorFunctions_written (table : String) : ∀ function ∈ editorFunctions table,
    IsWritten function := by
  have htext : "String" ∈ spellings := by decide
  have htexts : "[String]" ∈ spellings := by decide
  have hentries : "[EditorEntry]" ∈ spellings := by decide
  simp [editorFunctions, IsWritten, mutation, query, orgId, Argument.required, htext, htexts,
    hentries]

theorem uploadFunctions_written (module : Module) : ∀ function ∈ module.uploadFunctions,
    IsWritten function := by
  have htext : "String" ∈ spellings := by decide
  intro function hfunction
  rw [Module.uploadFunctions] at hfunction
  split at hfunction
  · rw [List.mem_singleton.mp hfunction]
    simp [IsWritten, mutation, htext]
  · cases hfunction

theorem sharedFunctions_written (module : Module) : ∀ function ∈ module.sharedFunctions,
    IsWritten function := by
  intro function hfunction
  rw [Module.sharedFunctions] at hfunction
  split at hfunction
  · exact organizationFunctions_written function hfunction
  · split at hfunction
    · exact editorFunctions_written _ function hfunction
    · cases hfunction

/-- In the type of a list of rows, the record stands in its place. -/
theorem replaceAll_placeholder (new : List Char) :
    Text.replaceAll structPlaceholder.toList new ("[" ++ structPlaceholder ++ "]").toList =
      '[' :: (new ++ [']']) := by
  simp [structPlaceholder, Text.replaceAll, Text.replaceFrom, List.isPrefixOf]

/-- The functions of a child table write the types of its fields and the record of its rows. -/
theorem childFunctions_known {names : List String} {table : Table} {struct : String}
    (hfields : ∀ field ∈ table.declared, field.2.type.references ⊆ names)
    (hstruct : (TypeExpr.named struct).Known names) :
    ∀ function ∈ Standard.childFunctions table, function.Known names struct := by
  intro function hfunction
  rcases List.mem_append.mp hfunction with hlist | hcreate
  · rw [childList] at hlist
    split at hlist
    · rw [List.mem_singleton.mp hlist]
      refine ⟨?_, ?_, rfl⟩
      · simp only [query, List.forall_mem_cons]
        exact ⟨.verbatim TypeExpr.string_known, by simp⟩
      · intro type htype
        obtain rfl : (TypeExpr.array (.named struct)).text = type := by
          rw [← Option.some.inj htype]
          dsimp only
          rw [replaceAll_placeholder]
          apply String.ext
          simp [TypeExpr.text]
        exact .verbatim (.array hstruct)
    · cases hlist
  · rw [childCreate] at hcreate
    split at hcreate
    · rw [List.mem_singleton.mp hcreate]
      refine ⟨fun argument hargument => ?_, nofun, rfl⟩
      obtain ⟨⟨name, entry⟩, hmem, rfl⟩ := List.mem_map.mp hargument
      exact .verbatim (TypeExpr.ofField_known (hfields _ hmem))
    · cases hcreate

end Standard

theorem CustomFunction.Known.mono {names more : List String} {struct : String}
    {function : CustomFunction} (h : function.Known names struct) (hsub : names ⊆ more) :
    function.Known more struct where
  arguments argument hargument := (h.arguments argument hargument).mono hsub
  result type htype := (h.result type htype).mono hsub
  kept := h.kept

/-- Without a configuration, the custom functions of a module write known types only. -/
theorem Module.customFunctions_known (model : Model) (module : Module) :
    ∀ function ∈ module.customFunctions model {},
      function.Known model.references (Surroundings.ofModule model module).struct := by
  intro function hfunction
  have hstandard : function ∈ module.standardFunctions model := by
    obtain ⟨entry, hentry, rfl⟩ := List.mem_map.mp (List.mem_filter.mp hfunction).1
    obtain ⟨standard, hmem, rfl⟩ := List.mem_map.mp (Entries.mem_of_mem_sortedOfPairs hentry)
    exact hmem
  rw [standardFunctions, List.mem_append, List.mem_append] at hstandard
  rcases hstandard with (hshared | hupload) | hchild
  · exact ((Standard.sharedFunctions_written module function hshared).known _).mono
      Model.shared_subset_references
  · exact ((Standard.uploadFunctions_written module function hupload).known _).mono
      Model.shared_subset_references
  · rw [childFunctions] at hchild
    split at hchild
    · next table htable =>
      split at hchild
      · refine Standard.childFunctions_known (fun field hfield => ?_) ?_ function hchild
        · exact Model.references_declared_field (Surroundings.table_mem htable).1 hfield
        · exact Surroundings.struct_known htable
      · cases hchild
    · cases hchild

/-- The method of a function that writes known types mentions known types only. -/
theorem CustomFunction.Known.method {function : CustomFunction} {names : List String}
    {around : Surroundings} (h : function.Known names around.struct) {target : Target}
    {method : Method} (hmethod : function.method? around target = some method) :
    ∀ type ∈ method.mentions, type.Known names := by
  rw [CustomFunction.method?] at hmethod
  split at hmethod
  · cases hmethod
  · cases hmethod
    refine Method.mentions_known ?_ ?_
    · simp only [List.forall_mem_append]
      refine ⟨fun param hparam => ?_, fun param hparam => ?_⟩
      · obtain ⟨name, -, rfl⟩ := List.mem_map.mp hparam
        exact TypeExpr.string_known
      · obtain ⟨argument, hargument, rfl⟩ := List.mem_map.mp hparam
        rw [Argument.param]
        split
        · exact .optional (h.arguments argument hargument)
        · exact h.arguments argument hargument
    · intro type htype
      simp only [CustomFunction.outcome, h.kept] at htype
      split at htype
      · cases htype
      · split at htype
        · next text htext =>
          rw [List.mem_singleton.mp htype]
          exact h.result text htext
        · cases htype

/-- Without a configuration, the methods of a module mention known types only. -/
theorem moduleMethods_known (model : Model) (module : Module) (target : Target) :
    ∀ method ∈ moduleMethods model {} (.ofModule model module) target,
      ∀ type ∈ method.mentions, type.Known model.references := by
  intro method hmethod
  rcases List.mem_append.mp hmethod with hcrud | hcustom
  · rw [crudMethods] at hcrud
    split at hcrud
    · cases hcrud
    · next table htable =>
      obtain ⟨function, -, rfl⟩ := List.mem_map.mp hcrud
      exact CrudFunction.method_known htable function target
  · obtain ⟨function, hfunction, hmethod⟩ := List.mem_filterMap.mp hcustom
    have hknown := Module.customFunctions_known model module function
      (List.mem_filter.mp hfunction).1
    exact hknown.method hmethod

theorem ListArgs.params_known {model : Model} {module : Module} {helper : ListArgs}
    (h : ListArgs.ofModule? (.ofModule model module) = some helper) :
    ∀ param ∈ helper.params, param.type.Known model.references := by
  rw [ListArgs.ofModule?] at h
  split at h
  · cases h
    simp only [List.forall_mem_append]
    exact ⟨⟨Surroundings.scopeParams_known _ _, pageParams_known 50 _⟩,
      Surroundings.filterParams_known⟩
  · cases h

theorem ApiDecl.mentions_known (model : Model) (modules : List Module) (module : Module) :
    ∀ type ∈ (ApiDecl.ofModule ⟨model, modules, {}⟩ module).mentions,
      type.Known model.references := by
  intro type htype
  rcases List.mem_append.mp htype with hhelper | hmethods
  · obtain ⟨param, hparam, rfl⟩ := List.mem_map.mp hhelper
    obtain ⟨helper, hhelper, hparam⟩ := List.mem_flatMap.mp hparam
    exact ListArgs.params_known (Option.mem_toList.mp hhelper) param hparam
  · obtain ⟨method, hmethod, htype⟩ := List.mem_flatMap.mp hmethods
    exact moduleMethods_known model module .full method hmethod type htype

/-! ## The client -/

/-- A client without a configuration mentions the language's types and references of the model. -/
theorem FullClient.mentions_known (model : Model) (modules : List Module) :
    ∀ type ∈ (FullClient.ofInputs ⟨model, modules, {}⟩).mentions, type.Known model.references := by
  intro type htype
  rw [FullClient.mentions, List.mem_append, List.mem_append] at htype
  rcases htype with (hstructs | hfilters) | hapis
  · obtain ⟨struct, hstruct, htype⟩ := List.mem_flatMap.mp hstructs
    rw [List.mem_append, List.mem_append] at hstruct
    rcases hstruct with (hrecord | htable) | hshared
    · obtain ⟨record, hmem, rfl⟩ := List.mem_map.mp hrecord
      exact StructDecl.mentions_fields (fun _ => Model.references_record hmem) htype
    · obtain ⟨-, table, hfirst, rfl⟩ := mem_tableDecls.mp htable
      have hmem := List.mem_of_find?_eq_some hfirst
      refine StructDecl.mentions_fields (fun field hfield => ?_) htype
      exact Model.references_table hmem (List.mem_append_left _ hfield)
    · exact (sharedDecls_mentions_known hshared htype).mono Model.shared_subset_references
  · obtain ⟨property, hproperty, rfl⟩ := List.mem_map.mp hfilters
    obtain ⟨decl, hdecl, hproperty⟩ := List.mem_flatMap.mp hproperty
    obtain ⟨filter, hfilter, rfl⟩ := List.mem_map.mp hdecl
    exact FilterDecl.properties_known (fun _ => Model.references_filter hfilter) hproperty
  · obtain ⟨api, hapi, htype⟩ := List.mem_flatMap.mp hapis
    obtain ⟨module, -, rfl⟩ := List.mem_map.mp hapi
    exact ApiDecl.mentions_known model modules module type htype

/-! ## Declared references -/

theorem TableDeclaration.steps_grounded (declaration : TableDeclaration)
    (before : List Definition) : Grounded before declaration.steps := by
  rw [TableDeclaration.steps]
  split
  · trivial
  · exact fieldSteps_grounded _ _ before

theorem Grounded.declarations (declarations : List TableDeclaration) (before : List Definition) :
    Grounded before (declarations.flatMap TableDeclaration.steps) := by
  induction declarations generalizing before with
  | nil => trivial
  | cons declaration rest ih => exact (declaration.steps_grounded before).append (ih _)

namespace Model

variable {schema : Schema} {model : Model}

theorem isOrdered (h : Model.ofSchema schema = .ok model) : model.registry.Ordered := by
  have hordered := Registry.Ordered.empty.perform (fun d hd => absurd hd List.not_mem_nil)
    (Grounded.declarations schema.declarations [])
  rwa [(Model.ofSchema_ok h).2] at hordered

/-- The fields of a synthesized record refer to synthesized types. -/
theorem record_references (h : Model.ofSchema schema = .ok model) {record : RecordDef}
    (hrecord : record ∈ model.registry.records) {field : String × FieldEntry}
    (hfield : field ∈ record.fields) : field.2.type.references ⊆ model.registry.names := by
  obtain ⟨before, after, hsplit⟩ := List.append_of_mem hrecord
  have hknown := (isOrdered h before record after hsplit).1 field hfield
  refine (hknown.mono ?_).references
  rw [Registry.definitions, hsplit, List.map_append]
  exact List.append_subset.mpr ⟨List.subset_append_left _ _,
    List.subset_append_of_subset_right _ (List.subset_append_left _ _)⟩

/-- The types of declared fields are known among the synthesized types. -/
theorem declared_known (h : Model.ofSchema schema = .ok model) {table : Table}
    (htable : table ∈ model.tables) {field : String × FieldEntry}
    (hfield : field ∈ table.declared) : field.2.type.KnownIn model.registry.definitions := by
  rw [(Model.ofSchema_ok h).1] at htable
  obtain ⟨declaration, hmem, rfl⟩ := List.mem_map.mp htable
  cases hfields : declaration.validator.fields with
  | none =>
    simp [TableDeclaration.table, hfields, Table.ofFields, fieldReadings, entriesOf] at hfield
  | some fields =>
    simp only [TableDeclaration.table, hfields, Table.ofFields, Option.getD_some] at hfield
    refine (entriesOf_known hfield).mono fun d hd => ?_
    refine (mem_definitions h).mpr (List.mem_flatMap.mpr ⟨declaration, hmem, ?_⟩)
    rwa [TableDeclaration.definitions, TableDeclaration.steps, hfields]

/-- The declared fields of a table refer to synthesized types. -/
theorem declared_references (h : Model.ofSchema schema = .ok model) {table : Table}
    (htable : table ∈ model.tables) {field : String × FieldEntry}
    (hfield : field ∈ table.declared) : field.2.type.references ⊆ model.registry.names :=
  (declared_known h htable hfield).references

end Model

/-- The fields that rows have without a declaration refer to no type but that of authors. -/
theorem TableKind.implicitFields_references (kind : TableKind) :
    ∀ field ∈ kind.implicitFields, field.2.type.references ⊆ [Shared.author.name] := by
  cases kind <;> decide

theorem Table.urlField_references (upload : String × Upload) :
    (Table.urlField upload).2.type.references = [] := by
  obtain ⟨field, upload⟩ := upload
  cases upload <;> rfl

namespace Model

variable {schema : Schema} {model : Model}

/-- The fields of a row refer to synthesized types or to authors. -/
theorem table_references (h : Model.ofSchema schema = .ok model) {table : Table}
    (htable : table ∈ model.tables) {field : String × FieldEntry} (hfield : field ∈ table.fields) :
    field.2.type.references ⊆ model.registry.names ++ Shared.names := by
  have hdeclared := fun field (hfield : field ∈ table.declared) =>
    declared_references h htable hfield
  rw [(Model.ofSchema_ok h).1] at htable
  obtain ⟨declaration, -, rfl⟩ := List.mem_map.mp htable
  have hrow := Entries.mem_of_mem_foldl (fun _ _ _ => Entries.mem_of_mem_put) hfield
  rcases hrow with himplicit | hrow
  · have hauthor := TableKind.implicitFields_references _ field himplicit
    exact List.Subset.trans hauthor (List.subset_append_of_subset_right _ (by decide))
  · rcases List.mem_append.mp hrow with hfield | hurl
    · exact List.subset_append_of_subset_left _ (hdeclared field hfield)
    · obtain ⟨upload, -, rfl⟩ := List.mem_map.mp hurl
      rw [Table.urlField_references]
      exact List.nil_subset _

/-- The fields that a filter compares refer to synthesized types. -/
theorem filter_references (h : Model.ofSchema schema = .ok model) {filter : Filter}
    (hfilter : filter ∈ model.filters) {field : String × FieldType}
    (hfield : field ∈ filter.fields) : field.2.references ⊆ model.registry.names := by
  obtain ⟨table, htable, hof⟩ := List.mem_filterMap.mp hfilter
  rw [Filter.ofTable?] at hof
  split at hof
  · cases hof
    obtain ⟨declared, hmem, rfl⟩ := List.mem_map.mp hfield
    exact declared_references h htable (List.mem_filter.mp hmem).1
  · cases hof

/-- All fields of a harvested model refer to synthesized types or to authors. -/
theorem fieldTypes_references (h : Model.ofSchema schema = .ok model) {type : FieldType}
    (htype : type ∈ model.fieldTypes) : type.references ⊆ model.registry.names ++ Shared.names := by
  rw [fieldTypes, List.mem_append, List.mem_append] at htype
  rcases htype with (hrecord | htable) | hfilter
  · obtain ⟨field, hfield, rfl⟩ := List.mem_map.mp hrecord
    obtain ⟨record, hmem, hfield⟩ := List.mem_flatMap.mp hfield
    exact List.subset_append_of_subset_left _ (record_references h hmem hfield)
  · obtain ⟨field, hfield, rfl⟩ := List.mem_map.mp htable
    obtain ⟨table, hmem, hfield⟩ := List.mem_flatMap.mp hfield
    rcases List.mem_append.mp hfield with hfield | hfield
    · exact table_references h hmem hfield
    · exact List.subset_append_of_subset_left _ (declared_references h hmem hfield)
  · obtain ⟨field, hfield, rfl⟩ := List.mem_map.mp hfilter
    obtain ⟨filter, hmem, hfield⟩ := List.mem_flatMap.mp hfield
    exact List.subset_append_of_subset_left _ (filter_references h hmem hfield)

/-- The client of a harvested model declares everything that the model refers to. -/
theorem references_declared (h : Model.ofSchema schema = .ok model) (modules : List Module)
    (config : Config) :
    model.references ⊆ (FullClient.ofInputs ⟨model, modules, config⟩).typeNames := by
  have hown {name : String} (hname : name ∈ model.ownNames) :
      name ∈ (FullClient.ofInputs ⟨model, modules, config⟩).typeNames := by
    rw [FullClient.typeNames_eq]
    refine List.mem_append_left _ (List.mem_append_left _ (List.mem_append_left _ ?_))
    exact Model.mem_tableNames.mpr hname
  have hshared {name : String} (hname : name ∈ Shared.names) :
      name ∈ (FullClient.ofInputs ⟨model, modules, config⟩).typeNames := by
    -- A shared type that is passed over has a name that is declared.
    by_cases htaken : name ∈ model.registry.names ++ model.tableNames
    · exact hown (Model.mem_tableNames.mp htaken)
    · rw [FullClient.typeNames_eq]
      refine List.mem_append_left _ (List.mem_append_left _ (List.mem_append_right _ ?_))
      exact mem_sharedDecls_names.mpr ⟨hname, htaken⟩
  intro name hname
  rw [references, List.mem_append, List.mem_append, List.mem_append] at hname
  rcases hname with ((hfields | htables) | hfilters) | hname
  · obtain ⟨type, htype, hname⟩ := List.mem_flatMap.mp hfields
    rcases List.mem_append.mp (fieldTypes_references h htype hname) with hname | hname
    · exact hown (List.mem_append_left _ hname)
    · exact hshared hname
  · exact hown (List.mem_append_right _ htables)
  · rw [FullClient.typeNames_eq]
    exact List.mem_append_left _ (List.mem_append_right _ hfilters)
  · exact hshared hname

end Model

/-- **References.** The full client of a harvested model without a configuration declares every
type that one of its declarations mentions, but for those of the language, and every type that the
model refers to. -/
theorem FullClient.mentions_declared {schema : Schema} {model : Model}
    (h : Model.ofSchema schema = .ok model) (modules : List Module) :
    let client := FullClient.ofInputs ⟨model, modules, {}⟩
    (∀ type ∈ client.mentions, type.Known client.typeNames) ∧
      ∀ name ∈ model.references, name ∈ client.typeNames := by
  have hdeclared := Model.references_declared h modules {}
  exact ⟨fun type htype => (mentions_known model modules type htype).mono hdeclared,
    fun name hname => hdeclared hname⟩

/-- A child table with parts of two sorts and a level: the methods of its module mention the record
of its rows, that of its parts and the enumeration of its levels. -/
theorem FullClient.mentions_declared_of_child :
    let text : Validator := .node "string" [] none (.scalar .string)
    let level : Validator := .node "enum" ["low", "high"] none .enumeration
    let label : Validator := .node "object" [] (some [("label", text)]) .object
    let parts : Validator := .node "array" [] none (.array (.node "union" [] none (.union [label])))
    let rows : Validator := .node "object" [] (some [("parts", parts), ("level", level)]) .object
    let schema : Schema := { children := [("message", ⟨rows, some "chatId"⟩)] }
    let module : Module := ⟨"message", ["list", "create"], "message", some .child, []⟩
    ∃ model, Model.ofSchema schema = .ok model ∧
      let client := FullClient.ofInputs ⟨model, [module], {}⟩
      [.verbatim "[Message]", .verbatim "[MessagePart]", .verbatim "MessageLevel"] ⊆
          client.mentions ∧
        (∀ type ∈ client.mentions, type.Known client.typeNames) ∧
        ∀ name ∈ model.references, name ∈ client.typeNames := by
  intro text level label parts rows schema module
  refine ⟨_, by rfl, by decide, ?_⟩
  exact @FullClient.mentions_declared schema _ (by rfl) [module]

end ClientBindings
