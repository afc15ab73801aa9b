import ClientBindings.Proofs.Client.Endpoints
import ClientBindings.Proofs.Table.RowFields
import Mathlib.Data.List.Flatten

/-!
# Names within declarations

Whether the parameters of a method, the keys of its dictionaries and the properties of a filter have
distinct names.

* `Method.paramNames`, `Method.keysOf`: the names of the parameters, and the keys that are written
  into a local dictionary, by its literal and by copies.
* `CrudFunction.ownParams`, `CrudFunction.ownKeys`: the names that an endpoint takes for itself.
  Past them it has those of the declared fields, one each (`paramNames_perm`, `keys_perm`).
* `Model.names_distinct_iff`: so names repeat exactly where a declared field has the name of one of
  the endpoint's own parameters or keys, and those of a filter where a clause has the name of one of
  its other properties. Nothing keeps declared fields from such names.
-/

namespace ClientBindings

/-! ## Names of a method -/

/-- The dictionary that a statement writes to. A loop over elements fills a `d` for each of them. -/
def Statement.destination : Statement → String
  | .dictionary _ name _ => name
  | .copy _ name _ => name
  | .cursor => "paginationOpts"
  | .elements _ _ _ _ => "d"

/-- The keys that a statement writes. -/
def Statement.keys : Statement → List String
  | .dictionary _ _ entries => entries.map (·.key)
  | .copy _ _ entry => [entry.key]
  | .cursor => ["cursor"]
  | .elements _ _ required optional => required.map (·.name) ++ optional.map (·.name)

/-- The keys that the payload itself writes, or the labels of the arguments that it gives. -/
def Payload.keys : Payload → List String
  | .literal entries => entries.map (·.key)
  | .variable _ => []
  | .listArgs arguments => arguments.map (·.1)

/-- What fills the arguments has the keys of its entries. -/
theorem Statement.keys_eq {statement : Statement} (h : statement.destination = "args") :
    statement.keys = statement.entries.map (·.key) := by
  cases statement with
  | dictionary | copy => rfl
  | cursor => simp [destination] at h
  | elements => simp [destination] at h

namespace Method

/-- The names of all parameters, that of the connection included. -/
def paramNames (method : Method) : List String :=
  (method.target.params ++ method.params).map (·.name)

/-- The keys written into the local dictionary of a name: those of its literal, then those that are
copied into it. -/
def keysOf (method : Method) (name : String) : List String :=
  (method.setup.filter fun statement => statement.destination == name).flatMap Statement.keys

/-- No dictionary that the method makes has a key twice. -/
structure KeysDistinct (method : Method) : Prop where
  locals : ∀ name, (method.keysOf name).Nodup
  payload : method.payload.keys.Nodup

end Method

namespace ListArgs

/-- The names of the parameters of the helper. -/
def paramNames (helper : ListArgs) : List String := helper.params.map (·.name)

/-- The keys of the arguments that the helper puts together. -/
def keys (helper : ListArgs) : List String :=
  helper.entries.map (·.key) ++ if helper.hasFilter then ["where"] else []

end ListArgs

/-! ## Names that depend on the table -/

/-- Items that stand where a condition holds are some of them. -/
theorem sublist_ite {α : Type} (p : Prop) [Decidable p] (items : List α) :
    (if p then items else []).Sublist items := by
  split
  · exact .refl _
  · exact List.nil_sublist _

theorem Target.params_sublist (target : Target) : target.params.Sublist [.client] := by
  cases target with
  | full => exact .refl _
  | reduced => exact List.nil_sublist _

namespace Surroundings

variable (around : Surroundings)

theorem scopeParams_sublist :
    around.scopeParams.Sublist [{ name := "orgId", type := .string }] := sublist_ite _ _

theorem scopeEntries_sublist : around.scopeEntries.Sublist [.same "orgId"] := sublist_ite _ _

theorem filterParams_sublist : around.filterParams.Sublist
    [.optional "`where`" (.named (filterName around.module.table))] := sublist_ite _ _

end Surroundings

/-- Parameters that are some of others have distinct names if those have. -/
theorem paramNames_nodup {params all : List Parameter} (h : params.Sublist all)
    (hall : (all.map (·.name)).Nodup) : (params.map (·.name)).Nodup :=
  hall.sublist (h.map _)

/-- Entries that are some of others have distinct keys if those have. -/
theorem keys_nodup {entries all : List DictEntry} (h : entries.Sublist all)
    (hall : (all.map (·.key)).Nodup) : (entries.map (·.key)).Nodup :=
  hall.sublist (h.map _)

/-! ## Endpoints without fields -/

namespace Method

variable {method : Method}

/-- No dictionary has a key twice if no key is written twice. -/
theorem KeysDistinct.of_nodup (hsetup : (method.setup.flatMap Statement.keys).Nodup)
    (hpayload : method.payload.keys.Nodup) : method.KeysDistinct :=
  ⟨fun _ => hsetup.sublist (List.filter_sublist.flatMap _), hpayload⟩

/-- Where all arguments go into one dictionary, no dictionary has a key twice exactly if no key is
written twice. -/
theorem keysDistinct_iff (h : ∀ statement ∈ method.setup, statement.destination = "args")
    (hpayload : method.payload.keys.Nodup) :
    method.KeysDistinct ↔ (method.setup.flatMap Statement.keys).Nodup := by
  refine ⟨fun hdistinct => ?_, fun hsetup => .of_nodup hsetup hpayload⟩
  have hall := hdistinct.locals "args"
  rwa [keysOf, List.filter_eq_self.mpr fun statement hstatement =>
    beq_iff_eq.mpr (h statement hstatement)] at hall

end Method

namespace CrudFunction

variable {function : CrudFunction} {around : Surroundings} {table : Table} {target : Target}

/-- Endpoints that write no rows have distinct parameters. -/
theorem paramNames_nodup_of_not_isWrite (h : function.isWrite = false) :
    (function.method around table target).paramNames.Nodup := by
  have hclient := target.params_sublist
  have hscope := around.scopeParams_sublist
  cases function with
  | create | update | upsert => cases h
  | list =>
    refine paramNames_nodup (hclient.append ((hscope.append (.refl (pageParams 50))).append
      around.filterParams_sublist)) ?_
    show ["client", "orgId", "numItems", "cursor", "`where`"].Nodup
    decide
  | search =>
    refine paramNames_nodup (hclient.append (hscope.append (.refl _))) ?_
    show ["client", "orgId", "searchQuery", "numItems", "cursor"].Nodup
    decide
  | rm | read | restore | bulkRm =>
    refine paramNames_nodup (hclient.append (hscope.append (.refl _))) ?_
    decide
  | get =>
    refine paramNames_nodup (hclient.append (.refl [])) ?_
    decide

/-- Endpoints that write no rows have distinct keys. -/
theorem keysDistinct_of_not_isWrite (h : function.isWrite = false) :
    (function.method around table target).KeysDistinct := by
  have hscope := around.scopeEntries_sublist
  cases function with
  | create | update | upsert => cases h
  | list =>
    have hlabels := ((sublist_ite (around.isOrgScoped = true) [("orgId", "orgId")]).append
      (.refl [("numItems", "numItems"), ("cursor", "cursor")])).append
        (sublist_ite (around.filter.isSome = true) [("where", "`where`")])
    refine .of_nodup .nil (List.Nodup.sublist (hlabels.map Prod.fst) ?_)
    decide
  | search =>
    have hsetup : (pagingStatements.flatMap Statement.keys).Nodup := by decide
    refine .of_nodup hsetup (keys_nodup (hscope.append (.refl _)) ?_)
    decide
  | rm | read | restore | bulkRm =>
    refine .of_nodup .nil (keys_nodup (hscope.cons_cons _) ?_)
    decide
  | get => exact .of_nodup .nil .nil

end CrudFunction

/-- The helper for paging has distinct parameters and keys. -/
theorem ListArgs.names_nodup {around : Surroundings} {helper : ListArgs}
    (h : ListArgs.ofModule? around = some helper) :
    helper.paramNames.Nodup ∧ helper.keys.Nodup := by
  rw [ofModule?] at h
  split at h
  · cases h
    constructor
    · refine paramNames_nodup ((around.scopeParams_sublist.append (.refl (pageParams 50))).append
        around.filterParams_sublist) ?_
      show ["orgId", "numItems", "cursor", "`where`"].Nodup
      decide
    · have hkeys := ((around.scopeEntries_sublist.append (.refl [pagingEntry])).map (·.key)).append
        (sublist_ite (around.filter.isSome = true) ["where"])
      exact List.Nodup.sublist hkeys (by decide)
  · cases h

/-! ## Endpoints that write rows -/

/-- Names that are some of an endpoint's own and those of the declared fields repeat where a field
has one of the others. -/
theorem nodup_iff_of_perm {names own declared : List String} (h : names.Perm (own ++ declared))
    (hown : own.Nodup) (hdeclared : declared.Nodup) :
    names.Nodup ↔ ∀ name ∈ declared, name ∉ own := by
  rw [h.nodup_iff, List.nodup_append]
  constructor
  · rintro ⟨-, -, hapart⟩ name hname hmem
    exact hapart name hmem name hname rfl
  · refine fun hapart => ⟨hown, hdeclared, ?_⟩
    rintro name hmem _ hname rfl
    exact hapart name hname hmem

/-- Names with a last one of the endpoint's own. -/
theorem append_last_perm (own declared : List String) (last : String) :
    (own ++ (declared ++ [last])).Perm (own ++ [last] ++ declared) := by
  rw [List.append_assoc]
  exact List.perm_append_comm.append_left own

theorem fieldParam_name (name : String) (entry : FieldEntry) :
    (fieldParam name entry).name = name := by
  rw [fieldParam]
  split <;> rfl

namespace CrudFunction

/-- The names of an endpoint's own parameters, where it also has one for each declared field. -/
def ownParams (function : CrudFunction) (around : Surroundings) (target : Target) : List String :=
  let shared := (target.params ++ around.scopeParams).map (·.name)
  match function with
  | .create => shared
  | .update => shared ++ ["id", updateGuard]
  | .upsert => target.params.map (·.name)
  | _ => []

/-- The keys of an endpoint's own arguments, where it also has one for each declared field. -/
def ownKeys (function : CrudFunction) (around : Surroundings) : List String :=
  let shared := around.scopeEntries.map (·.key)
  match function with
  | .create => shared
  | .update => "id" :: shared ++ [updateGuard]
  | _ => []

variable {function : CrudFunction} {around : Surroundings} {table : Table} {target : Target}

theorem ownParams_nodup : (function.ownParams around target).Nodup := by
  have hshared := (target.params_sublist.append around.scopeParams_sublist).map (·.name)
  cases function with
  | create => exact List.Nodup.sublist hshared (by decide)
  | update => exact List.Nodup.sublist (hshared.append (.refl _)) (by decide)
  | upsert => exact List.Nodup.sublist (target.params_sublist.map _) (by decide)
  | _ => exact .nil

theorem ownKeys_nodup : (function.ownKeys around).Nodup := by
  have hshared := around.scopeEntries_sublist.map (·.key)
  cases function with
  | create => exact List.Nodup.sublist hshared (by decide)
  | update =>
    exact List.Nodup.sublist ((hshared.cons_cons "id").append (.refl [updateGuard])) (by decide)
  | _ => exact .nil

/-- An endpoint that writes rows has its own parameters and one for each declared field. -/
theorem paramNames_perm (h : function.isWrite = true) :
    (function.method around table target).paramNames.Perm
      (function.ownParams around target ++ table.declared.names) := by
  have hfields : (table.declared.map fun field => fieldParam field.1 field.2).map (·.name) =
      table.declared.names := by
    rw [List.map_map]
    exact List.map_congr_left fun field _ => fieldParam_name field.1 field.2
  have hoptional : (table.declared.map fun field =>
      Parameter.optional field.1 (.ofField field.2.type)).map (·.name) = table.declared.names := by
    rw [List.map_map]
    rfl
  cases function with
  | create =>
    rw [Method.paramNames, ownParams, ← hfields, ← List.map_append, List.append_assoc]
    exact .refl _
  | update =>
    have hnames : (update.method around table target).paramNames =
        ((target.params ++ around.scopeParams).map (·.name) ++ ["id"]) ++
          (table.declared.names ++ [updateGuard]) := by
      rw [Method.paramNames, ← hoptional]
      simp only [method, List.map_append, List.append_assoc]
      rfl
    rw [hnames, ownParams]
    refine (append_last_perm _ _ _).trans ?_
    rw [List.append_assoc _ ["id"]]
    exact .refl _
  | upsert =>
    rw [Method.paramNames, ownParams, ← hoptional, ← List.map_append]
    exact .refl _
  | _ => cases h

/-- An endpoint that writes rows sends its own values and the declared fields. -/
theorem sources_names (h : function.isWrite = true) : (function.sources around table).names.Perm
    (function.ownKeys around ++ table.declared.names) := by
  have hscope : around.scopeFields.names = around.scopeEntries.map (·.key) := by
    rw [around.scopeEntries_eq, fieldEntries, List.map_map]
    rfl
  have hdeclared : table.declaredTypes.names = table.declared.names := by
    rw [Table.declaredTypes, Entries.names, List.map_map]
    rfl
  cases function with
  | create => rw [sources, ownKeys, Entries.names_append, hscope, hdeclared]
  | update =>
    have hnames : (update.sources around table).names = ("id" :: around.scopeFields.names) ++
        (table.declaredTypes.names ++ [updateGuard]) := by
      rw [sources, Entries.names_append, Entries.names_append, List.append_assoc]
      rfl
    rw [hnames, hscope, hdeclared, ownKeys]
    exact append_last_perm _ _ _
  | upsert =>
    rw [sources, hdeclared]
    exact .refl _
  | _ => cases h

/-- An endpoint that writes rows puts all of its arguments in one dictionary. -/
theorem destination_eq (h : function.isWrite = true) :
    ∀ statement ∈ (function.method around table target).setup, statement.destination = "args" := by
  have hcopies (fields : Fields) : ∀ statement ∈ fields.map fun field =>
      fieldCopy field.1 field.2.type, statement.destination = "args" := by
    intro statement hstatement
    obtain ⟨field, -, rfl⟩ := List.mem_map.mp hstatement
    rfl
  cases function with
  | create => exact List.forall_mem_cons.mpr ⟨rfl, hcopies _⟩
  | update =>
    refine List.forall_mem_cons.mpr ⟨rfl, List.forall_mem_append.mpr ⟨hcopies _, ?_⟩⟩
    exact List.forall_mem_singleton.mpr rfl
  | upsert => exact List.forall_mem_cons.mpr ⟨rfl, hcopies _⟩
  | _ => cases h

/-- An endpoint that writes rows writes its own keys and one for each declared field. -/
theorem keys_perm (h : function.isWrite = true) :
    ((function.method around table target).setup.flatMap Statement.keys).Perm
      (function.ownKeys around ++ table.declared.names) := by
  have hpayload : (function.method around table target).payload.entries = [] := by
    cases function with
    | create | update | upsert => rfl
    | _ => cases h
  have hkeys : (function.method around table target).setup.flatMap Statement.keys =
      (function.method around table target).entries.map (·.key) := by
    rw [Method.entries, hpayload, List.append_nil, List.map_flatMap]
    exact List.flatMap_congr fun statement hstatement =>
      Statement.keys_eq (destination_eq h statement hstatement)
  have hentries : ((function.sources around table).map ((·.key) ∘ fun field =>
      fieldEntry field.1 field.2)).Perm
        ((function.method around table target).entries.map (·.key)) := by
    rw [← List.map_map]
    exact (entries_perm h).map (·.key)
  rw [hkeys]
  exact hentries.symm.trans (sources_names h)

/-- The parameters have distinct names exactly if no declared field has the name of one of the
endpoint's own. -/
theorem paramNames_nodup_iff (hdeclared : table.declared.names.Nodup) :
    (function.method around table target).paramNames.Nodup ↔
      ∀ name ∈ table.declared.names, name ∉ function.ownParams around target := by
  cases hwrite : function.isWrite with
  | true => exact nodup_iff_of_perm (paramNames_perm hwrite) ownParams_nodup hdeclared
  | false =>
    refine iff_of_true (paramNames_nodup_of_not_isWrite hwrite) fun name _ => ?_
    cases function with
    | create | update | upsert => cases hwrite
    | _ => exact List.not_mem_nil

/-- No dictionary has a key twice exactly if no declared field has one of the endpoint's own keys
as its name. -/
theorem keysDistinct_iff (hdeclared : table.declared.names.Nodup) :
    (function.method around table target).KeysDistinct ↔
      ∀ name ∈ table.declared.names, name ∉ function.ownKeys around := by
  cases hwrite : function.isWrite with
  | true =>
    have hpayload : (function.method around table target).payload.keys.Nodup := by
      cases function with
      | create | update | upsert => exact .nil
      | _ => cases hwrite
    rw [Method.keysDistinct_iff (destination_eq hwrite) hpayload]
    exact nodup_iff_of_perm (keys_perm hwrite) ownKeys_nodup hdeclared
  | false =>
    refine iff_of_true (keysDistinct_of_not_isWrite hwrite) fun name _ => ?_
    cases function with
    | create | update | upsert => cases hwrite
    | _ => exact List.not_mem_nil

end CrudFunction

/-! ## Filters -/

namespace FilterDecl

/-- The names of the properties: those of the clauses, that of the flag for the user's own rows, and
that of the alternatives. -/
theorem properties_names (filter : FilterDecl) : filter.properties.map (·.name) =
    filter.clauses.names ++ ((if filter.own = true then ["own"] else []) ++ ["or"]) := by
  obtain ⟨name, clauses, own⟩ := filter
  simp only [properties, List.map_append, List.map_map, List.append_assoc]
  cases own <;> rfl

/-- The properties have distinct names exactly if no clause has the name of one of the others. -/
theorem properties_nodup_iff {filter : FilterDecl} (h : filter.clauses.names.Nodup) :
    (filter.properties.map (·.name)).Nodup ↔
      ∀ name ∈ filter.clauses.names, name ≠ "or" ∧ (filter.own = true → name ≠ "own") := by
  have hown : ((if filter.own = true then ["own"] else []) ++ ["or"]).Nodup :=
    List.Nodup.sublist ((sublist_ite _ ["own"]).append (.refl ["or"])) (by decide)
  rw [properties_names, nodup_iff_of_perm List.perm_append_comm hown h]
  refine forall₂_congr fun name _ => ?_
  cases filter.own <;> simp [and_comm]

end FilterDecl

namespace Model

variable {schema : Schema} {model : Model}

/-- The declared fields of a table of a schema document have distinct names. -/
theorem declared_nodup {text : String} (hparse : Schema.parse? text = some schema)
    (h : Model.ofSchema schema = .ok model) {table : Table} (htable : table ∈ model.tables) :
    table.declared.names.Nodup := by
  rw [(Model.ofSchema_ok h).1] at htable
  obtain ⟨declaration, hdeclaration, rfl⟩ := List.mem_map.mp htable
  obtain ⟨fields, hfields⟩ := exists_fields h hdeclaration
  have hnodup := Schema.parse?_nodup hparse hdeclaration hfields
  obtain ⟨other, hother, hnames, -⟩ := (Table.laidOut hfields hnodup).fields
  obtain rfl : fields = other := Option.some.inj (hfields.symm.trans hother)
  rwa [hnames]

/-- The clauses of a filter are for some of the declared fields of its table. -/
theorem filter_sublist {filter : Filter} (h : filter ∈ model.filters) :
    ∃ table ∈ model.tables, filter.fields.names.Sublist table.declared.names := by
  obtain ⟨table, htable, hfilter⟩ := List.mem_filterMap.mp h
  refine ⟨table, htable, ?_⟩
  rw [Filter.ofTable?] at hfilter
  dsimp only at hfilter
  split at hfilter
  · cases hfilter
    rw [Entries.names, List.map_map]
    exact List.filter_sublist.map _
  · cases hfilter

/-- **Names within declarations.** In the client of a schema document, the parameters of a method
for a table endpoint have distinct names exactly if no declared field has the name of a parameter
that the endpoint has anyway, and its dictionaries have distinct keys exactly if no declared field
has the name of a key that the endpoint writes anyway; endpoints that write no rows, and the helper
for paging, have distinct names. The properties of a filter have distinct names exactly if no clause
has the name of the alternatives, or that of the flag for the user's own rows where there is one. -/
theorem names_distinct_iff {text : String} (hparse : Schema.parse? text = some schema)
    (h : Model.ofSchema schema = .ok model) {module : Module} {table : Table}
    (htable : (Surroundings.ofModule model module).table = some table) (target : Target) :
    let around := Surroundings.ofModule model module
    (∀ method ∈ crudMethods around target, ∃ function : CrudFunction,
      method = function.method around table target ∧
      (method.paramNames.Nodup ↔
        ∀ name ∈ table.declared.names, name ∉ function.ownParams around target) ∧
      (method.KeysDistinct ↔ ∀ name ∈ table.declared.names, name ∉ function.ownKeys around)) ∧
    (∀ helper, ListArgs.ofModule? around = some helper →
      helper.paramNames.Nodup ∧ helper.keys.Nodup) ∧
    ∀ filter ∈ model.filters, ((FilterDecl.ofFilter filter).properties.map (·.name)).Nodup ↔
      ∀ name ∈ filter.fields.names, name ≠ "or" ∧ (filter.own = true → name ≠ "own") := by
  intro around
  refine ⟨fun method hmethod => ?_, fun helper => ListArgs.names_nodup, fun filter hfilter => ?_⟩
  · obtain ⟨served, function, hserved, -, -, rfl⟩ := mem_crudMethods.mp hmethod
    obtain rfl : table = served := Option.some.inj (htable.symm.trans hserved)
    have hdeclared := declared_nodup hparse h (Surroundings.table_mem htable).1
    exact ⟨function, rfl, CrudFunction.paramNames_nodup_iff hdeclared,
      CrudFunction.keysDistinct_iff hdeclared⟩
  · obtain ⟨owner, howner, hsub⟩ := filter_sublist hfilter
    exact FilterDecl.properties_nodup_iff ((declared_nodup hparse h howner).sublist hsub)

/-- Pages that declare a field under the name of the guard: rows are created with distinct names and
updated with the guard twice. -/
theorem names_distinct_of_guard :
    let text := "\x7b\"orgScoped\":\x7b\"wiki\":\x7b\"type\":\"object\",\"shape\":\x7b" ++
      "\"title\":\x7b\"type\":\"string\"\x7d,\"expectedUpdatedAt\":\x7b\"type\":\"number\"\x7d" ++
      "\x7d\x7d\x7d\x7d"
    let module : Module := ⟨"wiki", ["create", "update"], "wiki", some .orgScoped, []⟩
    ∃ schema model table create update, Schema.parse? text = some schema ∧
      Model.ofSchema schema = .ok model ∧
      (Surroundings.ofModule model module).table = some table ∧
      crudMethods (Surroundings.ofModule model module) .full = [create, update] ∧
      create.paramNames.Nodup ∧ create.KeysDistinct ∧
      ¬ update.paramNames.Nodup ∧ ¬ update.KeysDistinct := by
  intro text module
  let schema : Schema := { orgScoped := [("wiki", .node "object" [] (some [
    ("title", .node "string" [] none (.scalar .string)),
    ("expectedUpdatedAt", .node "number" [] none (.scalar .number))]) .object)] }
  have hparse : Schema.parse? text = some schema := by
    dsimp only [text, schema]
    cbv
  let declared : Fields :=
    [("title", .required .string), ("expectedUpdatedAt", .required .number)]
  let table : Table :=
    ⟨"wiki", .orgScoped, TableKind.orgScoped.implicitFields ++ declared, declared, [], none⟩
  let model : Model := { tables := [table] }
  have hmodel : Model.ofSchema schema = .ok model := by
    dsimp only [schema, model, table, declared]
    rfl
  let around := Surroundings.ofModule model module
  have htable : around.table = some table := by rfl
  have hnames (function : CrudFunction)
      (hmethod : function.method around table .full ∈ crudMethods around .full) :
      ((function.method around table .full).paramNames.Nodup ↔
        ∀ name ∈ table.declared.names, name ∉ function.ownParams around .full) ∧
      ((function.method around table .full).KeysDistinct ↔
        ∀ name ∈ table.declared.names, name ∉ function.ownKeys around) := by
    obtain ⟨other, heq, hparams, hkeys⟩ :=
      (names_distinct_iff hparse hmodel htable .full).1 _ hmethod
    have hname : function.name = other.name := by
      rw [← function.method_name, heq, other.method_name]
    obtain rfl := CrudFunction.name_injective hname
    exact ⟨hparams, hkeys⟩
  have hcreate := hnames .create (.head _)
  have hupdate := hnames .update (.tail _ (.head _))
  have hguard : "expectedUpdatedAt" ∈ table.declared.names := .tail _ (.head _)
  refine ⟨schema, model, table, _, _, hparse, hmodel, htable, by rfl, hcreate.1.mpr ?_,
    hcreate.2.mpr ?_, fun h => hupdate.1.mp h _ hguard ?_, fun h => hupdate.2.mp h _ hguard ?_⟩
  · show ∀ name ∈ ["title", "expectedUpdatedAt"], name ∉ ["client", "orgId"]
    decide
  · show ∀ name ∈ ["title", "expectedUpdatedAt"], name ∉ ["orgId"]
    decide
  · show "expectedUpdatedAt" ∈ ["client", "orgId", "id", "expectedUpdatedAt"]
    decide
  · show "expectedUpdatedAt" ∈ ["id", "orgId", "expectedUpdatedAt"]
    decide

/-- Pages that declare the id of their organization: it is a parameter twice and a key twice. -/
theorem declared_scope_repeated :
    let text := "\x7b\"orgScoped\":\x7b\"wiki\":\x7b\"type\":\"object\",\"shape\":\x7b" ++
      "\"orgId\":\x7b\"type\":\"string\"\x7d\x7d\x7d\x7d\x7d"
    let module : Module := ⟨"wiki", ["create"], "wiki", some .orgScoped, []⟩
    ∃ schema model create, Schema.parse? text = some schema ∧ Model.ofSchema schema = .ok model ∧
      crudMethods (Surroundings.ofModule model module) .full = [create] ∧
      create.paramNames = ["client", "orgId", "orgId"] ∧ create.keysOf "args" = ["orgId", "orgId"] ∧
      ¬ create.paramNames.Nodup ∧ ¬ create.KeysDistinct := by
  intro text module
  let schema : Schema := { orgScoped := [("wiki", .node "object" [] (some [
    ("orgId", .node "string" [] none (.scalar .string))]) .object)] }
  have hparse : Schema.parse? text = some schema := by
    dsimp only [text, schema]
    cbv
  refine ⟨schema, _, _, hparse, by rfl, by rfl, by rfl, by rfl, ?_, fun hdistinct => ?_⟩
  · show ¬ ["client", "orgId", "orgId"].Nodup
    decide
  · have hnodup : ["orgId", "orgId"].Nodup := hdistinct.locals "args"
    exact absurd hnodup (by decide)

end Model

end ClientBindings
