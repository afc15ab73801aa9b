import ClientBindings.Client.File
import ClientBindings.Proofs.Resolution.Naming

/-!
# Records of tables

Which record of the client has the name of a table's record.

* `mem_tableDecls`: a table declares its record if its name is not taken and no earlier table has
  it.
* `FullClient.structsNamed_eq`: so a client has one record of a name at most: the synthesized one,
  or that of the first table with a name that is not synthesized.
* `Model.table_struct`: a table whose name is free has the one record of that name. A table whose
  name is taken has none of its own; the record of that name is the synthesized one or that of the
  first such table.
-/

namespace ClientBindings

/-- The names of the synthesized types. -/
def Registry.names (r : Registry) : List String := r.records.map (·.name) ++ r.enums.map (·.name)

@[simp] theorem StructDecl.ofRecord_name (record : RecordDef) :
    (StructDecl.ofRecord record).name = record.name := rfl

@[simp] theorem StructDecl.ofTable_name (table : Table) :
    (StructDecl.ofTable table).name = structName table.name := rfl

@[simp] theorem EnumDecl.ofEnum_name (enum : EnumDef) :
    (EnumDecl.ofEnum enum).name = enum.name := rfl

@[simp] theorem recordDecls_names (r : Registry) :
    (recordDecls r).map (·.name) = r.records.map (·.name) := by
  simp [recordDecls, Function.comp_def]

@[simp] theorem enumDecls_names (r : Registry) :
    (enumDecls r).map (·.name) = r.enums.map (·.name) := by
  simp [enumDecls, Function.comp_def]

/-! ## Tables -/

/-- The first table with the given name of its record. -/
def firstTable? (tables : List Table) (name : String) : Option Table :=
  tables.find? fun table => structName table.name == name

theorem firstTable?_name {tables : List Table} {name : String} {table : Table}
    (h : firstTable? tables name = some table) : structName table.name = name := by
  simpa using List.find?_some h

theorem firstTable?_cons_self (table : Table) (rest : List Table) :
    firstTable? (table :: rest) (structName table.name) = some table := by
  simp [firstTable?]

theorem firstTable?_cons_of_ne {table : Table} {name : String} (h : structName table.name ≠ name)
    (rest : List Table) : firstTable? (table :: rest) name = firstTable? rest name := by
  simp [firstTable?, h]

theorem firstTable?_append_of_mem {before : List Table} {name : String}
    (h : name ∈ before.map (structName ·.name)) (rest : List Table) :
    ∃ first, firstTable? before name = some first ∧
      firstTable? (before ++ rest) name = some first := by
  obtain ⟨table, htable, rfl⟩ := List.mem_map.mp h
  have hsome : (firstTable? before (structName table.name)).isSome :=
    List.find?_isSome.mpr ⟨table, htable, beq_self_eq_true _⟩
  obtain ⟨first, hfirst⟩ := Option.isSome_iff_exists.mp hsome
  refine ⟨first, hfirst, ?_⟩
  unfold firstTable? at hfirst ⊢
  rw [List.find?_append, hfirst, Option.some_or]

theorem firstTable?_append_of_not_mem {before : List Table} {name : String}
    (h : name ∉ before.map (structName ·.name)) (rest : List Table) :
    firstTable? (before ++ rest) name = firstTable? rest name := by
  have hnone : firstTable? before name = none := by
    refine List.find?_eq_none.mpr fun table htable hname => h ?_
    exact List.mem_map.mpr ⟨table, htable, eq_of_beq hname⟩
  unfold firstTable? at hnone ⊢
  rw [List.find?_append, hnone, Option.none_or]

/-- The record of a table is declared if its name is not taken and no earlier table has it. -/
theorem mem_tableDecls {taken : List String} {tables : List Table} {struct : StructDecl} :
    struct ∈ tableDecls taken tables ↔ struct.name ∉ taken ∧
      ∃ table, firstTable? tables struct.name = some table ∧ struct = .ofTable table := by
  induction tables generalizing taken with
  | nil => simp [tableDecls, firstTable?]
  | cons table rest ih =>
    rw [tableDecls]
    by_cases hname : structName table.name = struct.name
    · -- The table is the first one of the name, so the record is its own or is not declared.
      rw [← hname, firstTable?_cons_self]
      split
      · next h =>
        have htaken : structName table.name ∈ taken := by simpa using h
        rw [ih, ← hname]
        simp [htaken]
      · next h =>
        have hfree : structName table.name ∉ taken := by simpa using h
        rw [List.mem_cons, ih, ← hname]
        simp [hfree]
    · have hne : struct ≠ .ofTable table := by
        rintro rfl
        exact hname rfl
      rw [firstTable?_cons_of_ne hname]
      split
      · exact ih
      · simp [ih, hne, Ne.symm hname]

/-- No two records of tables have the same name. -/
theorem tableDecls_nodup (taken : List String) (tables : List Table) :
    ((tableDecls taken tables).map (·.name)).Nodup := by
  induction tables generalizing taken with
  | nil => exact List.nodup_nil
  | cons table rest ih =>
    rw [tableDecls]
    split
    · exact ih taken
    · refine List.nodup_cons.mpr ⟨?_, ih _⟩
      intro hmem
      obtain ⟨struct, hstruct, hname⟩ := List.mem_map.mp hmem
      exact (mem_tableDecls.mp hstruct).1 (hname ▸ List.mem_cons_self)

/-! ## Clients -/

@[simp] theorem FullClient.ofInputs_records (inputs : Inputs) :
    (FullClient.ofInputs inputs).records = recordDecls inputs.model.registry := rfl

theorem FullClient.ofInputs_tables (inputs : Inputs) :
    (FullClient.ofInputs inputs).tables =
      tableDecls inputs.model.registry.names inputs.model.tables := by
  simp [FullClient.ofInputs, Registry.names]

/-- The records of the model in the client: the synthesized ones and those of tables. -/
def FullClient.structs (client : FullClient) : List StructDecl := client.records ++ client.tables

/-- The declarations of one name. -/
def FullClient.structsNamed (client : FullClient) (name : String) : List StructDecl :=
  client.structs.filter fun struct => struct.name == name

/-- The record that has the name: a synthesized one, or that of the first table with a name that is
not synthesized. -/
def Model.struct? (model : Model) (name : String) : Option StructDecl :=
  if name ∈ model.registry.names then (model.registry.record? name).map .ofRecord
  else (firstTable? model.tables name).map .ofTable

theorem Model.struct?_name {model : Model} {name : String} {struct : StructDecl}
    (h : model.struct? name = some struct) : struct.name = name := by
  unfold Model.struct? at h
  split at h
  · obtain ⟨record, hrecord, rfl⟩ := Option.map_eq_some_iff.mp h
    have hname := List.find?_some hrecord
    simpa using hname
  · obtain ⟨table, htable, rfl⟩ := Option.map_eq_some_iff.mp h
    exact firstTable?_name htable

section

variable {schema : Schema} {model : Model} (h : Model.ofSchema schema = .ok model)
  (modules : List Module) (config : Config)

include h

theorem FullClient.mem_structs {struct : StructDecl} :
    struct ∈ (FullClient.ofInputs ⟨model, modules, config⟩).structs ↔
      model.struct? struct.name = some struct := by
  have hnames : struct ∈ recordDecls model.registry → struct.name ∈ model.registry.names := by
    intro hstruct
    have hname := List.mem_map_of_mem (f := (·.name)) hstruct
    rw [recordDecls_names] at hname
    exact List.mem_append_left _ hname
  have hrecord : struct ∈ recordDecls model.registry ↔
      ∃ record, model.registry.record? struct.name = some record ∧ .ofRecord record = struct := by
    simp only [recordDecls, List.mem_map, (Model.distinct h).record?_eq_some]
    constructor
    · rintro ⟨record, hrecord, rfl⟩
      exact ⟨record, ⟨hrecord, rfl⟩, rfl⟩
    · rintro ⟨record, ⟨hrecord, -⟩, rfl⟩
      exact ⟨record, hrecord, rfl⟩
  rw [FullClient.structs, List.mem_append, FullClient.ofInputs_records,
    FullClient.ofInputs_tables, mem_tableDecls, Model.struct?]
  split
  · next hname => simp [hname, hrecord]
  · next hname =>
    have hnot : struct ∉ recordDecls model.registry := fun hstruct => hname (hnames hstruct)
    simp [hname, hnot, eq_comm]

theorem FullClient.structs_nodup :
    ((FullClient.ofInputs ⟨model, modules, config⟩).structs.map (·.name)).Nodup := by
  rw [FullClient.structs, List.map_append, List.nodup_append, FullClient.ofInputs_records,
    FullClient.ofInputs_tables, recordDecls_names]
  refine ⟨(Model.distinct h).records, tableDecls_nodup _ _, ?_⟩
  rintro name hname _ hother rfl
  obtain ⟨struct, hstruct, rfl⟩ := List.mem_map.mp hother
  exact (mem_tableDecls.mp hstruct).1 (List.mem_append_left _ hname)

/-- A client has one record of a name at most. -/
theorem FullClient.structsNamed_eq (name : String) :
    (FullClient.ofInputs ⟨model, modules, config⟩).structsNamed name =
      (model.struct? name).toList := by
  have hmem (struct : StructDecl) :
      struct ∈ (FullClient.ofInputs ⟨model, modules, config⟩).structsNamed name ↔
        struct ∈ (model.struct? name).toList := by
    rw [FullClient.structsNamed, List.mem_filter, FullClient.mem_structs h, Option.mem_toList,
      beq_iff_eq]
    constructor
    · rintro ⟨hstruct, rfl⟩
      exact hstruct
    · intro hstruct
      have hname := Model.struct?_name hstruct
      exact ⟨by rw [hname]; exact hstruct, hname⟩
  have hnodup := (FullClient.structs_nodup h modules config).of_map
  have hoption : (model.struct? name).toList.Nodup := by
    cases model.struct? name <;> simp
  have hperm := (List.perm_ext_iff_of_nodup (hnodup.filter _) hoption).mpr hmem
  cases hstruct : model.struct? name with
  | none =>
    rw [hstruct] at hperm
    exact hperm.eq_nil
  | some struct =>
    rw [hstruct] at hperm
    exact hperm.eq_singleton

end

/-- **Records of tables.** A table whose name is neither that of a synthesized type nor that of an
earlier table has the one record of that name, and so its own fields. If the name is taken, the one
record of that name is the synthesized record, or else that of the first table with the name; there
is none where the name is that of a synthesized enumeration alone. -/
theorem Model.table_struct {schema : Schema} {model : Model}
    (h : Model.ofSchema schema = .ok model) (modules : List Module) (config : Config)
    {before after : List Table} {table : Table} (hsplit : model.tables = before ++ table :: after) :
    let name := structName table.name
    let structs := (FullClient.ofInputs ⟨model, modules, config⟩).structsNamed name
    let earlier := before.map (structName ·.name)
    (name ∉ model.registry.names → name ∉ earlier → structs = [.ofTable table]) ∧
    (name ∉ model.registry.names → name ∈ earlier →
      ∃ first, firstTable? before name = some first ∧ structs = [.ofTable first]) ∧
    (name ∈ model.registry.names →
      structs = ((model.registry.record? name).map .ofRecord).toList) := by
  intro name structs earlier
  have hstructs : structs = (model.struct? name).toList :=
    FullClient.structsNamed_eq h modules config name
  rw [hstructs, Model.struct?, hsplit]
  refine ⟨fun hfree hnew => ?_, fun hfree hold => ?_, fun hsynth => ?_⟩
  · rw [if_neg hfree, firstTable?_append_of_not_mem hnew, firstTable?_cons_self]
    rfl
  · obtain ⟨first, hfirst, hall⟩ := firstTable?_append_of_mem hold (table :: after)
    refine ⟨first, hfirst, ?_⟩
    rw [if_neg hfree, hall]
    rfl
  · rw [if_pos hsynth]

/-- Two tables whose records would have one name: the first one gets it. -/
theorem Model.table_struct_of_shared_name :
    let row (field : String) : Validator :=
      .node "object" [] (some [(field, .node "string" [] none (.scalar .string))]) .object
    let schema : Schema := { owned := [("org_member", row "a"), ("orgMember", row "b")] }
    ∃ first second, Model.ofSchema schema = .ok ⟨[first, second], {}⟩ ∧
      let client := FullClient.ofInputs ⟨⟨[first, second], {}⟩, [], {}⟩
      client.structsNamed (structName first.name) = [.ofTable first] ∧
      ∃ table, firstTable? [first] (structName second.name) = some table ∧
        client.structsNamed (structName second.name) = [.ofTable table] := by
  intro row schema
  refine ⟨_, _, by rfl, ?_, ?_⟩
  · exact (@Model.table_struct schema _ (by rfl) [] {} [] [_] _ rfl).1 (by decide) (by decide)
  · exact (@Model.table_struct schema _ (by rfl) [] {} [_] [] _ rfl).2.1 (by decide) (by decide)

/-- So the record of the second table is lost: none of its name has its fields. -/
theorem Model.table_struct_lost :
    let row (field : String) : Validator :=
      .node "object" [] (some [(field, .node "string" [] none (.scalar .string))]) .object
    let schema : Schema := { owned := [("org_member", row "a"), ("orgMember", row "b")] }
    ∃ model, Model.ofSchema schema = .ok model ∧ ∃ table ∈ model.tables,
      ¬ ∃ struct ∈ (FullClient.ofInputs ⟨model, [], {}⟩).structs,
        struct.name = structName table.name ∧
          struct.properties = table.fields.map Property.ofField := by
  intro row schema
  refine ⟨_, by rfl, _, .tail _ (.head _), ?_⟩
  decide

end ClientBindings
