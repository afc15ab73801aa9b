import ClientBindings.Proofs.Client.TableRecords

/-!
# Names of types

Whether the declarations of a full client have distinct names.

* `sharedDecls_names`, `tableDecls_nodup`: the records of tables and the shared types keep clear of
  the names that are taken. The other declarations do not: synthesized records and enumerations
  are registered apart, and filters and modules take their names as they come.
* `Model.NamesApart`: where names meet that nothing keeps apart.
* `Model.typeNames_nodup_iff`: the names of a client are distinct exactly if those of its model and
  its modules are apart.
-/

namespace ClientBindings

/-! ## Names of filters and modules -/

theorem filterName_suffix (table : String) :
    "Where".toList <:+ (filterName table).toList := by
  rw [filterName, String.toList_append]
  exact List.suffix_append _ _

theorem apiName_suffix (module : String) : "API".toList <:+ (apiName module).toList := by
  rw [apiName, String.toList_append]
  exact List.suffix_append _ _

theorem filterName_ne_apiName (table module : String) : filterName table ≠ apiName module := by
  intro h
  obtain ⟨cs, hcs⟩ := filterName_suffix table
  obtain ⟨ds, hds⟩ := apiName_suffix module
  rw [h, ← hds] at hcs
  have hlast := congrArg List.getLast? hcs
  simp at hlast

/-! ## Shared types -/

/-- The names of all shared types. -/
def Shared.names : List String := (sharedDecls []).names

theorem Shared.names_nodup : Shared.names.Nodup := by decide

/-- No shared type has a name with the ending of filters or that of modules. -/
theorem Shared.names_endings : ∀ name ∈ Shared.names,
    ¬ "Where".toList <:+ name.toList ∧ ¬ "API".toList <:+ name.toList := by
  decide

theorem Shared.ne_filterName {name : String} (h : name ∈ Shared.names) (table : String) :
    name ≠ filterName table := by
  rintro rfl
  exact (Shared.names_endings _ h).1 (filterName_suffix table)

theorem Shared.ne_apiName {name : String} (h : name ∈ Shared.names) (module : String) :
    name ≠ apiName module := by
  rintro rfl
  exact (Shared.names_endings _ h).2 (apiName_suffix module)

/-- A client has the shared types whose names are not taken. -/
theorem sharedDecls_names (taken : List String) :
    (sharedDecls taken).names = Shared.names.filter fun name => !taken.contains name := by
  have hall : Shared.names = [Shared.author].map (·.name) ++ [TypeExpr.pageName] ++
      Shared.organizationRecords.map (·.name) ++ Shared.organizationEnums.map (·.name) ++
      Shared.membershipRecords.map (·.name) := rfl
  have hpage : [TypeExpr.pageName].filter (fun name => !taken.contains name) =
      if !taken.contains TypeExpr.pageName then [TypeExpr.pageName] else [] := List.filter_cons
  rw [hall]
  simp only [List.filter_append, List.filter_map, hpage]
  rfl

theorem mem_sharedDecls_names {taken : List String} {name : String} :
    name ∈ (sharedDecls taken).names ↔ name ∈ Shared.names ∧ name ∉ taken := by
  rw [sharedDecls_names, List.mem_filter]
  simp

theorem sharedDecls_nodup (taken : List String) : (sharedDecls taken).names.Nodup := by
  rw [sharedDecls_names]
  exact Shared.names_nodup.filter _

/-! ## The names of a client -/

/-- The names that a model declares for itself: those of synthesized types and of the records of
tables. -/
def Model.ownNames (model : Model) : List String :=
  model.registry.names ++ model.tables.map (structName ·.name)

/-- The names of a model and of modules are apart. -/
structure Model.NamesApart (model : Model) (modules : List Module) : Prop where
  /-- No synthesized record has the name of a synthesized enumeration. -/
  sortsApart : ∀ record ∈ model.registry.records, ∀ enum ∈ model.registry.enums,
    record.name ≠ enum.name
  /-- No two filtered tables have one name in pascal case. -/
  filtersApart : (model.filters.map (pascalCase ·.table)).Nodup
  /-- No two modules have one name in pascal case. -/
  modulesApart : (modules.map (pascalCase ·.name)).Nodup
  /-- No filter has a name of the model's own. -/
  filtersFree : ∀ filter ∈ model.filters, filterName filter.table ∉ model.ownNames
  /-- No declaration of functions has a name of the model's own. -/
  modulesFree : ∀ module ∈ modules, apiName module.name ∉ model.ownNames

/-- The names of the records that the client declares for tables. -/
def Model.tableNames (model : Model) : List String :=
  (tableDecls model.registry.names model.tables).map (·.name)

theorem Model.tableNames_free {model : Model} {name : String} (h : name ∈ model.tableNames) :
    name ∉ model.registry.names := by
  obtain ⟨struct, hstruct, rfl⟩ := List.mem_map.mp h
  exact (mem_tableDecls.mp hstruct).1

/-- A table that is passed over has a name that is declared. -/
theorem Model.mem_tableNames {model : Model} {name : String} :
    name ∈ model.registry.names ++ model.tableNames ↔ name ∈ model.ownNames := by
  by_cases htaken : name ∈ model.registry.names
  · exact iff_of_true (List.mem_append_left _ htaken) (List.mem_append_left _ htaken)
  · simp only [Model.ownNames, List.mem_append, htaken, false_or]
    constructor
    · intro h
      obtain ⟨struct, hstruct, rfl⟩ := List.mem_map.mp h
      obtain ⟨-, table, htable, rfl⟩ := mem_tableDecls.mp hstruct
      exact List.mem_map.mpr ⟨table, List.mem_of_find?_eq_some htable, rfl⟩
    · intro h
      obtain ⟨first, hfirst, -⟩ := firstTable?_append_of_mem h []
      have hname := firstTable?_name hfirst
      refine List.mem_map.mpr ⟨.ofTable first, mem_tableDecls.mpr ?_, hname⟩
      rw [StructDecl.ofTable_name, hname]
      exact ⟨htaken, first, hfirst, rfl⟩

/-- The names of a client. Only those of records of tables and of shared types depend on others. -/
theorem FullClient.typeNames_eq (model : Model) (modules : List Module) (config : Config) :
    (FullClient.ofInputs ⟨model, modules, config⟩).typeNames =
      model.registry.names ++ model.tableNames ++
        (sharedDecls (model.registry.names ++ model.tableNames)).names ++
        model.filters.map (filterName ·.table) ++ modules.map (apiName ·.name) := by
  simp [FullClient.typeNames, FullClient.ofInputs, Registry.names, Model.tableNames,
    Function.comp_def, FilterDecl.ofFilter, ApiDecl.ofModule]

/-! ## Repetitions -/

/-- Names that keep clear of those before them add no repetition. -/
theorem nodup_append_free {names more : List String} (hmore : more.Nodup)
    (hfree : ∀ name ∈ more, name ∉ names) : (names ++ more).Nodup ↔ names.Nodup := by
  rw [List.nodup_append]
  constructor
  · exact fun h => h.1
  · intro h
    refine ⟨h, hmore, ?_⟩
    rintro name hname _ hother rfl
    exact hfree name hother hname

/-- Names with an ending that is foreign to `others` repeat those of `own` or each other. -/
theorem nodup_append_ending {α : Type} {own others : List String} {named : List α}
    {name : α → String} (ending : String)
    (hothers : ∀ other ∈ others, ∀ a, other ≠ name a ++ ending) :
    (own ++ others ++ named.map fun a => name a ++ ending).Nodup ↔
      (own ++ others).Nodup ∧ (named.map name).Nodup ∧ ∀ a ∈ named, name a ++ ending ∉ own := by
  have hmap : (named.map fun a => name a ++ ending) = (named.map name).map (· ++ ending) := by
    rw [List.map_map]
    rfl
  have hinj : Function.Injective (· ++ ending) := fun s t h => by simpa using h
  rw [List.nodup_append, hmap, List.nodup_map_iff hinj]
  refine and_congr_right fun _ => and_congr_right fun _ => ?_
  constructor
  · intro h a ha hown
    refine h _ (List.mem_append_left _ hown) _ ?_ rfl
    exact List.mem_map_of_mem (List.mem_map_of_mem ha)
  · rintro h other hother _ hname rfl
    rw [← hmap] at hname
    obtain ⟨a, ha, rfl⟩ := List.mem_map.mp hname
    rcases List.mem_append.mp hother with hown | hother
    · exact h a ha hown
    · exact hothers _ hother a rfl

/-- Shared types repeat no name. Filters and modules repeat one if they share it with each other of
their kind or with what is declared before them. -/
theorem nodup_declared {own : List String} {filters : List Filter} {modules : List Module} :
    (own ++ (sharedDecls own).names ++ filters.map (filterName ·.table) ++
        modules.map (apiName ·.name)).Nodup ↔
      (own.Nodup ∧ (filters.map (pascalCase ·.table)).Nodup ∧
        ∀ filter ∈ filters, filterName filter.table ∉ own) ∧
      (modules.map (pascalCase ·.name)).Nodup ∧ ∀ module ∈ modules, apiName module.name ∉ own := by
  have hfilters : ∀ name ∈ (sharedDecls own).names, ∀ filter : Filter,
      name ≠ filterName filter.table :=
    fun name hname filter => Shared.ne_filterName (mem_sharedDecls_names.mp hname).1 _
  have hmodules : ∀ name ∈ (sharedDecls own).names ++ filters.map (filterName ·.table),
      ∀ module : Module, name ≠ apiName module.name := by
    intro name hname module
    rcases List.mem_append.mp hname with hname | hname
    · exact Shared.ne_apiName (mem_sharedDecls_names.mp hname).1 _
    · obtain ⟨filter, -, rfl⟩ := List.mem_map.mp hname
      exact filterName_ne_apiName _ _
  have hown : (own ++ (sharedDecls own).names).Nodup ↔ own.Nodup :=
    nodup_append_free (sharedDecls_nodup own) fun name hname => (mem_sharedDecls_names.mp hname).2
  rw [List.append_assoc own]
  refine (nodup_append_ending "API" hmodules).trans (and_congr_left fun _ => ?_)
  rw [← List.append_assoc]
  refine (nodup_append_ending "Where" hfilters).trans ?_
  rw [hown]
  exact Iff.rfl

theorem Registry.Distinct.names_nodup {r : Registry} (h : r.Distinct) :
    r.names.Nodup ↔ ∀ record ∈ r.records, ∀ enum ∈ r.enums, record.name ≠ enum.name := by
  rw [Registry.names, List.nodup_append]
  simp [h.records, h.enums]

/-- **Names of types.** The declarations of a full client have distinct names exactly if the names
of the model and of the modules are apart. -/
theorem Model.typeNames_nodup_iff {schema : Schema} {model : Model}
    (h : Model.ofSchema schema = .ok model) (modules : List Module) (config : Config) :
    (FullClient.ofInputs ⟨model, modules, config⟩).typeNames.Nodup ↔ model.NamesApart modules := by
  have hown : (model.registry.names ++ model.tableNames).Nodup ↔ model.registry.names.Nodup :=
    nodup_append_free (tableDecls_nodup _ _) fun _ => Model.tableNames_free
  rw [FullClient.typeNames_eq, nodup_declared, hown, (Model.distinct h).names_nodup]
  simp only [Model.mem_tableNames]
  constructor
  · rintro ⟨⟨hsorts, hfilters, hfree⟩, hmodules, hfree'⟩
    exact ⟨hsorts, hfilters, hmodules, hfree, hfree'⟩
  · rintro ⟨hsorts, hfilters, hmodules, hfree, hfree'⟩
    exact ⟨⟨hsorts, hfilters, hfree⟩, hmodules, hfree'⟩

/-- A table with an enumeration: its record, its filter and its enumeration have distinct names, so
the names of the model are apart. -/
theorem Model.namesApart_of_enumeration :
    let level : Validator := .node "enum" ["low", "high"] none .enumeration
    let schema : Schema :=
      { owned := [("blog", .node "object" [] (some [("level", level)]) .object)] }
    ∃ model, Model.ofSchema schema = .ok model ∧ model.filters.map (·.table) = ["blog"] ∧
      model.registry.names = ["BlogLevel"] ∧ model.NamesApart [] := by
  intro level schema
  refine ⟨_, by rfl, by decide, by decide, ?_⟩
  exact (@Model.typeNames_nodup_iff schema _ (by rfl) [] {}).mp (by decide)

/-- A union whose tags are declared, beside a field with the name of its tags: the enumeration of
the tags and the record of the field have one name. -/
theorem Model.typeNames_repeated :
    let tag : Validator := .node "literal" ["text"] none .unsupported
    let variant : Validator := .node "object" [] (some [("type", tag)]) .object
    let part : Validator := .node "union" [] none (.union [variant])
    let label : Validator := .node "string" [] none (.scalar .string)
    let partType : Validator := .node "object" [] (some [("label", label)]) .object
    let blog : Validator :=
      .node "object" [] (some [("part", part), ("partType", partType)]) .object
    ∃ model, Model.ofSchema { owned := [("blog", blog)] } = .ok model ∧
      ¬ (FullClient.ofInputs ⟨model, [], {}⟩).typeNames.Nodup := by
  dsimp only
  refine ⟨_, by rfl, ?_⟩
  decide

end ClientBindings
