import ClientBindings.Proofs.Client.WireValues
import ClientBindings.Proofs.Functions.Merging
import ClientBindings.Proofs.Text.ByteOrder

/-!
# Endpoints of a module

Which backend functions a client has methods for.

* `customMethods`: the methods of a module past those of its table's endpoints.
* `offered_reduced_subset`: the reduced client has no table endpoint that the full one lacks.
* `moduleMethods_names`: one method for a name, for exported names alone, the custom ones in
  ascending order; the full client has a method for every name of the reduced one.
-/

namespace ClientBindings

open Text (utf8Bytes)

/-! ## Table endpoints -/

theorem CrudFunction.name_injective : Function.Injective CrudFunction.name := by
  intro function other h
  cases function <;> cases other <;> simp_all [name]

theorem CrudFunction.offered_nodup (table : Table) (target : Target) :
    (CrudFunction.offered table target).Nodup := by
  cases target with
  | full =>
    rw [offered]
    split
    · decide
    · decide
    · decide
    · split
      · decide
      · decide
    · decide
  | reduced =>
    rw [offered]
    split <;> decide

/-- The reduced client offers no endpoint that the full client does not. -/
theorem CrudFunction.offered_reduced_subset (table : Table) :
    offered table .reduced ⊆ offered table .full := by
  rw [offered, offered]
  cases table.kind with
  | owned | orgScoped | singleton =>
    dsimp only
    decide
  | child | base => exact List.nil_subset _

section CrudMethods

variable {around : Surroundings} {target : Target} {name : String}

/-- The methods for table endpoints: those of the exported endpoints on offer. -/
theorem mem_crudMethods {method : Method} : method ∈ crudMethods around target ↔
    ∃ table function, around.table = some table ∧ function ∈ CrudFunction.offered table target ∧
      around.module.exportsName function.name = true ∧
      function.method around table target = method := by
  rw [crudMethods]
  cases around.table with
  | none => simp
  | some table => simp [and_assoc]

theorem mem_crudMethods_names : name ∈ (crudMethods around target).map (·.name) ↔
    ∃ table function, around.table = some table ∧ function ∈ CrudFunction.offered table target ∧
      around.module.exportsName function.name = true ∧ function.name = name := by
  constructor
  · intro hname
    obtain ⟨method, hmethod, rfl⟩ := List.mem_map.mp hname
    obtain ⟨table, function, htable, hoffered, hexported, rfl⟩ := mem_crudMethods.mp hmethod
    exact ⟨table, function, htable, hoffered, hexported, (CrudFunction.method_name ..).symm⟩
  · rintro ⟨table, function, htable, hoffered, hexported, rfl⟩
    have hmethod := mem_crudMethods.mpr ⟨table, function, htable, hoffered, hexported, rfl⟩
    exact List.mem_map.mpr ⟨_, hmethod, CrudFunction.method_name ..⟩

theorem crudMethods_names_nodup (around : Surroundings) (target : Target) :
    ((crudMethods around target).map (·.name)).Nodup := by
  rw [crudMethods]
  cases around.table with
  | none => exact .nil
  | some table =>
    simp only [List.map_map, Function.comp_def, CrudFunction.method_name]
    exact ((CrudFunction.offered_nodup table target).filter _).map CrudFunction.name_injective

theorem crudMethods_reduced_subset (around : Surroundings) :
    (crudMethods around .reduced).map (·.name) ⊆ (crudMethods around .full).map (·.name) := by
  intro name hname
  obtain ⟨table, function, htable, hoffered, hexported, rfl⟩ := mem_crudMethods_names.mp hname
  have hfull := CrudFunction.offered_reduced_subset table hoffered
  exact mem_crudMethods_names.mpr ⟨table, function, htable, hfull, hexported, rfl⟩

end CrudMethods

/-! ## Custom methods -/

theorem CustomFunction.method?_name {function : CustomFunction} {around : Surroundings}
    {target : Target} {method : Method} (h : function.method? around target = some method) :
    method.name = function.name := by
  rw [method?] at h
  split at h
  · cases h
  · cases h
    rfl

/-- The full client has a method for every custom function. -/
theorem CustomFunction.exists_full_method (function : CustomFunction) (around : Surroundings) :
    ∃ method, function.method? around .full = some method ∧ method.name = function.name := by
  have hquery : ¬ (Target.full = .reduced ∧ function.kind = .query) := by simp
  exact ⟨_, if_neg hquery, rfl⟩

/-- The methods of a module past those of table endpoints: the custom functions that no endpoint of
the target covers. -/
def customMethods (model : Model) (config : Config) (around : Surroundings) (target : Target) :
    List Method :=
  let taken := (crudMethods around target).map Method.name
  let custom := (around.module.customFunctions model config).filter fun function =>
    !taken.contains function.name
  custom.filterMap fun function => function.method? around target

section CustomMethods

variable {model : Model} {config : Config} {around : Surroundings} {target : Target}

theorem moduleMethods_eq : moduleMethods model config around target =
    crudMethods around target ++ customMethods model config around target := rfl

/-- The names of the custom methods are some of the names of the custom functions. -/
theorem customMethods_names_sublist :
    ((customMethods model config around target).map (·.name)).Sublist
      ((around.module.customFunctions model config).map (·.name)) := by
  rw [customMethods]
  generalize hfunctions : (around.module.customFunctions model config).filter _ = functions
  have hsub : functions.Sublist (around.module.customFunctions model config) :=
    hfunctions ▸ List.filter_sublist
  refine .trans ?_ (hsub.map _)
  clear hfunctions hsub
  induction functions with
  | nil => exact .slnil
  | cons function rest ih =>
    rw [List.filterMap_cons]
    split
    · exact ih.cons _
    · next method hmethod =>
      rw [List.map_cons, List.map_cons, CustomFunction.method?_name hmethod]
      exact ih.cons_cons _

theorem mem_customMethods {method : Method} :
    method ∈ customMethods model config around target ↔
      ∃ function ∈ around.module.customFunctions model config,
        function.name ∉ (crudMethods around target).map (·.name) ∧
        function.method? around target = some method := by
  simp [customMethods, List.mem_filterMap, and_assoc]

/-- No custom method has the name of a table endpoint's method. -/
theorem customMethods_uncovered :
    ∀ method ∈ customMethods model config around target,
      method.name ∉ (crudMethods around target).map (·.name) := by
  intro method hmethod
  obtain ⟨function, -, huncovered, hmethod⟩ := mem_customMethods.mp hmethod
  rwa [CustomFunction.method?_name hmethod]

theorem moduleMethods_exported :
    ∀ method ∈ moduleMethods model config around target, method.name ∈ around.module.exports := by
  intro method hmethod
  rcases List.mem_append.mp (moduleMethods_eq ▸ hmethod) with hcrud | hcustom
  · obtain ⟨-, function, -, -, hexported, hname⟩ :=
      mem_crudMethods_names.mp (List.mem_map_of_mem hcrud)
    rw [← hname]
    simpa [Module.exportsName] using hexported
  · obtain ⟨function, hfunction, -, hmethod⟩ := mem_customMethods.mp hcustom
    rw [CustomFunction.method?_name hmethod]
    exact Module.customFunctions_exported _ _ _ function hfunction

/-- Every method calls the backend function of its own name. -/
theorem moduleMethods_key :
    ∀ method ∈ moduleMethods model config around target, method.key = around.key method.name := by
  intro method hmethod
  rcases List.mem_append.mp (moduleMethods_eq ▸ hmethod) with hcrud | hcustom
  · obtain ⟨table, function, -, -, -, rfl⟩ := mem_crudMethods.mp hcrud
    cases function <;> rfl
  · obtain ⟨function, -, -, hmethod⟩ := mem_customMethods.mp hcustom
    rw [CustomFunction.method?] at hmethod
    split at hmethod
    · cases hmethod
    · cases hmethod
      rfl

theorem moduleMethods_names_nodup :
    ((moduleMethods model config around target).map (·.name)).Nodup := by
  rw [moduleMethods_eq, List.map_append, List.nodup_append]
  refine ⟨crudMethods_names_nodup around target, ?_, ?_⟩
  · have hascending := Module.customFunctions_ascending around.module model config
    exact (hascending.sublist customMethods_names_sublist).imp ne_of_lt
  · rintro name hcrud other hcustom rfl
    obtain ⟨method, hmethod, rfl⟩ := List.mem_map.mp hcustom
    exact customMethods_uncovered method hmethod hcrud

/-- The full client has a method for every name that the reduced client has one for. -/
theorem moduleMethods_reduced_subset :
    (moduleMethods model config around .reduced).map (·.name) ⊆
      (moduleMethods model config around .full).map (·.name) := by
  intro name hname
  rw [moduleMethods_eq, List.map_append, List.mem_append] at hname ⊢
  rcases hname with hcrud | hcustom
  · exact .inl (crudMethods_reduced_subset around hcrud)
  · obtain ⟨method, hmethod, rfl⟩ := List.mem_map.mp hcustom
    obtain ⟨function, hfunction, -, hmethod⟩ := mem_customMethods.mp hmethod
    rw [CustomFunction.method?_name hmethod]
    -- What covers the function in the full client has its name, too.
    by_cases hcovered : function.name ∈ (crudMethods around .full).map (·.name)
    · exact .inl hcovered
    · obtain ⟨full, hfull, hname⟩ := function.exists_full_method around
      rw [← hname]
      have hmem := mem_customMethods.mpr ⟨function, hfunction, hcovered, hfull⟩
      exact .inr (List.mem_map_of_mem hmem)

end CustomMethods

/-- **Endpoints.** The methods of a module have distinct names, all of which the module exports,
and each calls the function of its own name. The custom ones come last, in ascending order of the
bytes of their names, and none of them has the name of a table endpoint's method. The full client
has a method for every name that the reduced client has one for. -/
theorem moduleMethods_names (model : Model) (config : Config) (module : Module) (target : Target) :
    let around := Surroundings.ofModule model module
    let methods := moduleMethods model config around
    let crud := crudMethods around target
    let custom := customMethods model config around target
    methods target = crud ++ custom ∧ ((methods target).map (·.name)).Nodup ∧
      (∀ method ∈ methods target,
        method.name ∈ module.exports ∧ method.key = module.name ++ ":" ++ method.name) ∧
      (custom.map fun method => utf8Bytes method.name).Pairwise (· < ·) ∧
      (∀ method ∈ custom, method.name ∉ crud.map (·.name)) ∧
      (methods .reduced).map (·.name) ⊆ (methods .full).map (·.name) := by
  intro around methods crud custom
  refine ⟨moduleMethods_eq, moduleMethods_names_nodup, fun method hmethod =>
    ⟨moduleMethods_exported method hmethod, moduleMethods_key method hmethod⟩, ?_,
    customMethods_uncovered, moduleMethods_reduced_subset⟩
  have hsublist : (custom.map (·.name)).Sublist ((module.customFunctions model config).map (·.name)) :=
    customMethods_names_sublist
  have hascending := (Module.customFunctions_ascending module model config).sublist hsublist
  rw [List.pairwise_map] at hascending ⊢
  exact hascending.imp Text.utf8Bytes_lt_iff.mpr

/-- A configured action with the name of an endpoint that only the full client has: in the reduced
client it is a method of its own, in the full client the endpoint covers it. -/
theorem moduleMethods_names_of_covered_action :
    let model : Model := ⟨[⟨"profile", .singleton, [], [], [], none⟩], {}⟩
    let module : Module :=
      ⟨"profile", ["load", "get", "find", "upsert"], "profile", some .singleton, []⟩
    let config : Config := { functions := [("profile", [{ name := "load", kind := .mutation },
      { name := "get", kind := .action }, { name := "find", kind := .query },
      { name := "hidden", kind := .query }])] }
    let around := Surroundings.ofModule model module
    let names (target : Target) := (moduleMethods model config around target).map (·.name)
    names .full = ["upsert", "get", "find", "load"] ∧ names .reduced = ["upsert", "get", "load"] ∧
      (customMethods model config around .reduced).map (·.name) = ["get", "load"] ∧
      names .reduced ⊆ names .full := by
  intro model module config around names
  obtain ⟨-, -, -, -, -, hsubset⟩ := moduleMethods_names model config module .reduced
  exact ⟨by decide, by decide, by decide, hsubset⟩

end ClientBindings
