import ClientBindings.Model.Table
import ClientBindings.Proofs.Registry.Registration
import ClientBindings.Proofs.Schema.Reading

/-!
# Resolution as naming

A resolution reads nothing from the registry but whether its definitions clash with earlier ones.
What it registers and returns is decided by the reading of the validator and by the names it
stands at.

* `Reading.fieldType`, `Reading.steps`: the type that a reading gets at a model and a field, and
  the definitions that it gives rise to, in the order of their registration.
* `resolve_eq`: a resolution performs the steps of the reading and returns its entry.
* `Model.ofSchema_eq`: the model of a schema performs the steps of its declarations, one table
  after the other.
-/

namespace ClientBindings

/-! ## Names of readings -/

/-- The name of the enumeration of a union's tags; none if the union has no tags. -/
def discriminantName (union : String) (tags : List String) : Option String :=
  if tags.isEmpty then none else some (union ++ "Type")

/-- The type that a reading gets at a field of a model. -/
def Reading.fieldType : Reading → String → String → FieldType
  | .scalar s, _, _ => .scalar s
  | .enumeration _, model, field => .enumRef (synthesizedName model field)
  | .array ⟨element, isOptional⟩, model, field =>
    .array (element.fieldType model (Text.dropEnding "s" field)) isOptional
  | .object _, model, field => .recordRef (synthesizedName model field)
  | .union _ _, model, field => .unionRef (synthesizedName model field)
  | .unsupported _, _, _ => .string

/-- The entry that a slot gets at a field of a model. -/
def Slot.entry (slot : Slot Reading) (model field : String) : FieldEntry :=
  ⟨slot.type.fieldType model field, slot.isOptional⟩

/-- The entries of fields of a model. -/
def entriesOf (fields : List (String × Slot Reading)) (model : String) : Fields :=
  fields.map fun field => (field.1, field.2.entry model field.1)

mutual

/-- The definitions that a reading gives rise to at a field of a model. A record comes after the
definitions that its fields rest on. -/
def Reading.steps : Reading → String → String → List Step
  | .scalar _, _, _ => []
  | .enumeration values, model, field =>
    [.define (.enum ⟨synthesizedName model field, values⟩)]
  | .array ⟨element, _⟩, model, field => element.steps model (Text.dropEnding "s" field)
  | .object fields, model, field =>
    let name := synthesizedName model field
    let inner := Text.lowercase name
    fieldSteps fields inner ++ [.define (.record ⟨name, .nested, entriesOf fields inner⟩)]
  | .union tags fields, model, field =>
    let name := synthesizedName model field
    let discriminant := discriminantName name tags
    (discriminant.map fun enum => Step.define (.enum ⟨enum, tags⟩)).toList ++
      (fieldSteps fields name ++
        [.define
          (.record ⟨name, .union discriminant, tagField discriminant :: entriesOf fields name⟩)])
  | .unsupported kind, model, field => [.fail (.unsupported kind model field)]

/-- The definitions that fields of a model give rise to. -/
def fieldSteps : List (String × Slot Reading) → String → List Step
  | [], _ => []
  | (field, ⟨reading, _⟩) :: rest, model => reading.steps model field ++ fieldSteps rest model

end

theorem mem_fieldSteps {fields : List (String × Slot Reading)} {field : String × Slot Reading}
    {model : String} {step : Step} (h : field ∈ fields)
    (hstep : step ∈ field.2.type.steps model field.1) : step ∈ fieldSteps fields model := by
  induction fields with
  | nil => simp at h
  | cons first rest ih =>
    obtain ⟨name, reading, isOptional⟩ := first
    rw [fieldSteps]
    rcases List.mem_cons.mp h with rfl | h
    · exact List.mem_append_left _ hstep
    · exact List.mem_append_right _ (ih h)

/-- The steps of fields are those of each of them. -/
theorem mem_fieldSteps_iff {fields : List (String × Slot Reading)} {model : String} {step : Step} :
    step ∈ fieldSteps fields model ↔
      ∃ field ∈ fields, step ∈ field.2.type.steps model field.1 := by
  constructor
  · intro h
    induction fields with
    | nil => simp [fieldSteps] at h
    | cons first rest ih =>
      obtain ⟨name, reading, isOptional⟩ := first
      rw [fieldSteps] at h
      rcases List.mem_append.mp h with h | h
      · exact ⟨_, List.mem_cons_self, h⟩
      · obtain ⟨field, hfield, hstep⟩ := ih h
        exact ⟨field, List.mem_cons_of_mem _ hfield, hstep⟩
  · rintro ⟨field, hfield, hstep⟩
    exact mem_fieldSteps hfield hstep

theorem fieldSteps_append (fields rest : List (String × Slot Reading)) (model : String) :
    fieldSteps (fields ++ rest) model = fieldSteps fields model ++ fieldSteps rest model := by
  induction fields with
  | nil => simp [fieldSteps]
  | cons field fields ih =>
    obtain ⟨name, reading, isOptional⟩ := field
    simp [fieldSteps, ih]

/-! ## Steps as resolutions -/

namespace Resolution

/-- A resolution goes on from the registry that the one before it left, unless that one failed. -/
theorem run_bind {α β : Type} (x : Resolution α) (f : α → Resolution β) (r : Registry) :
    (x >>= f).run.run r =
      match x.run.run r with
      | (.ok a, r') => (f a).run.run r'
      | (.error error, r') => (.error error, r') := by
  simp only [ExceptT.run_bind, StateT.run_bind]
  rcases x.run.run r with ⟨_ | _, r'⟩ <;> rfl

theorem ext_run {α : Type} {x y : Resolution α} (h : ∀ r, x.run.run r = y.run.run r) : x = y :=
  funext h

/-- Performs steps as a resolution. -/
def perform (steps : List Step) : Resolution Unit := ExceptT.mk fun r => r.perform steps

theorem perform_run (steps : List Step) (r : Registry) :
    (perform steps).run.run r = r.perform steps := rfl

@[simp] theorem perform_nil : perform [] = pure () := rfl

theorem perform_fail (error : ModelError) : perform [.fail error] = throw error := rfl

theorem perform_append (steps rest : List Step) :
    perform (steps ++ rest) = perform steps >>= fun _ => perform rest := by
  refine ext_run fun r => ?_
  rw [run_bind, perform_run, perform_run, Registry.perform_append]
  rcases r.perform steps with ⟨_ | _, r'⟩ <;> rfl

theorem register_install (d : Definition) :
    register (fun registry => registry.install d) = perform [.define d] := by
  refine ext_run fun r => ?_
  have hget : (get : Resolution Registry).run.run r = (.ok r, r) := rfl
  rw [register, run_bind, hget, perform_run, Registry.perform]
  cases hd : r.install d with
  | error error => simp only [hd]; rfl
  | ok r' => simp only [hd]; rfl

theorem addEnum_perform (name : String) (values : List String) :
    addEnum name values = perform [.define (.enum ⟨name, sortedSet values⟩)] := by
  rw [← register_install]
  exact congrArg register (funext fun r => r.addEnum_eq name values)

theorem addRecord_perform (definition : RecordDef) :
    addRecord definition = perform [.define (.record definition)] := by
  rw [← register_install]
  exact congrArg register (funext fun r => r.addRecord_eq definition)

end Resolution

theorem sortedSet_isEmpty (strings : List String) :
    (sortedSet strings).isEmpty = strings.isEmpty := by
  rw [Bool.eq_iff_iff, List.isEmpty_iff, List.isEmpty_iff, List.eq_nil_iff_forall_not_mem,
    List.eq_nil_iff_forall_not_mem]
  simp only [mem_sortedSet]

/-- The enumeration of a union's tags is registered under its discriminant's name. -/
theorem addDiscriminant_perform (union : String) (tags : List String) :
    addDiscriminant union tags = do
      Resolution.perform ((discriminantName union (sortedSet tags)).map fun enum =>
        Step.define (.enum ⟨enum, sortedSet tags⟩)).toList
      return discriminantName union (sortedSet tags) := by
  simp only [addDiscriminant, discriminantName, sortedSet_isEmpty]
  split
  · simp
  · simp [Resolution.addEnum_perform]

/-! ## Resolutions as steps -/

theorem reading_of_isFile {validator : Validator} (h : validator.isFile = true) :
    validator.reading = ⟨.scalar .string, false⟩ := by
  obtain ⟨kind, values, fields, form⟩ := validator
  cases form <;> simp [Validator.isFile] at h
  rw [Validator.reading]

/-- The fields of a union's options that are not among those found before. -/
def newFields (found : Fields) (fields : List (String × Slot Reading)) :
    List (String × Slot Reading) :=
  (Entries.fresh found.names fields).map fun field => (field.1, field.2.opened)

@[simp] theorem newFields_nil (found : Fields) : newFields found [] = [] := rfl

theorem names_entriesOf (fields : List (String × Slot Reading)) (model : String) :
    (entriesOf fields model).names = fields.map (·.1) := by
  simp [entriesOf, Entries.names]

theorem newFields_append (found : Fields) (fields rest : List (String × Slot Reading))
    (union : String) :
    newFields found (fields ++ rest) = newFields found fields ++
      newFields (found ++ entriesOf (newFields found fields) union) rest := by
  have hnames : (entriesOf (newFields found fields) union).names =
      (Entries.fresh found.names fields).names := by
    rw [names_entriesOf]
    simp [newFields, Entries.names]
  simp only [newFields, Entries.fresh_append, List.map_append, Entries.names_append]
  rw [← newFields, hnames]

theorem newFields_cons_of_mem {found : Fields} {field : String} (h : field ∈ found.names)
    (slot : Slot Reading) (rest : List (String × Slot Reading)) :
    newFields found ((field, slot) :: rest) = newFields found rest := by
  simp [newFields, Entries.fresh, h]

theorem newFields_cons_of_not_mem {found : Fields} {field : String} (h : field ∉ found.names)
    (slot : Slot Reading) (rest : List (String × Slot Reading)) (entry : FieldEntry) :
    newFields found ((field, slot) :: rest) =
      (field, slot.opened) :: newFields (found ++ [(field, entry)]) rest := by
  have hnames : Entries.names [(field, entry)] = [field] := rfl
  simp [newFields, Entries.fresh, h, hnames]

mutual

/-- A resolution performs the steps of the reading and returns its entry. -/
theorem resolve_eq (validator : Validator) (model field : String) :
    resolve validator model field = do
      Resolution.perform (validator.reading.type.steps model field)
      return validator.reading.entry model field :=
  match validator with
  | .node kind values fields (.optional inner) => by
    rw [resolve, resolve_eq inner, Validator.reading]
    simp [Slot.opened, Slot.entry, FieldEntry.optional]
  | .node kind values fields (.scalar s) => by
    rw [resolve, Validator.reading]
    simp [Slot.entry, Reading.steps, Reading.fieldType, FieldEntry.required]
  | .node kind values fields .file => by
    rw [resolve, Validator.reading]
    simp [Slot.entry, Reading.steps, Reading.fieldType, FieldEntry.required, FieldType.string]
  | .node kind values fields .enumeration => by
    rw [resolve, Validator.reading]
    simp [Slot.entry, Reading.steps, Reading.fieldType, FieldEntry.required,
      Resolution.addEnum_perform]
  | .node kind values fields (.array element) => by
    rw [resolve, Validator.reading]
    split
    · next h =>
      rw [reading_of_isFile h]
      simp [Slot.entry, Reading.steps, Reading.fieldType, FieldEntry.required, FieldType.string]
    · rw [resolve_eq element]
      simp [Slot.entry, Reading.steps, Reading.fieldType, FieldEntry.required]
  | .node kind values (some fields) .object => by
    rw [resolve, resolveFields_eq fields, Validator.reading]
    simp [Slot.entry, Reading.steps, Reading.fieldType, FieldEntry.required,
      Resolution.addRecord_perform, Resolution.perform_append]
  | .node kind values fields (.union options) => by
    -- The discriminant is the first field of the record: no option adds one of its name.
    have hoptions (discriminant : Option String) (name : String) :=
      resolveOptions_eq options name [tagField discriminant] (by simp [tagField, Entries.names])
    simp only [resolve, addDiscriminant_perform, hoptions, Resolution.addRecord_perform]
    rw [Validator.reading]
    simp [Slot.entry, Reading.steps, Reading.fieldType, FieldEntry.required,
      Resolution.perform_append, newFields, tagField, Entries.names]
  | .node kind values none .object => by
    rw [resolve, Validator.reading] <;> simp [Reading.steps, Resolution.perform_fail]
  | .node kind values fields .unsupported => by
    rw [resolve, Validator.reading] <;> simp [Reading.steps, Resolution.perform_fail]

theorem resolveFields_eq (fields : List (String × Validator)) (model : String) :
    resolveFields fields model = do
      Resolution.perform (fieldSteps (fieldReadings fields) model)
      return entriesOf (fieldReadings fields) model :=
  match fields with
  | [] => by simp [resolveFields, fieldReadings, fieldSteps, entriesOf]
  | (field, validator) :: rest => by
    rw [resolveFields, resolve_eq validator, resolveFields_eq rest, fieldReadings, fieldSteps]
    simp [Resolution.perform_append, entriesOf]

theorem resolveOptions_eq (options : List Validator) (union : String) (found : Fields)
    (htag : "type" ∈ found.names) :
    resolveOptions options union found = do
      Resolution.perform (fieldSteps (newFields found (optionReadings options)) union)
      return found ++ entriesOf (newFields found (optionReadings options)) union :=
  match options with
  | [] => by simp [resolveOptions, optionReadings, fieldSteps, entriesOf]
  | option :: rest => by
    have htag' : "type" ∈ Entries.names
        (found ++ entriesOf (newFields found (variantReadings option)) union) := by
      rw [Entries.names_append]
      exact List.mem_append_left _ htag
    simp only [resolveOptions, resolveOption_eq option union found htag, bind_assoc, pure_bind,
      resolveOptions_eq rest union _ htag', optionReadings]
    rw [newFields_append found _ _ union, fieldSteps_append, Resolution.perform_append]
    simp [entriesOf]

theorem resolveOption_eq (option : Validator) (union : String) (found : Fields)
    (htag : "type" ∈ found.names) :
    resolveOption option union found = do
      Resolution.perform (fieldSteps (newFields found (variantReadings option)) union)
      return found ++ entriesOf (newFields found (variantReadings option)) union :=
  match option with
  | .node kind values fields (.optional inner) => by
    rw [resolveOption, resolveOption_eq inner union found htag, variantReadings]
  | .node kind values (some fields) form => by
    cases form with
    | optional inner =>
      rw [resolveOption, resolveOption_eq inner union found htag, variantReadings]
    | _ => rw [resolveOption, resolveVariant_eq fields union found htag, variantReadings] <;> simp
  | .node kind values none form => by
    cases form with
    | optional inner =>
      rw [resolveOption, resolveOption_eq inner union found htag, variantReadings]
    | _ => rw [resolveOption, variantReadings] <;> simp [fieldSteps, entriesOf]

theorem resolveVariant_eq (fields : List (String × Validator)) (union : String) (found : Fields)
    (htag : "type" ∈ found.names) :
    resolveVariant fields union found = do
      Resolution.perform (fieldSteps (newFields found (fieldReadings fields)) union)
      return found ++ entriesOf (newFields found (fieldReadings fields)) union :=
  match fields with
  | [] => by simp [resolveVariant, fieldReadings, fieldSteps, entriesOf]
  | (field, validator) :: rest => by
    rw [resolveVariant, fieldReadings]
    split
    · next h =>
      have hknown : field ∈ found.names := h.elim (fun he => he ▸ htag) id
      rw [resolveVariant_eq rest union found htag, newFields_cons_of_mem hknown]
    · next h =>
      have hnew : field ∉ found.names := fun hmem => h (.inr hmem)
      have htag' (entry : FieldEntry) : "type" ∈ Entries.names (found ++ [(field, entry)]) := by
        rw [Entries.names_append]
        exact List.mem_append_left _ htag
      let entry := FieldEntry.optional (validator.reading.entry union field).type
      rw [newFields_cons_of_not_mem hnew _ _ entry]
      simp only [resolve_eq validator, bind_assoc, pure_bind,
        resolveVariant_eq rest union _ (htag' _)]
      simp [fieldSteps, Slot.opened, Resolution.perform_append, entriesOf, Slot.entry,
        FieldEntry.optional, entry]

end

/-! ## Tables and schemas -/

namespace TableDeclaration

/-- The definitions that the declaration of a table gives rise to. -/
def steps (declaration : TableDeclaration) : List Step :=
  match declaration.validator.fields with
  | none =>
    [.fail (.notObject declaration.kind declaration.name declaration.validator.kind)]
  | some fields => fieldSteps (fieldReadings fields) declaration.name

/-- The table that a declaration stands for. -/
def table (declaration : TableDeclaration) : Table :=
  let fields := declaration.validator.fields.getD []
  Table.ofFields declaration fields (entriesOf (fieldReadings fields) declaration.name)

end TableDeclaration

theorem Table.ofDeclaration_eq (declaration : TableDeclaration) :
    Table.ofDeclaration declaration = do
      Resolution.perform declaration.steps
      return declaration.table := by
  simp only [Table.ofDeclaration, TableDeclaration.steps, TableDeclaration.table]
  cases declaration.validator.fields with
  | none => simp [Resolution.perform_fail]
  | some fields => simp [resolveFields_eq]

theorem Model.resolveTables_eq (declarations : List TableDeclaration) :
    Model.resolveTables declarations = do
      Resolution.perform (declarations.flatMap TableDeclaration.steps)
      return declarations.map TableDeclaration.table := by
  induction declarations with
  | nil => simp [Model.resolveTables]
  | cons declaration rest ih =>
    rw [Model.resolveTables, Table.ofDeclaration_eq, ih]
    simp [Resolution.perform_append]

/-- The model of a schema has a table for every declaration, and the registry that the steps of
all declarations leave. -/
theorem Model.ofSchema_eq (schema : Schema) :
    Model.ofSchema schema =
      match ({} : Registry).perform (schema.declarations.flatMap TableDeclaration.steps) with
      | (.ok _, r) => .ok ⟨schema.declarations.map TableDeclaration.table, r⟩
      | (.error error, _) => .error error := by
  simp only [Model.ofSchema, Model.resolveTables_eq, Resolution.run_bind, Resolution.perform_run]
  rcases ({} : Registry).perform _ with ⟨_ | _, r⟩ <;> rfl

theorem Model.ofSchema_ok {schema : Schema} {model : Model}
    (h : Model.ofSchema schema = .ok model) :
    model.tables = schema.declarations.map TableDeclaration.table ∧
      ({} : Registry).perform (schema.declarations.flatMap TableDeclaration.steps) =
        (.ok (), model.registry) := by
  rw [Model.ofSchema_eq] at h
  rcases hp : ({} : Registry).perform _ with ⟨_ | _, r⟩
  · rw [hp] at h
    cases h
  · rw [hp] at h
    cases h
    exact ⟨rfl, rfl⟩

theorem Model.distinct {schema : Schema} {model : Model} (h : Model.ofSchema schema = .ok model) :
    model.registry.Distinct := by
  have hdistinct := Registry.Distinct.empty.perform (schema.declarations.flatMap (·.steps))
  rwa [(Model.ofSchema_ok h).2] at hdistinct

end ClientBindings
