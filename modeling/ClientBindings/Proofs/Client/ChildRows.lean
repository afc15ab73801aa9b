import ClientBindings.Proofs.Client.Endpoints
import ClientBindings.Proofs.Functions.Gaps

/-!
# Creation of child rows

The method that creates the rows of a child table: which one it is, and how it encodes the fields
compared with the endpoints of other tables.

* `Argument.Carries`, `AgreesOn`: an argument or an entry for a field, sent as the endpoints send a
  value of its type. Standard functions and loops over elements tell enumerations apart, and so
  agree with the endpoints on every type but arrays of enumerations
  (`FieldType.direct_text_eq_iff`).
* `Model.childCreate_encodings`: hence the two encoders agree but for those.
* `moduleMethods_create`: a module has one method that creates rows, that of the endpoint where all
  fields can be sent as they are and the standard one where some cannot and one is an array of
  records; it has none where some cannot and none is such an array.
-/

namespace ClientBindings

/-! ## Two encoders -/

/-- Whether the type is an array of enumerations, which endpoints send by their raw values. -/
def FieldType.isEnumArray : FieldType → Bool
  | .array (.enumRef _) false => true
  | _ => false

/-- What tells only enumerations apart agrees with the endpoints of tables on all types but arrays
of enumerations. -/
theorem FieldType.direct_text_eq_iff (subject : String) (type : FieldType) :
    (if type.enumName?.isSome then subject ++ ".rawValue" else subject) =
      (WireValue.ofField subject type).text ↔ type.isEnumArray = false := by
  have hmapped : subject ≠ subject ++ ".map(\\.rawValue)" := fun h => by
    have hlength := congrArg String.length h
    rw [String.length_append, show ".map(\\.rawValue)".length = 16 by decide] at hlength
    omega
  cases type with
  | scalar | enumRef | recordRef | unionRef => exact iff_of_true rfl rfl
  | array element isOptional =>
    cases isOptional with
    | true => cases element <;> exact iff_of_true rfl rfl
    | false =>
      cases element with
      | enumRef => exact iff_of_false hmapped Bool.true_eq_false.mp
      | _ => exact iff_of_true rfl rfl

/-- The argument is for the field: under its name, to be left out where the field may be, and sent
as the endpoints of tables send the type exactly if that is no array of enumerations. -/
structure Argument.Carries (field : String × FieldEntry) (argument : Argument) : Prop where
  name : argument.name = field.1
  wireName : argument.wireName = field.1
  isOptional : argument.isOptional = field.2.isOptional
  wireExpr : argument.wireExpr = (WireValue.ofField field.1 field.2.type).text ↔
    field.2.type.isEnumArray = false

/-- The entry is for the field that the subject stands for: under its name, and encoded as the
endpoints of tables encode the type exactly if that is no array of enumerations. -/
structure AgreesOn (subject : String) (field : String × FieldEntry) (entry : DictEntry) : Prop where
  key : entry.key = field.1
  text : entry.value.text = (WireValue.ofField subject field.2.type).text ↔
    field.2.type.isEnumArray = false

theorem Standard.fieldArgument_carries (field : String × FieldEntry) :
    (fieldArgument field.1 field.2).Carries field := by
  refine ⟨rfl, rfl, rfl, ?_⟩
  have htext := fieldArgument_text field.1 field.2
  rw [← field.2.type.direct_text_eq_iff field.1, ← htext]
  rfl

theorem Standard.fieldArgument_agreesOn (field : String × FieldEntry) :
    AgreesOn field.1 field (fieldArgument field.1 field.2).entry := by
  refine ⟨rfl, ?_⟩
  rw [fieldArgument_text]
  exact field.2.type.direct_text_eq_iff field.1

theorem elementEntry_agreesOn (field : String × FieldEntry) :
    AgreesOn (elementSubject field) field (elementEntry field) := by
  refine ⟨rfl, ?_⟩
  rw [elementEntry_text]
  exact field.2.type.direct_text_eq_iff (elementSubject field)

namespace Model

variable {schema : Schema} {model : Model}

/-- **Two encoders.** The standard function that creates the rows of a child table has an argument
for every declared field: under the name of the field, to be left out where the field may be, and
sent as the endpoints of tables send a value of that type exactly if the type is no array of
enumerations. Its methods send these for all fields but the array of records; for the array a loop
over its elements has one entry for each field of their record, encoded as the endpoints encode the
type, again exactly if that is no array of enumerations. -/
theorem childCreate_encodings (h : Model.ofSchema schema = .ok model) {table : Table}
    (htable : table ∈ model.tables) {function : CustomFunction}
    (hfunction : function ∈ Standard.childCreate table) :
    ∃ array record, Standard.recordArray? table = some array ∧
      function.recordArray? = some array ∧ model.registry.record? array.record = some record ∧
      List.Forall₂ (fun field argument => argument.Carries field)
        table.declared function.arguments ∧
      ∀ module target method,
        function.method? (Surroundings.ofModule model module) target = some method →
        (∃ others, (⟨array.argument, ⟨array.dictionaries, .plain⟩⟩ :: others).Perm method.entries ∧
          List.Forall₂ (fun field => AgreesOn field.1 field)
            (table.otherFields array.argument) others) ∧
        ∃ required optional,
          .elements array.argument array.dictionaries required optional ∈ method.setup ∧
          OneEach (fun field => AgreesOn (elementSubject field) field)
            record.fields (elementEntries required optional) := by
  obtain ⟨array, harray, heq⟩ := Standard.mem_childCreate hfunction
  obtain ⟨-, entry, hentry, helement⟩ := Standard.recordArray?_spec harray
  obtain ⟨record, hrecord⟩ := exists_elementRecord h htable hentry helement
  refine ⟨array, record, harray, by rw [heq], hrecord, ?_, fun module target method hmethod => ?_⟩
  · rw [heq, Standard.mutation, List.forall₂_map_right_iff, List.forall₂_same]
    exact fun field _ => Standard.fieldArgument_carries field
  · obtain ⟨hloops, hentries⟩ := childCreate_method hfunction hmethod harray hrecord
    refine ⟨⟨_, hentries, ?_⟩, _, _, (hloops _ _ _ _).mpr ⟨rfl, rfl, rfl, rfl⟩, ?_⟩
    · rw [List.forall₂_map_right_iff, List.forall₂_same]
      exact fun field _ => Standard.fieldArgument_agreesOn field
    · exact .of_map (elementEntries_perm record) fun field _ => elementEntry_agreesOn field

/-- A child table with an array of parts and a level: both have arguments that carry them. -/
theorem childCreate_encodings_of_parts :
    let text : Validator := .node "string" [] none (.scalar .string)
    let part : Validator := .node "object" [] (some [("text", text)]) .object
    let parts : Validator := .node "array" [] none (.array part)
    let level : Validator := .node "enum" ["low", "high"] none .enumeration
    let rows : Validator := .node "object" [] (some [("parts", parts), ("level", level)]) .object
    let schema : Schema := { children := [("message", ⟨rows, none⟩)] }
    ∃ model table function, Model.ofSchema schema = .ok model ∧ table ∈ model.tables ∧
      function ∈ Standard.childCreate table ∧
      function.arguments.map (·.wireExpr) = ["parts", "level.rawValue"] ∧
      List.Forall₂ (fun field argument => argument.Carries field)
        table.declared function.arguments := by
  intro text part parts level rows schema
  let declared : Fields := [("parts", .required (.array (.recordRef "MessagePart") false)),
    ("level", .required (.enumRef "MessageLevel"))]
  let table : Table := ⟨"message", .child, TableKind.child.implicitFields ++ declared, declared, [],
    none⟩
  let model : Model := ⟨[table], ⟨[⟨"MessageLevel", ["high", "low"]⟩],
    [⟨"MessagePart", .nested, [("text", .required .string)]⟩]⟩⟩
  have hmodel : Model.ofSchema schema = .ok model := by
    dsimp only [schema, rows, level, parts, part, text, model, table, declared]
    rfl
  have htable : table ∈ model.tables := List.mem_singleton_self _
  let function : CustomFunction :=
    { Standard.mutation "create" [{ name := "parts", type := "[MessagePart]" },
        { name := "level", type := "MessageLevel", wireExpr? := some "level.rawValue" }] with
      recordArray? := some { argument := "parts", record := "MessagePart" } }
  have hfunction : function ∈ Standard.childCreate table := .head _
  obtain ⟨-, -, -, -, -, hcarried, -⟩ := childCreate_encodings hmodel htable hfunction
  exact ⟨model, table, function, hmodel, htable, hfunction, by rfl, hcarried⟩

/-- A child table with an array of parts and one of tags: the standard function sends the tags as
they are, where the endpoints of tables send their raw values. -/
theorem tags_not_mapped :
    let text : Validator := .node "string" [] none (.scalar .string)
    let part : Validator := .node "object" [] (some [("text", text)]) .object
    let parts : Validator := .node "array" [] none (.array part)
    let tag : Validator := .node "enum" ["new", "old"] none .enumeration
    let tags : Validator := .node "array" [] none (.array tag)
    let rows : Validator := .node "object" [] (some [("parts", parts), ("tags", tags)]) .object
    let schema : Schema := { children := [("message", ⟨rows, none⟩)] }
    ∃ model table function argument entry, Model.ofSchema schema = .ok model ∧
      table ∈ model.tables ∧ function ∈ Standard.childCreate table ∧
      ("tags", entry) ∈ table.declared ∧ argument ∈ function.arguments ∧ argument.name = "tags" ∧
      argument.wireExpr = "tags" ∧
      (WireValue.ofField "tags" entry.type).text = "tags.map(\\.rawValue)" := by
  intro text part parts tag tags rows schema
  exact ⟨_, _, _, _, _, by rfl, List.mem_singleton_self _, .head _, .tail _ (.head _),
    .tail _ (.head _), by rfl, by rfl, by rfl⟩

end Model

/-! ## One method for creation -/

/-- Where names are distinct, the items of a name are those that are known to have it. -/
theorem filter_eq_toList {α : Type} {nameOf : α → String} {items : List α} {name : String}
    (found : Option α) (hnodup : (items.map nameOf).Nodup)
    (h : ∀ item, item ∈ items ∧ nameOf item = name ↔ item ∈ found) :
    (items.filter fun item => nameOf item == name) = found.toList := by
  have hperm : (items.filter fun item => nameOf item == name).Perm found.toList := by
    refine (List.perm_ext_iff_of_nodup (hnodup.of_map.filter _) ?_).mpr fun item => ?_
    · cases found with
      | none => exact .nil
      | some item => exact List.nodup_singleton item
    · rw [List.mem_filter, beq_iff_eq, h, Option.mem_toList, Option.mem_def]
  cases found with
  | none => exact hperm.eq_nil
  | some item => exact List.perm_singleton.mp hperm

namespace Standard

variable {table : Table}

/-- Rows are created by a standard function where some field cannot be sent as it is and one is an
array of records. -/
theorem childCreate_eq_nil_iff : childCreate table = [] ↔
    allArgSafe table = true ∨ recordArray? table = none := by
  rw [childCreate]
  split
  · next hsafe harray => simp [hsafe, harray]
  · next hneither =>
    refine iff_of_true rfl (or_iff_not_imp_left.mpr fun hsafe => ?_)
    rw [Option.eq_none_iff_forall_ne_some]
    exact fun array harray => hneither array (eq_false_of_ne_true hsafe) harray

/-- At most one standard function creates rows. -/
theorem childCreate_eq_singleton {function : CustomFunction} (h : function ∈ childCreate table) :
    childCreate table = [function] := by
  rw [childCreate] at h ⊢
  split at h
  · rw [List.mem_singleton.mp h]
  · cases h

theorem name_of_mem_childCreate {function : CustomFunction} (h : function ∈ childCreate table) :
    function.name = "create" := by
  obtain ⟨array, -, rfl⟩ := mem_childCreate h
  rfl

theorem allArgSafe_eq_false : allArgSafe table = false ↔
    ∃ field ∈ table.declared, field.2.type.isArgSafe = false := by
  simp [allArgSafe]

theorem recordArray?_eq_none : recordArray? table = none ↔
    ∀ field ∈ table.declared, field.2.type.elementRecord? = none := by
  simp [recordArray?]

end Standard

namespace Module

variable {module : Module} {model : Model} {table : Table}

/-- Without a configuration, the function of a child table's module that creates rows is the
standard one of the table, unless the module is that of the organizations. -/
theorem candidates_create (htable : model.table? module.table = some table)
    (hkind : table.kind = .child)
    (horganization : module.exportsAll Standard.organizationExports = false) :
    module.candidates model {} "create" = Standard.childCreate table := by
  have hshared : ∀ function ∈ module.sharedFunctions, function.name ≠ "create" := by
    rw [sharedFunctions, horganization, if_neg Bool.false_ne_true]
    split <;> simp [Standard.editorFunctions, Standard.mutation, Standard.query]
  have hupload : ∀ function ∈ module.uploadFunctions, function.name ≠ "create" := by
    rw [uploadFunctions]
    split <;> simp [Standard.mutation]
  have hlist : ∀ function ∈ Standard.childList table, function.name ≠ "create" := by
    rw [Standard.childList]
    split <;> simp [Standard.query]
  have hstandard : module.standardFunctions model = (module.sharedFunctions ++
      module.uploadFunctions ++ Standard.childList table) ++ Standard.childCreate table := by
    rw [standardFunctions, childFunctions, htable]
    simp only [hkind, if_true, Standard.childFunctions, List.append_assoc]
  have hothers : ((module.sharedFunctions ++ module.uploadFunctions ++
      Standard.childList table).reverse.find? fun function =>
        function.name == "create") = none := by
    rw [List.find?_eq_none]
    simpa [or_imp, forall_and] using ⟨hlist, hupload, hshared⟩
  have hcreate : ((Standard.childCreate table).reverse.find? fun function =>
      function.name == "create").toList = Standard.childCreate table := by
    rw [Standard.childCreate]
    split <;> rfl
  rw [candidates, hstandard, List.reverse_append, List.find?_append, hothers, Option.or_none,
    hcreate]
  exact List.append_nil _

/-- The functions of such a module that create rows. -/
theorem mem_customFunctions_create (htable : model.table? module.table = some table)
    (hkind : table.kind = .child) (hexported : "create" ∈ module.exports)
    (horganization : module.exportsAll Standard.organizationExports = false)
    (function : CustomFunction) :
    function ∈ module.customFunctions model {} ∧ function.name = "create" ↔
      function ∈ Standard.childCreate table := by
  have hcandidates := candidates_create htable hkind horganization
  constructor
  · rintro ⟨hfunction, hname⟩
    obtain ⟨-, hfirst⟩ := (module.mem_customFunctions model {}).mp hfunction
    rw [hname, hcandidates] at hfirst
    cases hcreate : Standard.childCreate table with
    | nil =>
      rw [hcreate] at hfirst
      cases hfirst
    | cons base rest =>
      have hsingle := Standard.childCreate_eq_singleton (hcreate ▸ List.mem_cons_self)
      rw [hsingle, firstExtended, CustomFunction.extended_nil] at hfirst
      rw [← hcreate, hsingle, Option.some.inj hfirst]
      exact List.mem_singleton_self _
  · intro hfunction
    have hname := Standard.name_of_mem_childCreate hfunction
    refine ⟨(module.mem_customFunctions model {}).mpr ⟨hname ▸ hexported, ?_⟩, hname⟩
    rw [hname, hcandidates, Standard.childCreate_eq_singleton hfunction, firstExtended,
      CustomFunction.extended_nil]

end Module

section ChildModule

variable {model : Model} {module : Module} {table : Table}

/-- The endpoint that creates the rows of a child table is on offer where all fields can be sent as
they are. -/
theorem mem_crudMethods_create {around : Surroundings} (htable : around.table = some table)
    (hkind : table.kind = .child) (hexported : around.module.exportsName "create" = true)
    (method : Method) :
    method ∈ crudMethods around .full ∧ method.name = "create" ↔
      Standard.allArgSafe table = true ∧
        method = CrudFunction.create.method around table .full := by
  have hoffered (function : CrudFunction) : function ∈ CrudFunction.offered table .full ↔
      Standard.allArgSafe table = true ∧ function = .create := by
    have hchild : CrudFunction.offered table .full =
        if Standard.allArgSafe table = true then [.create] else [] := by
      simp only [CrudFunction.offered, hkind]
      rfl
    rw [hchild]
    split <;> simp [*]
  constructor
  · rintro ⟨hmethod, -⟩
    obtain ⟨served, function, hserved, hmem, -, rfl⟩ := mem_crudMethods.mp hmethod
    obtain rfl : table = served := Option.some.inj (htable.symm.trans hserved)
    obtain ⟨hsafe, rfl⟩ := (hoffered function).mp hmem
    exact ⟨hsafe, rfl⟩
  · rintro ⟨hsafe, rfl⟩
    have hmem := (hoffered .create).mpr ⟨hsafe, rfl⟩
    exact ⟨mem_crudMethods.mpr ⟨table, .create, htable, hmem, hexported, rfl⟩, rfl⟩

/-- The methods of a child table's module that create rows: that of the endpoint, or that of the
standard function. -/
theorem mem_moduleMethods_create
    (htable : (Surroundings.ofModule model module).table = some table)
    (hkind : table.kind = .child) (hexported : module.exportsName "create" = true)
    (horganization : module.exportsAll Standard.organizationExports = false) (method : Method) :
    let around := Surroundings.ofModule model module
    method ∈ moduleMethods model {} around .full ∧ method.name = "create" ↔
      (Standard.allArgSafe table = true ∧
        method = CrudFunction.create.method around table .full) ∨
      ∃ function ∈ Standard.childCreate table, function.method? around .full = some method := by
  intro around
  have hserved : around.table = some table := htable
  have hcrud := mem_crudMethods_create hserved hkind hexported
  have hcustom := Module.mem_customFunctions_create htable hkind
    (List.contains_iff_mem.mp hexported) horganization
  rw [moduleMethods_eq, List.mem_append, or_and_right, hcrud]
  refine or_congr_right ⟨?_, ?_⟩
  · rintro ⟨hmethod, hname⟩
    obtain ⟨function, hfunction, -, hmethod⟩ := mem_customMethods.mp hmethod
    rw [CustomFunction.method?_name hmethod] at hname
    exact ⟨function, (hcustom function).mp ⟨hfunction, hname⟩, hmethod⟩
  · rintro ⟨function, hfunction, hmethod⟩
    obtain ⟨hmem, hname⟩ := (hcustom function).mpr hfunction
    refine ⟨mem_customMethods.mpr ⟨function, hmem, fun hcovered => ?_, hmethod⟩, ?_⟩
    · obtain ⟨other, hother, hsame⟩ := List.mem_map.mp hcovered
      have hnil := Standard.childCreate_eq_nil_iff.mpr
        (.inl ((hcrud other).mp ⟨hother, hsame.trans hname⟩).1)
      rw [hnil] at hfunction
      cases hfunction
    · rw [CustomFunction.method?_name hmethod, hname]

/-- **One method for creation.** Without a configuration, the full client has for a module that
serves a child table, exports the creation of rows and is not that of the organizations: the method
of the endpoint alone where all declared fields can be sent as they are; the standard one alone,
which encodes an array element by element, where some cannot and some declared field is an array of
records; and no method that creates rows where some field cannot be sent as it is and none is an
array of records. -/
theorem moduleMethods_create
    (htable : (Surroundings.ofModule model module).table = some table)
    (hkind : table.kind = .child) (hexported : module.exportsName "create" = true)
    (horganization : module.exportsAll Standard.organizationExports = false) :
    let around := Surroundings.ofModule model module
    let creates := (moduleMethods model {} around .full).filter fun method =>
      method.name == "create"
    (Standard.allArgSafe table = true →
      creates = [CrudFunction.create.method around table .full]) ∧
    (∀ array, Standard.allArgSafe table = false → Standard.recordArray? table = some array →
      ∃ function method, Standard.childCreate table = [function] ∧
        function.recordArray? = some array ∧ function.method? around .full = some method ∧
        creates = [method]) ∧
    (creates = [] ↔ (∃ field ∈ table.declared, field.2.type.isArgSafe = false) ∧
      ∀ field ∈ table.declared, field.2.type.elementRecord? = none) := by
  intro around creates
  have hmem (method : Method) : method ∈ moduleMethods model {} around .full ∧
      method.name = "create" ↔
      (Standard.allArgSafe table = true ∧
        method = CrudFunction.create.method around table .full) ∨
      ∃ function ∈ Standard.childCreate table, function.method? around .full = some method :=
    mem_moduleMethods_create htable hkind hexported horganization method
  -- Methods have distinct names, so at most one of them creates rows.
  have hsafe (h : Standard.allArgSafe table = true) :
      creates = [CrudFunction.create.method around table .full] := by
    refine filter_eq_toList (some _) moduleMethods_names_nodup fun method => (hmem method).trans ?_
    rw [Standard.childCreate_eq_nil_iff.mpr (.inl h)]
    simp [h, eq_comm]
  have hunsafe (array : RecordArray) (h : Standard.allArgSafe table = false)
      (harray : Standard.recordArray? table = some array) :
      ∃ function method, Standard.childCreate table = [function] ∧
        function.recordArray? = some array ∧ function.method? around .full = some method ∧
        creates = [method] := by
    obtain ⟨function, hfunction, hrecordArray⟩ : ∃ function,
        Standard.childCreate table = [function] ∧ function.recordArray? = some array := by
      rw [Standard.childCreate, h, harray]
      exact ⟨_, rfl, rfl⟩
    obtain ⟨method, hmethod, -⟩ := function.exists_full_method around
    refine ⟨function, method, hfunction, hrecordArray, hmethod, ?_⟩
    refine filter_eq_toList (some _) moduleMethods_names_nodup fun other => (hmem other).trans ?_
    rw [hfunction]
    simp [h, hmethod]
  refine ⟨hsafe, hunsafe, ?_⟩
  rw [← Standard.allArgSafe_eq_false, ← Standard.recordArray?_eq_none]
  -- The endpoint asks for fields that are all safe, the standard function for an array of records:
  -- where there is neither, nothing creates rows.
  cases harray : Standard.recordArray? table with
  | some array =>
    refine iff_of_false (fun hnil => ?_) (by simp)
    cases h : Standard.allArgSafe table with
    | true => simp [hsafe h] at hnil
    | false =>
      obtain ⟨function, method, -, -, -, hcreates⟩ := hunsafe array h harray
      simp [hcreates] at hnil
  | none =>
    cases h : Standard.allArgSafe table with
    | true => simp [hsafe h]
    | false =>
      have hnone : creates = (none : Option Method).toList := by
        refine filter_eq_toList none moduleMethods_names_nodup fun method => (hmem method).trans ?_
        rw [Standard.childCreate_eq_nil_iff.mpr (.inr harray)]
        simp [h]
      exact iff_of_true hnone ⟨rfl, rfl⟩

end ChildModule

/-- Messages with an array of parts are created by one method, which encodes them part by part. -/
theorem moduleMethods_create_of_parts :
    let parts := FieldType.array (.recordRef "MessagePart") false
    let table : Table := ⟨"message", .child, [], [("parts", .required parts)], [], none⟩
    let model : Model := ⟨[table], ⟨[], [⟨"MessagePart", .nested, [("text", .required .string)]⟩]⟩⟩
    let module : Module := ⟨"message", ["create"], "message", some .child, []⟩
    let methods := moduleMethods model {} (Surroundings.ofModule model module) .full
    ∃ method, (methods.filter fun method => method.name == "create") = [method] ∧
      .elements "parts" "partDicts" [{ name := "text" }] [] ∈ method.setup := by
  intro parts table model module methods
  have htable : (Surroundings.ofModule model module).table = some table := by rfl
  obtain ⟨-, hunsafe, -⟩ :=
    moduleMethods_create htable (by rfl) (by rfl) (by decide)
  obtain ⟨function, method, hfunction, -, hmethod, hcreates⟩ := hunsafe _ (by rfl) (by rfl)
  refine ⟨method, hcreates, ?_⟩
  obtain rfl := (List.cons.inj hfunction).1
  obtain rfl := Option.some.inj hmethod
  exact .head _

/-- Messages with a nested record, which is no safe argument, and without an array of records: the
module exports their creation, and the client has no method for it. -/
theorem create_missing :
    let label : Validator := .node "string" [] none (.scalar .string)
    let details : Validator := .node "object" [] (some [("label", label)]) .object
    let rows : Validator := .node "object" [] (some [("meta", details)]) .object
    let schema : Schema := { children := [("message", ⟨rows, none⟩)] }
    let module : Module := ⟨"message", ["create"], "message", some .child, []⟩
    ∃ model table, Model.ofSchema schema = .ok model ∧
      (Surroundings.ofModule model module).table = some table ∧ table.kind = .child ∧
      table.declared.names = ["meta"] ∧ module.exportsName "create" = true ∧
      module.exportsAll Standard.organizationExports = false ∧
      moduleMethods model {} (Surroundings.ofModule model module) .full = [] := by
  intro label details rows schema module
  exact ⟨_, _, by rfl, by rfl, by rfl, by rfl, by rfl, by decide, by decide⟩

end ClientBindings
