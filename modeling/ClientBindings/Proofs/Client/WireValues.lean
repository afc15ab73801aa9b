import ClientBindings.Proofs.Client.References

/-!
# Values on the wire

What the methods that write rows send for the values of declared fields.

* `Encodes`: an expression that sends a value of a type in a form that the backend reads. The value
  of a field has one exactly if its type counts as a safe argument (`encodes_ofField`). Arguments of
  custom functions and fields of elements are sent by an expression that tells enumerations apart,
  but not arrays of them: it encodes the direct types (`Encodes.of_isDirect`).
* `Method.Sends`: the entries of a method's dictionaries are those of given fields, one each, and
  each entry encodes its field: by an expression, or as the dictionaries of a loop over its
  elements, whose entries encode the fields of the element's record.
* `CrudFunction.sends_iff`, `childCreate_sends_iff`: which methods send their fields encoded.
* `Model.writes_encoded`: both for the tables of a harvested model. The endpoints of tables ask for
  safe arguments only where they create rows of a child table; elsewhere a record goes out as it is.
-/

namespace ClientBindings

/-! ## Encodings -/

/-- The expression sends the value of the type that `subject` stands for: scalars and arrays of
them as they are, enumerations and arrays of them by their raw values. -/
inductive Encodes (subject : String) : FieldType → String → Prop
  | scalar (scalar : Scalar) : Encodes subject (.scalar scalar) subject
  | rawValue (name : String) : Encodes subject (.enumRef name) (subject ++ ".rawValue")
  | scalars (scalar : Scalar) : Encodes subject (.array (.scalar scalar) false) subject
  | rawValues (name : String) :
      Encodes subject (.array (.enumRef name) false) (subject ++ ".map(\\.rawValue)")

/-- Whether a value of the type can be sent where arrays of enumerations are not mapped to raw
values: scalars, enumerations, and arrays of scalars. -/
def FieldType.isDirect : FieldType → Bool
  | .scalar _ => true
  | .enumRef _ => true
  | .array (.scalar _) false => true
  | _ => false

section Encodes

variable {subject text : String} {type : FieldType}

theorem Encodes.isArgSafe (h : Encodes subject type text) : type.isArgSafe = true := by
  cases h <;> rfl

/-- The value of a field is encoded exactly if its type is a safe argument. -/
theorem encodes_ofField :
    Encodes subject type (WireValue.ofField subject type).text ↔ type.isArgSafe = true := by
  refine ⟨Encodes.isArgSafe, fun h => ?_⟩
  cases type with
  | scalar s => exact .scalar s
  | enumRef name => exact .rawValue name
  | recordRef => cases h
  | unionRef => cases h
  | array element isOptional =>
    cases isOptional with
    | true => simp [FieldType.isArgSafe] at h
    | false =>
      cases element with
      | scalar s => exact .scalars s
      | enumRef name => exact .rawValues name
      | _ => cases h

/-- An expression that tells only enumerations apart encodes the direct types. -/
theorem Encodes.of_isDirect (subject : String) (h : type.isDirect = true) :
    Encodes subject type
      (if type.enumName?.isSome then subject ++ ".rawValue" else subject) := by
  cases type with
  | scalar s => exact .scalar s
  | enumRef name => exact .rawValue name
  | recordRef => cases h
  | unionRef => cases h
  | array element isOptional =>
    cases isOptional with
    | true => simp [FieldType.isDirect] at h
    | false =>
      cases element with
      | scalar s => exact .scalars s
      | _ => cases h

/-- An expression too short to map an array to raw values encodes direct types only. -/
theorem Encodes.isDirect (h : Encodes subject type text)
    (hshort : text.length < subject.length + 16) : type.isDirect = true := by
  cases h with
  | scalar => rfl
  | rawValue => rfl
  | scalars => rfl
  | rawValues =>
    have hlength : ".map(\\.rawValue)".length = 16 := by decide
    rw [String.length_append, hlength] at hshort
    exact absurd hshort (lt_irrefl _)

end Encodes

/-! ## What a method sends -/

/-- The entries that a statement puts into the arguments. -/
def Statement.entries : Statement → List DictEntry
  | .dictionary _ _ entries => entries
  | .copy _ _ entry => [entry]
  | .cursor => []
  | .elements _ _ _ _ => []

/-- The entries that the payload itself holds. -/
def Payload.entries : Payload → List DictEntry
  | .literal entries => entries
  | .variable _ => []
  | .listArgs _ => []

/-- The entries that a method puts into its arguments. -/
def Method.entries (method : Method) : List DictEntry :=
  method.setup.flatMap Statement.entries ++ method.payload.entries

/-- The entries of the dictionary of one element. -/
def elementEntries (required optional : List ElementField) : List DictEntry :=
  (required.map fun field => ⟨field.name, Statement.elementValue ("p." ++ field.name) field⟩) ++
    optional.map fun field => ⟨field.name, Statement.elementValue field.name field⟩

/-- The entries are those of the items, one each, in some order. -/
def OneEach {α β : Type} (sends : α → β → Prop) (items : List α) (entries : List β) : Prop :=
  ∃ sent : List β, sent.Perm entries ∧ List.Forall₂ sends items sent

/-- What stands for a field of an element in the loop over the elements: the name that an
optional one is bound to. -/
def elementSubject (field : String × FieldEntry) : String :=
  if field.2.isOptional then field.1 else "p." ++ field.1

/-- The entry encodes a field of an element. -/
def EncodesElement (field : String × FieldEntry) (entry : DictEntry) : Prop :=
  entry.key = field.1 ∧ Encodes (elementSubject field) field.2.type entry.value.text

/-- The entry encodes the value of a field, past the given statements. -/
inductive SendsField (r : Registry) (setup : List Statement) : String × FieldType → DictEntry → Prop
  | value {name : String} {type : FieldType} {value : WireValue}
      (h : Encodes name type value.text) : SendsField r setup (name, type) ⟨name, value⟩
  /-- The dictionaries that a loop makes of the elements, with an entry for each field. -/
  | elements {name dictionaries : String} {type : FieldType} {record : RecordDef}
      {required optional : List ElementField} (htype : type.elementRecord? = some record.name)
      (hrecord : r.record? record.name = some record)
      (hloop : .elements name dictionaries required optional ∈ setup)
      (hfields : OneEach EncodesElement record.fields (elementEntries required optional)) :
      SendsField r setup (name, type) ⟨name, ⟨dictionaries, .plain⟩⟩

/-- The entries of the method are those of the fields, one each, and each encodes its field. -/
def Method.Sends (method : Method) (r : Registry) (fields : Entries FieldType) : Prop :=
  OneEach (SendsField r method.setup) fields method.entries

section OneEach

variable {α β : Type} {sends : α → β → Prop} {items : List α} {entries : List β}

theorem OneEach.of_map {f : α → β} (hperm : (items.map f).Perm entries)
    (h : ∀ item ∈ items, sends item (f item)) : OneEach sends items entries :=
  ⟨items.map f, hperm, by rwa [List.forall₂_map_right_iff, List.forall₂_same]⟩

theorem OneEach.exists_entry (h : OneEach sends items entries) {item : α} (hitem : item ∈ items) :
    ∃ entry ∈ entries, sends item entry := by
  obtain ⟨sent, hperm, hsends⟩ := h
  have hfound : ∃ entry ∈ sent, sends item entry := by
    clear hperm
    induction hsends with
    | nil => cases hitem
    | cons hfirst _ ih =>
      rcases List.mem_cons.mp hitem with rfl | hitem
      · exact ⟨_, List.mem_cons_self, hfirst⟩
      · obtain ⟨entry, hentry, hsends⟩ := ih hitem
        exact ⟨entry, List.mem_cons_of_mem _ hentry, hsends⟩
  obtain ⟨entry, hentry, hsends⟩ := hfound
  exact ⟨entry, hperm.mem_iff.mp hentry, hsends⟩

end OneEach

/-- The elements with and without a property, one after the other. -/
theorem filter_not_append_perm {α : Type} (p : α → Bool) (l : List α) :
    (l.filter (fun a => !p a) ++ l.filter p).Perm l :=
  List.perm_append_comm.trans (List.filter_append_perm p l)

/-! ## Endpoints -/

/-- The declared fields by their types. -/
def Table.declaredTypes (table : Table) : Entries FieldType :=
  table.declared.map fun field => (field.1, field.2.type)

/-- The organization's id as a value that is sent, where endpoints take it. -/
def Surroundings.scopeFields (around : Surroundings) : Entries FieldType :=
  if around.isOrgScoped then [("orgId", .string)] else []

/-- The entries for fields. -/
def fieldEntries (fields : Entries FieldType) : List DictEntry :=
  fields.map fun field => fieldEntry field.1 field.2

theorem Surroundings.scopeEntries_eq (around : Surroundings) :
    around.scopeEntries = fieldEntries around.scopeFields := by
  rw [scopeEntries, scopeFields]
  split <;> rfl

theorem Surroundings.scopeFields_isArgSafe (around : Surroundings) :
    ∀ field ∈ around.scopeFields, field.2.isArgSafe = true := by
  intro field hfield
  rw [scopeFields] at hfield
  split at hfield
  · rw [List.mem_singleton.mp hfield]
    rfl
  · cases hfield

/-- Copies of fields put in one entry each. -/
theorem flatMap_fieldCopy (fields : Fields) :
    (fields.map fun field => fieldCopy field.1 field.2.type).flatMap Statement.entries =
      fields.map fun field => fieldEntry field.1 field.2.type := by
  rw [List.flatMap_map, List.map_eq_flatMap]
  rfl

/-- A method without loops that has an entry for each field sends them exactly if all of their types
are safe arguments. -/
theorem Method.sends_iff {method : Method} {fields : Entries FieldType} (r : Registry)
    (hentries : (fieldEntries fields).Perm method.entries)
    (hloop : ∀ array dictionaries required optional,
      .elements array dictionaries required optional ∉ method.setup) :
    method.Sends r fields ↔ ∀ field ∈ fields, field.2.isArgSafe = true := by
  constructor
  · intro h field hfield
    obtain ⟨entry, -, hsends⟩ := h.exists_entry hfield
    cases hsends with
    | value hvalue => exact hvalue.isArgSafe
    | elements _ _ hmem => exact absurd hmem (hloop _ _ _ _)
  · intro h
    refine .of_map hentries fun field hfield => ?_
    exact .value (encodes_ofField.mpr (h field hfield))

/-- A field whose type is no safe argument is sent as it is. -/
theorem fieldEntry_of_not_isArgSafe {type : FieldType} (name : String)
    (h : type.isArgSafe = false) : fieldEntry name type = .same name := by
  cases type with
  | array element isOptional =>
    cases isOptional with
    | true => cases element <;> rfl
    | false =>
      cases element with
      | scalar => cases h
      | enumRef => cases h
      | _ => rfl
  | scalar => cases h
  | enumRef => cases h
  | recordRef => rfl
  | unionRef => rfl

namespace CrudFunction

/-- Whether the endpoint writes the fields of a row. -/
def isWrite : CrudFunction → Bool
  | create => true
  | update => true
  | upsert => true
  | _ => false

/-- The values that an endpoint which writes rows sends: its own ones, and the declared fields. -/
def sources (function : CrudFunction) (around : Surroundings) (table : Table) :
    Entries FieldType :=
  match function with
  | .create => around.scopeFields ++ table.declaredTypes
  | .update =>
    ("id", .string) :: around.scopeFields ++ table.declaredTypes ++ [(updateGuard, .number)]
  | .upsert => table.declaredTypes
  | _ => []

variable {function : CrudFunction} {around : Surroundings} {table : Table} {target : Target}

theorem create_entries : (create.method around table target).entries =
    around.scopeEntries ++ ((table.declared.filter fun field => !field.2.isOptional) ++
      table.declared.filter fun field => field.2.isOptional).map
        fun field => fieldEntry field.1 field.2.type := by
  simp only [method, Method.entries, Payload.entries, List.partition_eq_filter_filter,
    List.flatMap_cons, Statement.entries, flatMap_fieldCopy, List.append_nil, List.map_append,
    List.append_assoc]
  rfl

theorem update_entries : (update.method around table target).entries =
    .same "id" :: around.scopeEntries ++ fieldEntries table.declaredTypes ++
      [fieldEntry updateGuard .number] := by
  simp only [method, Method.entries, Payload.entries, List.flatMap_cons, List.flatMap_append,
    Statement.entries, flatMap_fieldCopy, List.append_nil, fieldEntries, Table.declaredTypes,
    List.map_map, List.append_assoc]
  rfl

theorem upsert_entries : (upsert.method around table target).entries =
    fieldEntries table.declaredTypes := by
  simp only [method, Method.entries, Payload.entries, List.flatMap_cons, Statement.entries,
    flatMap_fieldCopy, List.append_nil, fieldEntries, Table.declaredTypes, List.map_map]
  rfl

/-- An endpoint that writes rows has one entry for each value. -/
theorem entries_perm (h : function.isWrite = true) :
    (fieldEntries (function.sources around table)).Perm
      (function.method around table target).entries := by
  cases function with
  | create =>
    rw [create_entries, around.scopeEntries_eq, sources, fieldEntries, List.map_append]
    refine List.Perm.append_left _ ?_
    rw [Table.declaredTypes, List.map_map]
    exact (filter_not_append_perm _ _).symm.map _
  | update =>
    rw [update_entries, around.scopeEntries_eq, sources, fieldEntries, List.map_append,
      List.map_append]
    exact .refl _
  | upsert =>
    rw [upsert_entries]
    exact .refl _
  | _ => cases h

theorem no_elements (h : function.isWrite = true) (array dictionaries : String)
    (required optional : List ElementField) :
    .elements array dictionaries required optional ∉
      (function.method around table target).setup := by
  cases function with
  | create | update | upsert => simp [method, fieldCopy]
  | _ => cases h

/-- The values of its own that an endpoint sends can always be sent as they are. -/
theorem sources_isArgSafe (h : function.isWrite = true) :
    (∀ field ∈ function.sources around table, field.2.isArgSafe = true) ↔
      ∀ field ∈ table.declared, field.2.type.isArgSafe = true := by
  have hscope := around.scopeFields_isArgSafe
  have hdeclared : (∀ field ∈ table.declaredTypes, field.2.isArgSafe = true) ↔
      ∀ field ∈ table.declared, field.2.type.isArgSafe = true := by
    rw [Table.declaredTypes, List.forall_mem_map]
  cases function with
  | create =>
    rw [sources, List.forall_mem_append, hdeclared]
    exact and_iff_right hscope
  | update =>
    simp only [sources, List.forall_mem_append, List.forall_mem_cons, hdeclared]
    exact ⟨fun h => h.1.2, fun h => ⟨⟨⟨rfl, hscope⟩, h⟩, rfl, by simp⟩⟩
  | upsert => exact hdeclared
  | _ => cases h

theorem method_name (function : CrudFunction) :
    (function.method around table target).name = function.name := by
  cases function <;> rfl

theorem isWrite_of_name (h : function.name ∈ ["create", "update", "upsert"]) :
    function.isWrite = true := by
  cases function with
  | create | update | upsert => rfl
  | _ => exact absurd h (by decide)

/-- An endpoint that writes rows sends its values exactly if all declared types are safe. -/
theorem sends_iff (h : function.isWrite = true) (r : Registry) :
    (function.method around table target).Sends r (function.sources around table) ↔
      ∀ field ∈ table.declared, field.2.type.isArgSafe = true :=
  (Method.sends_iff r (entries_perm h) (no_elements h)).trans (sources_isArgSafe h)

theorem declared_mem_sources (h : function.isWrite = true) {field : String × FieldEntry}
    (hfield : field ∈ table.declared) :
    (field.1, field.2.type) ∈ function.sources around table := by
  have hdeclared : (field.1, field.2.type) ∈ table.declaredTypes := List.mem_map_of_mem hfield
  cases function with
  | create => exact List.mem_append_right _ hdeclared
  | update => exact List.mem_append_left _ (List.mem_append_right _ hdeclared)
  | upsert => exact hdeclared
  | _ => cases h

theorem same_mem_entries (h : function.isWrite = true) {field : String × FieldEntry}
    (hfield : field ∈ table.declared) (hplain : field.2.type.isArgSafe = false) :
    .same field.1 ∈ (function.method around table target).entries := by
  rw [← fieldEntry_of_not_isArgSafe field.1 hplain]
  exact (entries_perm h).mem_iff.mp (List.mem_map_of_mem (declared_mem_sources h hfield))

end CrudFunction

/-! ## Rows of child tables -/

/-- Arguments put in one dictionary have one entry each, past the leading ones. -/
theorem plainPayload_entries (leading : List DictEntry) (arguments : List Argument) :
    (leading ++ arguments.map Argument.entry).Perm
      ((plainPayload leading arguments).1.flatMap Statement.entries ++
        (plainPayload leading arguments).2.entries) := by
  rw [plainPayload]
  split
  · have hcopies : (optionalCopies "args" arguments).flatMap Statement.entries =
        (arguments.filter Argument.isOptional).map Argument.entry := by
      rw [optionalCopies, List.flatMap_map, List.map_eq_flatMap]
      rfl
    simp only [List.flatMap_cons, Statement.entries, hcopies, Payload.entries, List.append_nil,
      List.append_assoc, requiredEntries]
    rw [← List.map_append]
    exact List.Perm.append_left _ ((filter_not_append_perm _ _).symm.map _)
  · next hnone =>
    have hall : arguments.filter (fun argument => !argument.isOptional) = arguments := by
      refine List.filter_eq_self.mpr fun argument hargument => ?_
      simp only [List.any_eq_true, not_exists, not_and] at hnone
      simpa using hnone argument hargument
    simp [Payload.entries, requiredEntries, hall]

/-- The entry for a field of an element. -/
def elementEntry (field : String × FieldEntry) : DictEntry :=
  ⟨field.1, ⟨elementSubject field, if field.2.type.enumName?.isSome then .rawValue else .plain⟩⟩

/-- The loop over the elements has one entry for each field of their record. -/
theorem elementEntries_perm (record : RecordDef) :
    (record.fields.map elementEntry).Perm
      (elementEntries (record.elementFields.filter fun field => !field.isOptional)
        (record.elementFields.filter ElementField.isOptional)) := by
  have hrequired : (record.elementFields.filter fun field => !field.isOptional).map
      (fun field => (⟨field.name, Statement.elementValue ("p." ++ field.name) field⟩ : DictEntry)) =
        (record.fields.filter fun field => !field.2.isOptional).map elementEntry := by
    rw [RecordDef.elementFields, List.filter_map, List.map_map]
    refine List.map_congr_left fun field hfield => ?_
    have hpresent : field.2.isOptional = false := by simpa using (List.mem_filter.mp hfield).2
    simp [elementEntry, elementSubject, Statement.elementValue, hpresent]
  have hoptional : (record.elementFields.filter ElementField.isOptional).map
      (fun field => (⟨field.name, Statement.elementValue field.name field⟩ : DictEntry)) =
        (record.fields.filter fun field => field.2.isOptional).map elementEntry := by
    rw [RecordDef.elementFields, List.filter_map, List.map_map]
    refine List.map_congr_left fun field hfield => ?_
    have habsent : field.2.isOptional = true := by simpa using (List.mem_filter.mp hfield).2
    simp [elementEntry, elementSubject, Statement.elementValue, habsent]
  rw [elementEntries, hrequired, hoptional, ← List.map_append]
  exact (filter_not_append_perm _ _).symm.map _

theorem elementEntry_text (field : String × FieldEntry) : (elementEntry field).value.text =
    if field.2.type.enumName?.isSome then elementSubject field ++ ".rawValue"
    else elementSubject field := by
  by_cases h : field.2.type.enumName?.isSome = true <;> simp [elementEntry, WireValue.text, h]

theorem elementEntry_short (field : String × FieldEntry) :
    (elementEntry field).value.text.length < field.1.length + 16 := by
  have hsubject : (elementSubject field).length ≤ field.1.length + 2 := by
    rw [elementSubject]
    split
    · omega
    · rw [String.length_append, show "p.".length = 2 from rfl]
      omega
  rw [elementEntry_text]
  split
  · rw [String.length_append, show ".rawValue".length = 9 from rfl]
    omega
  · omega

/-- The entries of a loop encode the fields exactly if all of their types are direct. -/
theorem elements_iff (record : RecordDef) :
    OneEach EncodesElement record.fields
        (elementEntries (record.elementFields.filter fun field => !field.isOptional)
          (record.elementFields.filter ElementField.isOptional)) ↔
      ∀ field ∈ record.fields, field.2.type.isDirect = true := by
  have hperm := elementEntries_perm record
  constructor
  · intro h field hfield
    obtain ⟨entry, hentry, hkey, hencodes⟩ := h.exists_entry hfield
    obtain ⟨other, -, rfl⟩ := List.mem_map.mp (hperm.mem_iff.mpr hentry)
    refine hencodes.isDirect (lt_of_lt_of_le (elementEntry_short other) ?_)
    have hname : other.1 = field.1 := hkey
    rw [hname, elementSubject]
    split
    · exact le_refl _
    · rw [String.length_append]
      omega
  · intro h
    refine .of_map hperm fun field hfield => ⟨rfl, ?_⟩
    rw [elementEntry_text]
    exact .of_isDirect _ (h field hfield)

theorem plainPayload_no_elements (leading : List DictEntry) (arguments : List Argument)
    (array dictionaries : String) (required optional : List ElementField) :
    .elements array dictionaries required optional ∉ (plainPayload leading arguments).1 := by
  rw [plainPayload]
  split <;> simp [optionalCopies]

/-- An array of records is no safe argument. -/
theorem isArgSafe_of_elementRecord? {type : FieldType} {record : String}
    (h : type.elementRecord? = some record) : type.isArgSafe = false := by
  cases type with
  | array element isOptional =>
    cases element with
    | recordRef => exact Bool.and_false _
    | unionRef => exact Bool.and_false _
    | _ => cases h
  | _ => cases h

namespace Standard

/-- The array that a row of a child table is created with is its first declared array of records. -/
theorem recordArray?_spec {table : Table} {array : RecordArray}
    (h : recordArray? table = some array) : array.fields? = none ∧
      ∃ entry, (array.argument, entry) ∈ table.declared ∧
        entry.type.elementRecord? = some array.record := by
  obtain ⟨⟨name, entry⟩, hmem, harray⟩ := List.exists_of_findSome?_eq_some h
  obtain ⟨record, hrecord, rfl⟩ := Option.map_eq_some_iff.mp harray
  exact ⟨rfl, entry, hmem, hrecord⟩

theorem mem_childCreate {table : Table} {function : CustomFunction}
    (h : function ∈ childCreate table) : ∃ array, recordArray? table = some array ∧
      function = { mutation "create" (table.declared.map fun field =>
        fieldArgument field.1 field.2) with recordArray? := some array } := by
  rw [childCreate] at h
  split at h
  · next array _ harray =>
    exact ⟨array, harray, List.mem_singleton.mp h⟩
  · cases h

theorem fieldArgument_text (name : String) (entry : FieldEntry) :
    (fieldArgument name entry).entry.value.text =
      if entry.type.enumName?.isSome then name ++ ".rawValue" else name := by
  cases htype : entry.type.enumName? <;>
    simp [fieldArgument, Argument.entry, Argument.wireExpr, WireValue.text, htype]

theorem fieldArgument_short (name : String) (entry : FieldEntry) :
    (fieldArgument name entry).entry.value.text.length < name.length + 16 := by
  rw [fieldArgument_text]
  split
  · rw [String.length_append, show ".rawValue".length = 9 from rfl]
    omega
  · omega

end Standard

/-- The declared fields but those of the given name. -/
def Table.otherFields (table : Table) (name : String) : Fields :=
  table.declared.filter fun field => field.1 != name

/-- The dictionaries that a loop over the array makes. -/
def RecordArray.dictionaries (array : RecordArray) : String :=
  Text.dropEnding "s" array.argument ++ "Dicts"

/-- The dictionaries of an array have a name of their own. -/
theorem RecordArray.dictionaries_ne (array : RecordArray) :
    array.dictionaries ≠ array.argument := by
  intro h
  have hlength := congrArg String.length h
  have hdropped : array.argument.length ≤ (Text.dropEnding "s" array.argument).length + 1 := by
    rw [Text.dropEnding, Text.withoutEnd?]
    split
    · next heq =>
      split at heq
      · cases heq
        rw [String.length_ofList, List.length_take, String.length_toList,
          show "s".toList.length = 1 from rfl]
        omega
      · cases heq
    · omega
  rw [dictionaries, String.length_append, show "Dicts".length = 5 from rfl] at hlength
  omega

section ChildCreate

variable {table : Table} {function : CustomFunction} {around : Surroundings} {target : Target}
  {method : Method} {array : RecordArray} {record : RecordDef}

theorem method?_arrange (h : function.method? around target = some method) :
    (method.setup, method.payload) = function.arrange around.registry := by
  rw [CustomFunction.method?] at h
  split at h
  · cases h
  · cases h
    rfl

/-- The arguments with an array of records: the loop over its elements, then the others. -/
theorem recordArrayPayload_eq {registry : Registry} {arguments : List Argument}
    (hfields : array.fields registry = record.elementFields) :
    recordArrayPayload registry array arguments =
      let (setup, payload) := plainPayload [⟨array.argument, ⟨array.dictionaries, .plain⟩⟩]
        (arguments.filter fun argument => argument.name != array.argument)
      (.elements array.argument array.dictionaries
        (record.elementFields.filter fun field => !field.isOptional)
        (record.elementFields.filter ElementField.isOptional) :: setup, payload) := by
  simp only [recordArrayPayload, hfields, List.partition_eq_filter_filter]
  rfl

/-- The method that creates rows of a child table loops over the elements of its array, sends the
dictionaries that the loop makes, and has an entry for every other field. -/
theorem childCreate_method (hfunction : function ∈ Standard.childCreate table)
    (hmethod : function.method? around target = some method)
    (harray : Standard.recordArray? table = some array)
    (hrecord : around.registry.record? array.record = some record) :
    (∀ name dictionaries required optional,
      .elements name dictionaries required optional ∈ method.setup ↔
        name = array.argument ∧ dictionaries = array.dictionaries ∧
          required = record.elementFields.filter (fun field => !field.isOptional) ∧
          optional = record.elementFields.filter ElementField.isOptional) ∧
    (⟨array.argument, ⟨array.dictionaries, .plain⟩⟩ ::
      (table.otherFields array.argument).map fun field =>
        (Standard.fieldArgument field.1 field.2).entry).Perm method.entries := by
  obtain ⟨array', harray', rfl⟩ := Standard.mem_childCreate hfunction
  obtain rfl : array = array' := Option.some.inj (harray.symm.trans harray')
  have hfields : array.fields around.registry = record.elementFields := by
    rw [RecordArray.fields, (Standard.recordArray?_spec harray).1, hrecord]
    rfl
  have hothers : ((table.declared.map fun field => Standard.fieldArgument field.1 field.2).filter
      fun argument => argument.name != array.argument) =
        (table.otherFields array.argument).map fun field =>
          Standard.fieldArgument field.1 field.2 := by
    rw [List.filter_map, Table.otherFields]
    rfl
  have harrange := method?_arrange hmethod
  simp only [CustomFunction.arrange, Standard.mutation, recordArrayPayload_eq hfields, hothers,
    Bool.false_eq_true, if_false, Prod.mk.injEq] at harrange
  obtain ⟨hsetup, hpayload⟩ := harrange
  constructor
  · intro name dictionaries required optional
    rw [hsetup, List.mem_cons, Statement.elements.injEq]
    exact or_iff_left (plainPayload_no_elements _ _ _ _ _ _)
  · rw [Method.entries, hsetup, hpayload, List.flatMap_cons]
    have hentries := plainPayload_entries [⟨array.argument, ⟨array.dictionaries, .plain⟩⟩]
      ((table.otherFields array.argument).map fun field => Standard.fieldArgument field.1 field.2)
    rwa [List.map_map] at hentries

/-- The method that creates rows of a child table sends its fields exactly if the other fields and
those of the elements' record have direct types. -/
theorem childCreate_sends_iff (hfunction : function ∈ Standard.childCreate table)
    (hmethod : function.method? around target = some method)
    (harray : Standard.recordArray? table = some array)
    (hrecord : around.registry.record? array.record = some record) {type : FieldType}
    (htype : type.elementRecord? = some array.record) :
    method.Sends around.registry ((array.argument, type) ::
        (table.otherFields array.argument).map fun field => (field.1, field.2.type)) ↔
      (∀ field ∈ table.otherFields array.argument, field.2.type.isDirect = true) ∧
        ∀ field ∈ record.fields, field.2.type.isDirect = true := by
  obtain ⟨hloops, hentries⟩ := childCreate_method hfunction hmethod harray hrecord
  have hname : record.name = array.record := by simpa using List.find?_some hrecord
  constructor
  · intro h
    constructor
    · intro field hfield
      have hne : field.1 ≠ array.argument := by simpa using (List.mem_filter.mp hfield).2
      obtain ⟨entry, hentry, hsends⟩ :=
        h.exists_entry (List.mem_cons_of_mem _ (List.mem_map_of_mem hfield))
      cases hsends with
      | value hvalue =>
        -- The entry of the array has another key, so this is the one of another field.
        rcases List.mem_cons.mp (hentries.mem_iff.mpr hentry) with hdictionaries | hother
        · exact absurd (congrArg DictEntry.key hdictionaries) hne
        · obtain ⟨other, -, heq⟩ := List.mem_map.mp hother
          have hshort := Standard.fieldArgument_short other.1 other.2
          rw [heq] at hshort
          have hkey : other.1 = field.1 := congrArg DictEntry.key heq
          rw [hkey] at hshort
          exact hvalue.isDirect hshort
      | elements _ _ hmem _ => exact absurd ((hloops _ _ _ _).mp hmem).1 hne
    · obtain ⟨entry, -, hsends⟩ := h.exists_entry List.mem_cons_self
      cases hsends with
      | value hvalue =>
        -- No array of records is safe as it is: this one goes through the loop.
        have hsafe := hvalue.isArgSafe
        rw [isArgSafe_of_elementRecord? htype] at hsafe
        cases hsafe
      | @elements _ _ _ other _ _ hother hfound hmem helements =>
        obtain ⟨-, -, rfl, rfl⟩ := (hloops _ _ _ _).mp hmem
        obtain hsame : array.record = other.name := Option.some.inj (htype.symm.trans hother)
        obtain rfl : record = other := by
          rw [← hsame, hrecord] at hfound
          exact Option.some.inj hfound
        exact (elements_iff record).mp helements
  · rintro ⟨hothers, helements⟩
    refine ⟨_, hentries, .cons ?_ ?_⟩
    · have hloop := (hloops _ _ _ _).mpr ⟨rfl, rfl, rfl, rfl⟩
      rw [← hname] at htype hrecord
      exact .elements htype hrecord hloop ((elements_iff record).mpr helements)
    · rw [List.forall₂_map_left_iff, List.forall₂_map_right_iff, List.forall₂_same]
      intro field hfield
      have hencodes := Encodes.of_isDirect field.1 (hothers field hfield)
      rw [← Standard.fieldArgument_text] at hencodes
      exact .value hencodes

/-- The method that creates rows of a child table never sends its array as it is. -/
theorem childCreate_same_not_mem (hfunction : function ∈ Standard.childCreate table)
    (hmethod : function.method? around target = some method)
    (harray : Standard.recordArray? table = some array)
    (hrecord : around.registry.record? array.record = some record) :
    .same array.argument ∉ method.entries := by
  intro hsame
  have hentries := (childCreate_method hfunction hmethod harray hrecord).2
  rcases List.mem_cons.mp (hentries.mem_iff.mpr hsame) with hdictionaries | hother
  · have hsubject := congrArg (·.value.subject) hdictionaries
    exact array.dictionaries_ne hsubject.symm
  · obtain ⟨field, hfield, heq⟩ := List.mem_map.mp hother
    have hne : field.1 ≠ array.argument := by simpa using (List.mem_filter.mp hfield).2
    exact hne (congrArg DictEntry.key heq)

end ChildCreate

/-! ## Harvested tables -/

theorem record?_of_elementRecord? {type : FieldType} {record : String}
    (h : type.elementRecord? = some record) : type.record? = some record := by
  cases type with
  | array element isOptional =>
    cases element with
    | recordRef => exact h
    | unionRef => exact h
    | _ => cases h
  | _ => cases h

namespace Model

variable {schema : Schema} {model : Model}

/-- The record of a declared array of records is registered. -/
theorem exists_elementRecord (h : Model.ofSchema schema = .ok model) {table : Table}
    (htable : table ∈ model.tables) {field : String × FieldEntry} (hfield : field ∈ table.declared)
    {name : String} (hname : field.2.type.elementRecord? = some name) :
    ∃ record, model.registry.record? name = some record := by
  obtain ⟨record, hmem, hrecord⟩ :=
    (declared_known h htable hfield).record (record?_of_elementRecord? hname)
  exact ⟨record, (Model.distinct h).record?_eq_some.mpr
    ⟨Registry.record_mem_definitions.mp hmem, hrecord⟩⟩

/-- **Values on the wire.** A method that creates, updates or upserts rows of a table sends every
declared field encoded exactly if all of their types are safe arguments; a field of any other type
it sends as it is. The standard method that creates rows of a child table with an array of records
sends every declared field encoded, the array as the dictionaries that a loop over its elements
makes, exactly if the other fields and those of the elements' record have direct types; the array it
never sends as it is. -/
theorem writes_encoded (h : Model.ofSchema schema = .ok model) {module : Module} {table : Table}
    (htable : (Surroundings.ofModule model module).table = some table) (target : Target) :
    let around := Surroundings.ofModule model module
    (∀ method ∈ crudMethods around target, method.name ∈ ["create", "update", "upsert"] →
      ∃ function : CrudFunction, function.isWrite = true ∧
        method = function.method around table target ∧
        (method.Sends model.registry (function.sources around table) ↔
          ∀ field ∈ table.declared, field.2.type.isArgSafe = true) ∧
        ∀ field ∈ table.declared, field.2.type.isArgSafe = false →
          .same field.1 ∈ method.entries) ∧
    ∀ function ∈ Standard.childCreate table, ∀ method,
      function.method? around target = some method →
      ∃ array entry record, Standard.recordArray? table = some array ∧
        (array.argument, entry) ∈ table.declared ∧
        entry.type.elementRecord? = some array.record ∧
        model.registry.record? array.record = some record ∧
        (method.Sends model.registry ((array.argument, entry.type) ::
            (table.otherFields array.argument).map fun field => (field.1, field.2.type)) ↔
          (∀ field ∈ table.otherFields array.argument, field.2.type.isDirect = true) ∧
            ∀ field ∈ record.fields, field.2.type.isDirect = true) ∧
        .same array.argument ∉ method.entries := by
  intro around
  constructor
  · intro method hmethod hname
    rw [crudMethods, htable] at hmethod
    obtain ⟨function, -, rfl⟩ := List.mem_map.mp hmethod
    rw [function.method_name] at hname
    have hwrite := CrudFunction.isWrite_of_name hname
    exact ⟨function, hwrite, rfl, CrudFunction.sends_iff hwrite _,
      fun field => CrudFunction.same_mem_entries hwrite⟩
  · intro function hfunction method hmethod
    obtain ⟨array, harray, -⟩ := Standard.mem_childCreate hfunction
    obtain ⟨-, entry, hentry, htype⟩ := Standard.recordArray?_spec harray
    obtain ⟨record, hrecord⟩ :=
      exists_elementRecord h (Surroundings.table_mem htable).1 hentry htype
    exact ⟨array, entry, record, harray, hentry, htype, hrecord,
      childCreate_sends_iff hfunction hmethod harray hrecord htype,
      childCreate_same_not_mem hfunction hmethod harray hrecord⟩

/-- A child table with an array of parts and a level: its rows are created with a dictionary for
each part and the raw value of the level. -/
theorem writes_encoded_of_parts :
    let text : Validator := .node "string" [] none (.scalar .string)
    let words : Validator := .node "object" [] (some [("text", text)]) .object
    let part : Validator := .node "union" [] none (.union [words])
    let parts : Validator := .node "array" [] none (.array part)
    let level : Validator := .node "enum" ["low", "high"] none .enumeration
    let rows : Validator := .node "object" [] (some [("parts", parts), ("level", level)]) .object
    let schema : Schema := { children := [("message", ⟨rows, none⟩)] }
    let module : Module := ⟨"message", ["create"], "message", some .child, []⟩
    ∃ model table function method, Model.ofSchema schema = .ok model ∧
      (Surroundings.ofModule model module).table = some table ∧
      function ∈ Standard.childCreate table ∧
      function.method? (.ofModule model module) .reduced = some method ∧
      method.Sends model.registry
        [("parts", .array (.unionRef "MessagePart") false),
          ("level", .enumRef "MessageLevel")] := by
  intro text words part parts level rows schema module
  let array : RecordArray := { argument := "parts", record := "MessagePart" }
  let record : RecordDef :=
    ⟨"MessagePart", .union none, [("type", .required .string), ("text", .optional .string)]⟩
  let declared : Fields := [("parts", .required (.array (.unionRef "MessagePart") false)),
    ("level", .required (.enumRef "MessageLevel"))]
  let table : Table := ⟨"message", .child, TableKind.child.implicitFields ++ declared, declared, [],
    none⟩
  let model : Model := ⟨[table], ⟨[⟨"MessageLevel", ["high", "low"]⟩], [record]⟩⟩
  have hmodel : Model.ofSchema schema = .ok model := by
    dsimp only [schema, rows, level, parts, part, words, text, model, table, declared, record]
    rfl
  have htable : (Surroundings.ofModule model module).table = some table := by rfl
  let function : CustomFunction :=
    { Standard.mutation "create" [{ name := "parts", type := "[MessagePart]" },
        { name := "level", type := "MessageLevel", wireExpr? := some "level.rawValue" }] with
      recordArray? := some array }
  have hfunction : function ∈ Standard.childCreate table := .head _
  obtain ⟨method, hmethod⟩ : ∃ method,
      function.method? (.ofModule model module) .reduced = some method := ⟨_, rfl⟩
  obtain ⟨other, entry, found, hother, hentry, -, hfound, hsends, -⟩ :=
    (Model.writes_encoded hmodel htable .reduced).2 function hfunction method hmethod
  obtain rfl : array = other := Option.some.inj hother
  obtain rfl : record = found := Option.some.inj hfound
  obtain rfl : .required (.array (.unionRef "MessagePart") false) = entry := by
    simpa [table, declared, array, eq_comm] using hentry
  refine ⟨model, table, function, method, hmodel, htable, hfunction, hmethod, ?_⟩
  exact hsends.mpr ⟨by decide, by decide⟩

/-- A table with a record among its fields: rows are created with the record as it is. -/
theorem record_written_plain :
    let text : Validator := .node "string" [] none (.scalar .string)
    let info : Validator := .node "object" [] (some [("label", text)]) .object
    let rows : Validator := .node "object" [] (some [("meta", info)]) .object
    let schema : Schema := { owned := [("blog", rows)] }
    let module : Module := ⟨"blog", ["create"], "blog", some .owned, []⟩
    ∃ model, Model.ofSchema schema = .ok model ∧
      model.tables.map (·.declared) = [[("meta", .required (.recordRef "BlogMeta"))]] ∧
      (crudMethods (.ofModule model module) .full).map
        (fun method => (method.name, method.entries)) = [("create", [.same "meta"])] ∧
      ∀ text, ¬ Encodes "meta" (.recordRef "BlogMeta") text := by
  refine ⟨_, by rfl, by rfl, by rfl, ?_⟩
  intro text h
  cases h

end Model

end ClientBindings
