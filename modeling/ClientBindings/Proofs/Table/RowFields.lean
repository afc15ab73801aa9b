import ClientBindings.Proofs.Resolution.Naming
import ClientBindings.Proofs.Schema.Documents
import Mathlib.Data.List.Permutation

/-!
# The fields of a row

The fields of a table's rows are put together from three lists: those of the kind, those that are
declared, and one with the addresses of each upload. Names of one list may stand in another.

* `Table.urlNames`: the names for the addresses of uploads. They are distinct, and no kind has one
  of them (`urlField_injective`, `urlField_not_implicit`).
* `Table.find?_rowFields`: the last list that has a name decides its entry.
  `Table.names_rowFields`: the first one decides its place.
* `Table.LaidOut`, `Model.tables_laidOut`: so in every model of a schema document, the names of a
  row are distinct and in order, declared fields replace implicit ones in place, and the addresses
  of uploads replace both.
-/

namespace ClientBindings

namespace Table

/-! ## The addresses of uploads -/

/-- The names of the fields with the addresses of uploads. -/
def urlNames (uploads : List (String × Upload)) : List String :=
  Entries.names (uploads.map urlField)

/-- The last letter of a name for addresses tells one upload from several. -/
theorem urlField_last (field : String) (upload : Upload) :
    (urlField (field, upload)).1.toList.getLast? =
      some (match upload with
        | .single => 'l'
        | .multiple => 's') := by
  cases upload <;> simp [urlField, String.toList_append]

theorem urlField_injective {a b : String × Upload} (h : (urlField a).1 = (urlField b).1) :
    a = b := by
  obtain ⟨field, upload⟩ := a
  obtain ⟨other, upload'⟩ := b
  have hlast := urlField_last field upload
  rw [h, urlField_last] at hlast
  cases upload with
  | single =>
    cases upload' with
    | single => simpa [urlField] using h
    | multiple => cases hlast
  | multiple =>
    cases upload' with
    | single => cases hlast
    | multiple => simpa [urlField] using h

/-- No kind of table has a field with the addresses of an upload. -/
theorem urlField_not_implicit (kind : TableKind) (upload : String × Upload) :
    (urlField upload).1 ∉ kind.implicitFields.names := by
  have hletters : ∀ name ∈ kind.implicitFields.names,
      name.toList.getLast? ≠ some 'l' ∧ name.toList.getLast? ≠ some 's' := by
    cases kind <;> decide
  intro hmem
  obtain ⟨hsingle, hmultiple⟩ := hletters _ hmem
  obtain ⟨field, upload⟩ := upload
  rw [urlField_last] at hsingle hmultiple
  cases upload with
  | single => exact hsingle rfl
  | multiple => exact hmultiple rfl

variable {kind : TableKind} {declared : Fields} {uploads : List (String × Upload)}

theorem urlNames_nodup (h : (uploads.map (·.1)).Nodup) : (urlNames uploads).Nodup := by
  rw [urlNames, Entries.names, List.map_map]
  exact (h.of_map _).map fun _ _ heq => urlField_injective heq

theorem mem_urlNames {name : String} :
    name ∈ urlNames uploads ↔ ∃ upload ∈ uploads, (urlField upload).1 = name := by
  simp [urlNames, Entries.names]

/-! ## Three lists of fields -/

/-- The last list that has a name decides its entry: the addresses of uploads, the declared fields,
those of the kind. -/
theorem find?_rowFields (hdeclared : declared.names.Nodup) (huploads : (uploads.map (·.1)).Nodup)
    (name : String) :
    (rowFields kind declared uploads).find? name =
      (Entries.find? name (uploads.map urlField)).or
        ((declared.find? name).or (kind.implicitFields.find? name)) := by
  rw [rowFields, Entries.find?_foldl_put, List.reverse_append, Entries.find?_append,
    Entries.find?_reverse (urlNames_nodup huploads), Entries.find?_reverse hdeclared,
    Option.or_assoc]

/-- The first list that has a name decides its place. -/
theorem names_rowFields (hdeclared : declared.names.Nodup)
    (huploads : (uploads.map (·.1)).Nodup) :
    (rowFields kind declared uploads).names = kind.implicitFields.names ++
      declared.names.filter (fun name => name ∉ kind.implicitFields.names) ++
      (urlNames uploads).filter
        (fun name => name ∉ kind.implicitFields.names ∧ name ∉ declared.names) := by
  rw [rowFields, Entries.names_foldl_put, Entries.fresh_append, Entries.names_append,
    Entries.names_fresh hdeclared, Entries.names_fresh (urlNames_nodup huploads), List.append_assoc]
  congr 2
  refine List.filter_congr fun name _ => ?_
  by_cases himplicit : name ∈ kind.implicitFields.names <;> simp [himplicit]

theorem implicitFields_nodup (kind : TableKind) : kind.implicitFields.names.Nodup := by
  cases kind <;> decide

theorem rowFields_nodup (kind : TableKind) (declared : Fields) (uploads : List (String × Upload)) :
    (rowFields kind declared uploads).names.Nodup :=
  Entries.foldl_put_nodup _ (implicitFields_nodup kind)

/-! ## Tables of a model -/

theorem mem_uploadsOf {fields : Entries Validator} {field : String} {upload : Upload} :
    (field, upload) ∈ uploadsOf fields ↔
      ∃ validator, (field, validator) ∈ fields ∧ validator.upload? = some upload := by
  simp [uploadsOf]

theorem uploadsOf_nodup {fields : Entries Validator} (h : fields.names.Nodup) :
    ((uploadsOf fields).map (·.1)).Nodup := by
  refine h.sublist ?_
  induction fields with
  | nil => exact .slnil
  | cons field rest ih =>
    obtain ⟨name, validator⟩ := field
    obtain ⟨-, hrest⟩ := List.nodup_cons.mp h
    have hnames : Entries.names ((name, validator) :: rest) = name :: Entries.names rest := rfl
    cases hupload : validator.upload? with
    | none => simpa [uploadsOf, hnames, hupload] using (ih hrest).cons name
    | some upload => simpa [uploadsOf, hnames, hupload] using (ih hrest).cons_cons name

/-- The rows of the table have the fields that its declaration asks for. -/
structure LaidOut (declaration : TableDeclaration) (table : Table) : Prop where
  name : table.name = declaration.name
  kind : table.kind = declaration.kind
  /-- The declared fields are those of the validator, and the uploads those of them that hold
  some. -/
  fields : ∃ fields, declaration.validator.fields = some fields ∧
    table.declared.names = fields.names ∧
    ∀ field upload, (field, upload) ∈ table.uploads ↔
      ∃ validator, (field, validator) ∈ fields ∧ validator.upload? = some upload
  nodup : table.fields.names.Nodup
  /-- First the fields of the kind, then the declared ones that are new, then those with the
  addresses of uploads that are new. -/
  order : table.fields.names = table.kind.implicitFields.names ++
    table.declared.names.filter (fun name => name ∉ table.kind.implicitFields.names) ++
    (urlNames table.uploads).filter
      (fun name => name ∉ table.kind.implicitFields.names ∧ name ∉ table.declared.names)
  /-- A declared field has the entry that it was declared with, unless it is in the place of an
  upload's addresses. -/
  declared : ∀ name entry, (name, entry) ∈ table.declared → name ∉ urlNames table.uploads →
    table.fields.find? name = some entry
  /-- A field of the kind that is not declared has its own entry. -/
  implicit : ∀ name entry, (name, entry) ∈ table.kind.implicitFields →
    name ∉ table.declared.names → table.fields.find? name = some entry
  /-- The addresses of every upload have their field, whatever is declared. -/
  derived : ∀ upload ∈ table.uploads,
    table.fields.find? (urlField upload).1 = some (urlField upload).2

/-- The table of a declaration with distinct fields has them laid out. -/
theorem laidOut {declaration : TableDeclaration} {fields : Entries Validator}
    (hfields : declaration.validator.fields = some fields) (h : fields.names.Nodup) :
    LaidOut declaration declaration.table := by
  have hnames : declaration.table.declared.names = fields.names := by
    simp only [TableDeclaration.table, ofFields, hfields, Option.getD_some, names_entriesOf,
      fieldReadings_eq, List.map_map]
    rfl
  have huploads : declaration.table.uploads = uploadsOf fields := by
    simp [TableDeclaration.table, ofFields, hfields]
  have hdistinct : declaration.table.declared.names.Nodup := hnames ▸ h
  have hapart : (declaration.table.uploads.map (·.1)).Nodup := huploads ▸ uploadsOf_nodup h
  have hfind (name : String) : declaration.table.fields.find? name =
      (Entries.find? name (declaration.table.uploads.map urlField)).or
        ((declaration.table.declared.find? name).or (declaration.kind.implicitFields.find? name)) :=
    find?_rowFields hdistinct hapart name
  refine ⟨rfl, rfl, ⟨fields, hfields, hnames, fun field upload => ?_⟩, rowFields_nodup _ _ _,
    names_rowFields hdistinct hapart, ?_, ?_, ?_⟩
  · rw [huploads]
    exact mem_uploadsOf
  · intro name entry hentry hurl
    refine (hfind name).trans ?_
    rw [Entries.find?_eq_none_iff.mpr hurl, (Entries.find?_eq_some_iff hdistinct).mpr hentry]
    rfl
  · intro name entry hentry hdeclared
    have hurl : name ∉ urlNames declaration.table.uploads := by
      intro hmem
      obtain ⟨upload, -, rfl⟩ := mem_urlNames.mp hmem
      exact urlField_not_implicit _ upload (List.mem_map.mpr ⟨_, hentry, rfl⟩)
    refine (hfind name).trans ?_
    rw [Entries.find?_eq_none_iff.mpr hurl, Entries.find?_eq_none_iff.mpr hdeclared]
    exact (Entries.find?_eq_some_iff (implicitFields_nodup _)).mpr hentry
  · intro upload hupload
    have hurl : Entries.find? (urlField upload).1 (declaration.table.uploads.map urlField) =
        some (urlField upload).2 :=
      (Entries.find?_eq_some_iff (urlNames_nodup hapart)).mpr (List.mem_map_of_mem hupload)
    refine (hfind (urlField upload).1).trans ?_
    rw [hurl]
    rfl

end Table

namespace Model

variable {schema : Schema} {model : Model}

/-- The validator of every table of a model has fields. -/
theorem exists_fields (h : Model.ofSchema schema = .ok model) {declaration : TableDeclaration}
    (hdeclaration : declaration ∈ schema.declarations) :
    ∃ fields, declaration.validator.fields = some fields := by
  by_contra hnone
  simp only [not_exists, ← Option.eq_none_iff_forall_ne_some] at hnone
  have hstep : .fail (.notObject declaration.kind declaration.name declaration.validator.kind) ∈
      schema.declarations.flatMap TableDeclaration.steps := by
    refine List.mem_flatMap.mpr ⟨declaration, hdeclaration, ?_⟩
    rw [TableDeclaration.steps, hnone]
    exact List.mem_singleton_self _
  exact Registry.perform_fulfills (Model.ofSchema_ok h).2 _ hstep

/-- **Rows of tables.** In a model of a schema document, the names of a row are distinct and in
order: those of the kind, then the declared ones, then those for the addresses of uploads, each
where it comes first. A declared field has its own entry, also where it replaces one of the kind,
unless the addresses of an upload take its name: every upload has its addresses in the row. -/
theorem tables_laidOut {text : String} (hparse : Schema.parse? text = some schema)
    (h : Model.ofSchema schema = .ok model) :
    List.Forall₂ Table.LaidOut schema.declarations model.tables := by
  rw [(Model.ofSchema_ok h).1, List.forall₂_map_right_iff, List.forall₂_same]
  intro declaration hdeclaration
  obtain ⟨fields, hfields⟩ := exists_fields h hdeclaration
  exact Table.laidOut hfields (Schema.parse?_nodup hparse hdeclaration hfields)

/-- A table that declares a field of its kind, two uploads, and a number under the name that one of
them needs for its addresses: the first stays in its place, the number is replaced. -/
theorem tables_laidOut_of_uploads :
    let text := "\x7b\"base\":\x7b\"film\":\x7b\"type\":\"object\",\"shape\":\x7b" ++
      "\"cacheHit\":\x7b\"type\":\"boolean\"\x7d,\"photo\":\x7b\"type\":\"custom\"\x7d," ++
      "\"photoUrl\":\x7b\"type\":\"number\"\x7d,\"stills\":\x7b\"type\":\"array\"," ++
      "\"element\":\x7b\"type\":\"custom\"\x7d\x7d\x7d\x7d\x7d\x7d"
    let file : Validator := .node "custom" [] none .file
    let schema : Schema := { base := [("film", .node "object" [] (some [
      ("cacheHit", .node "boolean" [] none (.scalar .bool)), ("photo", file),
      ("photoUrl", .node "number" [] none (.scalar .number)),
      ("stills", .node "array" [] none (.array file))]) .object)] }
    ∃ model, Schema.parse? text = some schema ∧ Model.ofSchema schema = .ok model ∧
      model.tables.map (·.fields) = [[("_id", .optional .string),
        ("_creationTime", .optional .number), ("cacheHit", .required (.scalar .bool)),
        ("photo", .required .string), ("photoUrl", .optional .string),
        ("stills", .required (.array .string false)),
        ("stillsUrls", .optional (.array .string false))]] ∧
      List.Forall₂ Table.LaidOut schema.declarations model.tables := by
  intro text file schema
  have hparse : Schema.parse? text = some schema := by
    dsimp only [text, schema, file]
    cbv
  exact ⟨_, hparse, by rfl, by rfl, tables_laidOut hparse (by rfl)⟩

/-- A declared number has the name that an upload needs for its addresses: in the row it is an
optional text. -/
theorem declared_field_replaced :
    let text := "\x7b\"owned\":\x7b\"blog\":\x7b\"type\":\"object\",\"shape\":\x7b" ++
      "\"photo\":\x7b\"type\":\"custom\"\x7d," ++
      "\"photoUrl\":\x7b\"type\":\"number\"\x7d\x7d\x7d\x7d\x7d"
    ∃ schema model table, Schema.parse? text = some schema ∧ Model.ofSchema schema = .ok model ∧
      table ∈ model.tables ∧ ("photoUrl", .required .number) ∈ table.declared ∧
      table.fields.find? "photoUrl" = some (.optional .string) := by
  intro text
  let file : Validator := .node "custom" [] none .file
  let schema : Schema := { owned := [("blog", .node "object" [] (some [("photo", file),
    ("photoUrl", .node "number" [] none (.scalar .number))]) .object)] }
  have hparse : Schema.parse? text = some schema := by
    dsimp only [text, schema, file]
    cbv
  exact ⟨schema, _, _, hparse, by rfl, List.mem_singleton_self _, .tail _ (.head _), by rfl⟩

end Model

end ClientBindings
