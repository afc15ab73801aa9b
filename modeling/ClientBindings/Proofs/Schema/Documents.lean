import ClientBindings.Proofs.Entries
import ClientBindings.Model.Table
import Mathlib.Data.List.Forall2

/-!
# Names in schema documents

A JSON object may repeat a key, but what is read of it does not repeat a name.

* `Json.tableOf?_nodup`, `Json.exists_of_mem_tableOf?`: the entries read of an object have distinct
  names, and each value is read of a value in the object.
* `Validator.decode?_nodup`: so the fields of a node that is read have distinct names.
* `Schema.parse?_nodup`: the fields of every table that a document declares have distinct names.
-/

namespace ClientBindings

namespace Json

variable {α : Type} {read : Json → Option α} {json : Json} {record : Entries Json} {name : String}

theorem mapM_eq_some_iff {β : Type} {f : β → Option α} {items : List β} {images : List α} :
    items.mapM f = some images ↔
      List.Forall₂ (fun item image => f item = some image) items images := by
  induction items generalizing images with
  | nil => simp [eq_comm]
  | cons item items ih =>
    simp only [List.mapM_cons, Option.bind_eq_bind, Option.pure_def, Option.bind_eq_some_iff,
      List.forall₂_cons_left_iff, ih]
    constructor
    · rintro ⟨first, hfirst, rest, hrest, hcons⟩
      cases hcons
      exact ⟨first, rest, hfirst, hrest, rfl⟩
    · rintro ⟨first, rest, hfirst, hrest, rfl⟩
      exact ⟨first, hfirst, rest, hrest, rfl⟩

/-- An item that a list is mapped to is the image of one of its items. -/
theorem exists_of_mem_mapM {β : Type} {f : β → Option α} {items : List β} {images : List α}
    (h : items.mapM f = some images) {image : α} (himage : image ∈ images) :
    ∃ item ∈ items, f item = some image := by
  have hall := mapM_eq_some_iff.mp h
  clear h
  induction hall with
  | nil => cases himage
  | @cons item _ _ _ hfirst _ ih =>
    rcases List.mem_cons.mp himage with rfl | himage
    · exact ⟨item, List.mem_cons_self, hfirst⟩
    · obtain ⟨other, hother, heq⟩ := ih himage
      exact ⟨other, List.mem_cons_of_mem _ hother, heq⟩

/-- An item of a list is read of a value. -/
theorem exists_of_mem_listOf? {items : List α} (h : listOf? read json = some items) {item : α}
    (hitem : item ∈ items) : ∃ value, read value = some item := by
  cases json with
  | array values =>
    obtain ⟨value, -, hvalue⟩ := exists_of_mem_mapM h hitem
    exact ⟨value, hvalue⟩
  | _ => cases h

theorem tableOf?_nodup {entries : Entries α} (h : tableOf? read json = some entries) :
    entries.names.Nodup := by
  obtain ⟨pairs, -, rfl⟩ := Option.map_eq_some_iff.mp h
  exact Entries.ofPairs_nodup pairs

theorem exists_of_mem_tableOf? {entries : Entries α} (h : tableOf? read json = some entries)
    {entry : String × α} (hentry : entry ∈ entries) : ∃ value, read value = some entry.2 := by
  obtain ⟨pairs, hpairs, rfl⟩ := Option.map_eq_some_iff.mp h
  cases json with
  | object members =>
    obtain ⟨⟨key, value⟩, -, hread⟩ := exists_of_mem_mapM hpairs (Entries.mem_of_mem_ofPairs hentry)
    simp only [Option.bind_eq_bind, Option.pure_def, Option.bind_eq_some_iff] at hread
    obtain ⟨name, -, result, hresult, heq⟩ := hread
    cases heq
    exact ⟨value, hresult⟩
  | _ => cases hpairs

/-- A field that stands is read of a value. -/
theorem exists_of_optional? {value : α} (h : optional? record name read = some (some value)) :
    ∃ json, read json = some value := by
  rw [optional?, orElse?] at h
  split at h
  · next json _ =>
    unfold nullable? at h
    split at h
    · cases h
    · obtain ⟨result, hresult, heq⟩ := Option.map_eq_some_iff.mp h
      cases heq
      exact ⟨_, hresult⟩
  · cases h

/-- What stands at one of two places is read of a value. -/
theorem exists_of_optional?_or {other : String} {first second : Option α} {value : α}
    (hfirst : optional? record name read = some first)
    (hsecond : optional? record other read = some second) (h : first.or second = some value) :
    ∃ json, read json = some value := by
  cases first with
  | some found =>
    cases h
    exact exists_of_optional? hfirst
  | none =>
    cases h
    exact exists_of_optional? hsecond

/-- A table that may be missing has distinct names. -/
theorem orElse?_nodup {entries : Entries α}
    (h : orElse? record name [] (tableOf? read) = some entries) : entries.names.Nodup := by
  rw [orElse?] at h
  split at h
  · exact tableOf?_nodup h
  · cases h
    exact .nil

/-- The entries of a table that may be missing are each read of a value. -/
theorem exists_of_mem_orElse? {entries : Entries α}
    (h : orElse? record name [] (tableOf? read) = some entries) {entry : String × α}
    (hentry : entry ∈ entries) : ∃ value, read value = some entry.2 := by
  rw [orElse?] at h
  split at h
  · exact exists_of_mem_tableOf? h hentry
  · cases h
    cases hentry

end Json

/-- The fields of a node that is read have distinct names. -/
theorem Validator.decode?_nodup {depth : Nat} {json : Json} {validator : Validator}
    (h : Validator.decode? depth json = some validator) {fields : Entries Validator}
    (hfields : validator.fields = some fields) : fields.names.Nodup := by
  cases depth with
  | zero => cases h
  | succ depth =>
    simp only [Validator.decode?, Option.bind_eq_bind, Option.pure_def,
      Option.bind_eq_some_iff] at h
    obtain ⟨record, -, kind, -, inner, -, element, -, values, -, names, -, shape, hshape,
      properties, hproperties, options, -, heq⟩ := h
    cases heq
    obtain ⟨value, hvalue⟩ := Json.exists_of_optional?_or hshape hproperties hfields
    cases depth with
    | zero => cases hvalue
    | succ depth => exact Json.tableOf?_nodup hvalue

/-- The validator of a child table that is read is read of a value. -/
theorem ChildTable.exists_of_decode? {depth : Nat} {json : Json} {table : ChildTable}
    (h : ChildTable.decode? depth json = some table) :
    ∃ depth value, Validator.decode? depth value = some table.validator := by
  cases depth with
  | zero => cases h
  | succ depth =>
    simp only [ChildTable.decode?, Option.bind_eq_bind, Option.pure_def,
      Option.bind_eq_some_iff] at h
    obtain ⟨record, -, validator, hvalidator, foreignKey, -, heq⟩ := h
    cases heq
    obtain ⟨value, -, hvalue⟩ := Option.bind_eq_some_iff.mp hvalidator
    exact ⟨depth, value, hvalue⟩

/-- The validator of every table that a document declares is read of a value. -/
theorem Schema.exists_of_parse? {text : String} {schema : Schema}
    (h : Schema.parse? text = some schema) {declaration : TableDeclaration}
    (hdeclaration : declaration ∈ schema.declarations) :
    ∃ depth value, Validator.decode? depth value = some declaration.validator := by
  obtain ⟨json, -, hjson⟩ := Option.bind_eq_some_iff.mp h
  simp only [Schema.ofJson?, Option.bind_eq_bind, Option.pure_def, Option.bind_eq_some_iff] at hjson
  obtain ⟨record, -, owned, howned, orgScoped, horgScoped, base, hbase, singleton, hsingleton,
    children, hchildren, heq⟩ := hjson
  cases heq
  simp only [Schema.declarations, TableDeclaration.ofMap, TableDeclaration.ofChildren,
    List.mem_append, List.mem_map] at hdeclaration
  rcases hdeclaration with (((⟨_, hmem, rfl⟩ | ⟨_, hmem, rfl⟩) | ⟨_, hmem, rfl⟩) | ⟨_, hmem, rfl⟩) |
    ⟨_, hmem, rfl⟩
  · exact ⟨_, Json.exists_of_mem_orElse? howned hmem⟩
  · exact ⟨_, Json.exists_of_mem_orElse? horgScoped hmem⟩
  · exact ⟨_, Json.exists_of_mem_orElse? hbase hmem⟩
  · exact ⟨_, Json.exists_of_mem_orElse? hsingleton hmem⟩
  · obtain ⟨value, hvalue⟩ := Json.exists_of_mem_orElse? hchildren hmem
    exact ChildTable.exists_of_decode? hvalue

/-- The fields of every table that a document declares have distinct names. -/
theorem Schema.parse?_nodup {text : String} {schema : Schema}
    (h : Schema.parse? text = some schema) {declaration : TableDeclaration}
    (hdeclaration : declaration ∈ schema.declarations) {fields : Entries Validator}
    (hfields : declaration.validator.fields = some fields) : fields.names.Nodup := by
  obtain ⟨depth, value, hvalue⟩ := Schema.exists_of_parse? h hdeclaration
  exact Validator.decode?_nodup hvalue hfields

end ClientBindings
