import ClientBindings.Proofs.Resolution.Naming
import Mathlib.Data.List.Forall2

/-!
# Unfolding of field types

A field type names what it stands for, and a registry says what the names mean.

* `Registry.Unfolds`: the shape of a type, every name replaced by its definition, at any depth. It
  is unique (`Unfolds.unique`).
* `Reading.unfolds`: in a registry that fulfills the steps of a reading, the type that the reading
  gets unfolds to the reading.
* `Model.declared_unfolds`: so every declared field of a model unfolds, in the registry of the whole
  schema, to the reading of its validator and to nothing else. Types that share a name share
  their definition, whatever tables and fields they come from.
-/

namespace ClientBindings

/-- The fields of a union's record: the tag, then the others. -/
def unionFields (tags : List String) (fields : List (String × Slot Reading)) :
    List (String × Slot Reading) :=
  ("type", ⟨if tags.isEmpty then .scalar .string else .enumeration tags, false⟩) :: fields

theorem unionFields_inj {tags others : List String} {fields rest : List (String × Slot Reading)}
    (h : unionFields tags fields = unionFields others rest) : tags = others ∧ fields = rest := by
  simp only [unionFields, List.cons.injEq, Prod.mk.injEq, Slot.mk.injEq, true_and, and_true] at h
  refine ⟨?_, h.2⟩
  obtain ⟨htags, -⟩ := h
  split at htags <;> split at htags <;> simp_all

namespace Registry

/-- The tags of a union's record: the values of its discriminant. -/
def UnfoldsTags (r : Registry) : Option String → List String → Prop
  | none, tags => tags = []
  | some name, tags => ∃ d, r.enum? name = some d ∧ d.values = tags

mutual

/-- The shape of a type, every name replaced by what the registry finds under it. -/
inductive Unfolds (r : Registry) : FieldType → Reading → Prop
  | scalar (s : Scalar) : Unfolds r (.scalar s) (.scalar s)
  | enumRef {name : String} {d : EnumDef} (h : r.enum? name = some d) :
      Unfolds r (.enumRef name) (.enumeration d.values)
  | array {type : FieldType} {reading : Reading} {isOptional : Bool} (h : Unfolds r type reading) :
      Unfolds r (.array type isOptional) (.array ⟨reading, isOptional⟩)
  | recordRef {name : String} {d : RecordDef} {reading : Reading} (h : r.record? name = some d)
      (hd : UnfoldsRecord r d reading) : Unfolds r (.recordRef name) reading
  | unionRef {name : String} {d : RecordDef} {reading : Reading} (h : r.record? name = some d)
      (hd : UnfoldsRecord r d reading) : Unfolds r (.unionRef name) reading

/-- The shape of a record, as its kind and its fields decide. -/
inductive UnfoldsRecord (r : Registry) : RecordDef → Reading → Prop
  | nested {name : String} {entries : Fields} {fields : List (String × Slot Reading)}
      (h : UnfoldsFields r entries fields) :
      UnfoldsRecord r ⟨name, .nested, entries⟩ (.object fields)
  | union {name : String} {discriminant : Option String} {entries : Fields} {tags : List String}
      {fields : List (String × Slot Reading)} (htags : UnfoldsTags r discriminant tags)
      (h : UnfoldsFields r entries (unionFields tags fields)) :
      UnfoldsRecord r ⟨name, .union discriminant, entries⟩ (.union tags fields)

/-- The shapes of fields, in order. -/
inductive UnfoldsFields (r : Registry) : Fields → List (String × Slot Reading) → Prop
  | nil : UnfoldsFields r [] []
  | cons {name : String} {type : FieldType} {isOptional : Bool} {reading : Reading} {rest : Fields}
      {fields : List (String × Slot Reading)} (h : Unfolds r type reading)
      (hrest : UnfoldsFields r rest fields) :
      UnfoldsFields r ((name, ⟨type, isOptional⟩) :: rest) ((name, ⟨reading, isOptional⟩) :: fields)

end

/-- The slot of an entry: the shape of its type, and whether it may be empty. -/
def UnfoldsEntry (r : Registry) (entry : FieldEntry) (slot : Slot Reading) : Prop :=
  r.Unfolds entry.type slot.type ∧ slot.isOptional = entry.isOptional

variable {r : Registry}

mutual

/-- A type has one shape. -/
theorem Unfolds.unique {type : FieldType} {reading other : Reading} :
    r.Unfolds type reading → r.Unfolds type other → reading = other
  | .scalar s, h' => by
    cases h'
    rfl
  | .enumRef h, h' => by
    obtain _ | h' := h'
    rw [h] at h'
    cases h'
    rfl
  | .array h, h' => by
    obtain _ | _ | h' := h'
    rw [h.unique h']
  | .recordRef h hd, h' => by
    obtain _ | _ | _ | ⟨h', hd'⟩ := h'
    rw [h] at h'
    cases h'
    exact hd.unique hd'
  | .unionRef h hd, h' => by
    obtain _ | _ | _ | _ | ⟨h', hd'⟩ := h'
    rw [h] at h'
    cases h'
    exact hd.unique hd'

theorem UnfoldsRecord.unique {d : RecordDef} {reading other : Reading} :
    r.UnfoldsRecord d reading → r.UnfoldsRecord d other → reading = other
  | .nested h, h' => by
    obtain ⟨h'⟩ := h'
    rw [h.unique h']
  | .union _ h, h' => by
    obtain _ | ⟨-, h'⟩ := h'
    obtain ⟨rfl, rfl⟩ := unionFields_inj (h.unique h')
    rfl

theorem UnfoldsFields.unique {entries : Fields} {fields others : List (String × Slot Reading)} :
    r.UnfoldsFields entries fields → r.UnfoldsFields entries others → fields = others
  | .nil, h' => by
    cases h'
    rfl
  | .cons h hrest, h' => by
    obtain _ | ⟨h', hrest'⟩ := h'
    rw [h.unique h', hrest.unique hrest']

end

end Registry

/-! ## Readings in a registry -/

variable {r : Registry}

/-- The tag field of a union's record unfolds to the tags. -/
theorem tagField_unfolds {union : String} {tags : List String} {entries : Fields}
    {fields : List (String × Slot Reading)}
    (h : ∀ step ∈ ((discriminantName union tags).map fun enum =>
      Step.define (.enum ⟨enum, tags⟩)).toList, r.Fulfills step)
    (hfields : r.UnfoldsFields entries fields) :
    r.UnfoldsTags (discriminantName union tags) tags ∧
      r.UnfoldsFields (tagField (discriminantName union tags) :: entries)
        (unionFields tags fields) := by
  cases tags with
  | nil => exact ⟨rfl, .cons (.scalar .string) hfields⟩
  | cons tag tags =>
    have henum := Registry.holds_enum.mp (h _ (List.mem_singleton_self _))
    exact ⟨⟨_, henum, rfl⟩, .cons (.enumRef henum) hfields⟩

mutual

/-- In a registry that fulfills the steps of a reading, its type unfolds to the reading. -/
theorem Reading.unfolds (reading : Reading) (model field : String)
    (h : ∀ step ∈ reading.steps model field, r.Fulfills step) :
    r.Unfolds (reading.fieldType model field) reading :=
  match reading with
  | .scalar s => by
    rw [Reading.fieldType]
    exact .scalar s
  | .enumeration values => by
    rw [Reading.steps] at h
    rw [Reading.fieldType]
    exact .enumRef (Registry.holds_enum.mp (h _ (List.mem_singleton_self _)))
  | .array ⟨element, isOptional⟩ => by
    rw [Reading.steps] at h
    rw [Reading.fieldType]
    exact .array (element.unfolds model _ h)
  | .object fields => by
    rw [Reading.steps] at h
    rw [Reading.fieldType]
    obtain ⟨hfields, hrecord⟩ := List.forall_mem_append.mp h
    refine .recordRef (Registry.holds_record.mp (hrecord _ (List.mem_singleton_self _))) ?_
    exact .nested (entriesOf_unfolds fields _ hfields)
  | .union tags fields => by
    rw [Reading.steps] at h
    rw [Reading.fieldType]
    obtain ⟨htags, h⟩ := List.forall_mem_append.mp h
    obtain ⟨hfields, hrecord⟩ := List.forall_mem_append.mp h
    obtain ⟨htags, hfields⟩ := tagField_unfolds htags (entriesOf_unfolds fields _ hfields)
    refine .unionRef (Registry.holds_record.mp (hrecord _ (List.mem_singleton_self _))) ?_
    exact .union htags hfields
  | .unsupported kind => by
    rw [Reading.steps] at h
    exact (h _ (List.mem_singleton_self _)).elim

/-- In a registry that fulfills the steps of fields, their entries unfold to the fields. -/
theorem entriesOf_unfolds (fields : List (String × Slot Reading)) (model : String)
    (h : ∀ step ∈ fieldSteps fields model, r.Fulfills step) :
    r.UnfoldsFields (entriesOf fields model) fields :=
  match fields with
  | [] => .nil
  | (field, ⟨reading, isOptional⟩) :: rest => by
    rw [fieldSteps] at h
    obtain ⟨hreading, hrest⟩ := List.forall_mem_append.mp h
    exact .cons (reading.unfolds model field hreading) (entriesOf_unfolds rest model hrest)

end

/-- The entry of a slot unfolds to the slot, and to no other one. -/
theorem Slot.entry_unfolds {slot : Slot Reading} {model field : String}
    (h : ∀ step ∈ slot.type.steps model field, r.Fulfills step) (other : Slot Reading) :
    r.UnfoldsEntry (slot.entry model field) other ↔ other = slot := by
  have hreading := slot.type.unfolds model field h
  constructor
  · rintro ⟨hother, hoptional⟩
    exact Slot.ext (hother.unique hreading) hoptional
  · rintro rfl
    exact ⟨hreading, rfl⟩

/-! ## Declared fields -/

/-- The table is that of the declaration, field by field: every entry unfolds to the reading of the
field's validator, and to nothing else. -/
structure Registry.Reads (r : Registry) (declaration : TableDeclaration) (table : Table) :
    Prop where
  name : table.name = declaration.name
  kind : table.kind = declaration.kind
  declared : ∃ fields, declaration.validator.fields = some fields ∧
    List.Forall₂
      (fun (field : String × Validator) (entry : String × FieldEntry) =>
        entry.1 = field.1 ∧ ∀ slot, r.UnfoldsEntry entry.2 slot ↔ slot = field.2.reading)
      fields table.declared

/-- A declaration is read by every registry that fulfills its steps. -/
theorem TableDeclaration.reads {declaration : TableDeclaration}
    (h : ∀ step ∈ declaration.steps, r.Fulfills step) :
    r.Reads declaration declaration.table := by
  refine ⟨rfl, rfl, ?_⟩
  unfold TableDeclaration.steps at h
  cases hfields : declaration.validator.fields with
  | none =>
    rw [hfields] at h
    exact (h _ (List.mem_singleton_self _)).elim
  | some fields =>
    rw [hfields] at h
    refine ⟨fields, rfl, ?_⟩
    have hdeclared : declaration.table.declared =
        fields.map fun field => (field.1, field.2.reading.entry declaration.name field.1) := by
      simp [TableDeclaration.table, Table.ofFields, hfields, fieldReadings_eq, entriesOf]
    rw [hdeclared, List.forall₂_map_right_iff, List.forall₂_same]
    intro field hfield
    have hmem : (field.1, field.2.reading) ∈ fieldReadings fields := by
      rw [fieldReadings_eq]
      exact List.mem_map.mpr ⟨field, hfield, rfl⟩
    exact ⟨rfl, Slot.entry_unfolds fun step hstep => h step (mem_fieldSteps hmem hstep)⟩

/-- **Declared fields unfold to their validators.** The model of a schema has a table for every
declaration, in order, with an entry for every declared field, in order. In the registry of the
whole schema the entry unfolds to the reading of the field's validator, and to nothing else. -/
theorem Model.declared_unfolds {schema : Schema} {model : Model}
    (h : Model.ofSchema schema = .ok model) :
    List.Forall₂ model.registry.Reads schema.declarations model.tables := by
  obtain ⟨htables, hperform⟩ := Model.ofSchema_ok h
  have hfulfills := Registry.perform_fulfills hperform
  rw [htables, List.forall₂_map_right_iff, List.forall₂_same]
  intro declaration hdeclaration
  refine TableDeclaration.reads fun step hstep => hfulfills step ?_
  exact List.mem_flatMap.mpr ⟨declaration, hdeclaration, hstep⟩

/-- Two tables whose fields meet under one name: they have the same values, in another order. -/
theorem Model.declared_unfolds_of_shared_name :
    let level (values : List String) : Validator := .node "enum" values none .enumeration
    let levels : Validator := .node "array" [] none (.array (level ["low", "high"]))
    let row (field : String) (validator : Validator) : Validator :=
      .node "object" [] (some [(field, validator)]) .object
    let schema : Schema :=
      { owned := [("blog", row "levels" levels)]
        children := [("Blog", ⟨row "level" (level ["high", "low"]), none⟩)] }
    ∃ model, Model.ofSchema schema = .ok model ∧
      model.registry.enums = [⟨"BlogLevel", ["high", "low"]⟩] ∧
      List.Forall₂ model.registry.Reads schema.declarations model.tables :=
  ⟨_, by rfl, by rfl, Model.declared_unfolds (by rfl)⟩

end ClientBindings
