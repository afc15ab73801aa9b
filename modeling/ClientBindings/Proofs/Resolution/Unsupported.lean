import ClientBindings.Proofs.Resolution.Naming
import Mathlib.Logic.Relation

/-!
# Unsupported validators

A node that no type describes fails the resolution of every validator that resolves it.

* `Validator.HasPart`: the nodes that the resolution of a node goes on to. A union has the fields
  of its options as parts, but not the options: it merges them into one record, whose field has
  the type that the first option with that field declares.
* `HasPart.steps_subset`: the steps of a part are among those of the node. `exists_ownStep`: a step
  of a validator is one that a node it reaches makes for itself.
* `Validator.Reaches.resolve_error`: a validator that reaches an unsupported node resolves in no
  registry. The error names an unsupported node that it reaches, or a clash that came first.
-/

namespace ClientBindings

namespace Validator

/-- Whether no type describes the node. -/
def isUnsupported : Validator → Bool
  | .node _ _ _ .unsupported => true
  | .node _ _ none .object => true
  | _ => false

/-- The fields of the options of a union, inside every optional wrapper, one option after the
other. -/
def optionFields (options : List Validator) : Entries Validator :=
  options.flatMap fun option => option.unwrapped.fields.getD []

/-- The node has the other one as a part. -/
inductive HasPart : Validator → Validator → Prop
  | inner {kind : String} {values : List String} {fields : Option (Entries Validator)}
      {inner : Validator} : HasPart (.node kind values fields (.optional inner)) inner
  | element {kind : String} {values : List String} {fields : Option (Entries Validator)}
      {element : Validator} : HasPart (.node kind values fields (.array element)) element
  | field {kind : String} {values : List String} {fields : Entries Validator}
      {field : String × Validator} (h : field ∈ fields) :
      HasPart (.node kind values (some fields) .object) field.2
  /-- A field of an option that is not the tag and that no earlier option has. -/
  | variant {kind : String} {values : List String} {fields : Option (Entries Validator)}
      {options : List Validator} {field : String × Validator}
      (h : field ∈ Entries.fresh ["type"] (optionFields options)) :
      HasPart (.node kind values fields (.union options)) field.2

/-- The validator has the node as a part at any depth, or is the node. -/
def Reaches : Validator → Validator → Prop := Relation.ReflTransGen HasPart

/-! ## Parts are smaller -/

theorem sizeOf_unwrapped_le (validator : Validator) :
    sizeOf validator.unwrapped ≤ sizeOf validator := by
  induction validator using Validator.unwrapped.induct with
  | case1 kind values fields inner ih =>
    rw [Validator.unwrapped]
    simp only [node.sizeOf_spec, Form.optional.sizeOf_spec]
    omega
  | case2 validator hform =>
    rw [Validator.unwrapped]
    exact hform

theorem sizeOf_lt_of_mem_fields {validator : Validator} {field : String × Validator}
    (h : field ∈ validator.fields.getD []) : sizeOf field.2 < sizeOf validator := by
  obtain ⟨kind, values, fields, form⟩ := validator
  cases fields with
  | none => cases h
  | some fields =>
    have hfield := List.sizeOf_lt_of_mem (show field ∈ fields from h)
    obtain ⟨name, value⟩ := field
    simp only [node.sizeOf_spec, Prod.mk.sizeOf_spec, Option.some.sizeOf_spec] at hfield ⊢
    omega

theorem HasPart.sizeOf_lt {validator part : Validator} (h : validator.HasPart part) :
    sizeOf part < sizeOf validator := by
  cases h with
  | inner => simp only [node.sizeOf_spec, Form.optional.sizeOf_spec]; omega
  | element => simp only [node.sizeOf_spec, Form.array.sizeOf_spec]; omega
  | field h => exact sizeOf_lt_of_mem_fields h
  | variant h =>
    obtain ⟨option, hoption, hfield⟩ := List.mem_flatMap.mp (Entries.fresh_subset _ _ h)
    have hlt := sizeOf_lt_of_mem_fields hfield
    have hle := sizeOf_unwrapped_le option
    have hmem := List.sizeOf_lt_of_mem hoption
    simp only [node.sizeOf_spec, Form.union.sizeOf_spec]
    omega

/-! ## The steps of parts -/

variable {validator part node : Validator} {model field : String}

theorem reading_of_isUnsupported (h : validator.isUnsupported = true) :
    validator.reading = ⟨.unsupported validator.kind, false⟩ := by
  obtain ⟨kind, values, fields, form⟩ := validator
  cases form with
  | unsupported => rw [Validator.reading, Validator.kind] <;> simp
  | object =>
    cases fields with
    | none => rw [Validator.reading, Validator.kind] <;> simp
    | some fields => cases h
  | _ => cases h

/-- The fields that a union reads are its parts. -/
theorem unionReadings_eq (options : List Validator) :
    Entries.fresh ["type"] (optionReadings options) =
      (Entries.fresh ["type"] (optionFields options)).map fun field =>
        (field.1, field.2.reading) := by
  rw [optionReadings_eq, ← Entries.fresh_map, optionFields, List.map_flatMap]

/-- What a part registers, and where it fails, stands among the steps of the node. -/
theorem HasPart.steps_subset (h : validator.HasPart part) (model field : String) :
    ∃ model' field',
      part.reading.type.steps model' field' ⊆ validator.reading.type.steps model field := by
  cases h with
  | inner =>
    refine ⟨model, field, ?_⟩
    rw [Validator.reading]
    exact List.Subset.refl _
  | element =>
    refine ⟨model, Text.dropEnding "s" field, ?_⟩
    rw [Validator.reading, Reading.steps]
    exact List.Subset.refl _
  | @field _ _ fields entry hentry =>
    refine ⟨Text.lowercase (synthesizedName model field), entry.1, fun step hstep => ?_⟩
    rw [Validator.reading, Reading.steps, fieldReadings_eq]
    refine List.mem_append_left _ (mem_fieldSteps_iff.mpr ?_)
    exact ⟨(entry.1, entry.2.reading), List.mem_map_of_mem hentry, hstep⟩
  | @variant _ _ _ options entry hentry =>
    refine ⟨synthesizedName model field, entry.1, fun step hstep => ?_⟩
    rw [Validator.reading, Reading.steps, unionReadings_eq, List.map_map]
    refine List.mem_append_right _ (List.mem_append_left _ (mem_fieldSteps_iff.mpr ?_))
    exact ⟨(entry.1, entry.2.reading.opened), List.mem_map_of_mem hentry, hstep⟩

theorem Reaches.steps_subset (h : validator.Reaches node) (model field : String) :
    ∃ model' field',
      node.reading.type.steps model' field' ⊆ validator.reading.type.steps model field := by
  induction h with
  | refl => exact ⟨model, field, List.Subset.refl _⟩
  | tail _ hpart ih =>
    obtain ⟨model', field', hsub⟩ := ih
    obtain ⟨model'', field'', hsub'⟩ := hpart.steps_subset model' field'
    exact ⟨model'', field'', List.Subset.trans hsub' hsub⟩

/-- The steps that a node makes for itself: it fails, or registers the enumeration of a set, or a
record. -/
inductive OwnStep (validator : Validator) (model field : String) : Step → Prop
  | fail (h : validator.isUnsupported = true) :
      OwnStep validator model field (.fail (.unsupported validator.kind model field))
  | enum (name : String) (strings : List String) :
      OwnStep validator model field (.define (.enum ⟨name, sortedSet strings⟩))
  | record (d : RecordDef) : OwnStep validator model field (.define (.record d))

/-- A step of a node is its own, or that of a part. -/
theorem mem_steps {step : Step} (h : step ∈ validator.reading.type.steps model field) :
    validator.OwnStep model field step ∨ ∃ part, validator.HasPart part ∧
      ∃ model' field', step ∈ part.reading.type.steps model' field' := by
  by_cases hself : validator.isUnsupported = true
  · rw [reading_of_isUnsupported hself, Reading.steps] at h
    rw [List.mem_singleton.mp h]
    exact .inl (.fail hself)
  · obtain ⟨kind, values, fields, form⟩ := validator
    cases form with
    | scalar => simp [Validator.reading, Reading.steps] at h
    | file => simp [Validator.reading, Reading.steps] at h
    | enumeration =>
      rw [Validator.reading, Reading.steps] at h
      rw [List.mem_singleton.mp h]
      exact .inl (.enum _ values)
    | optional inner =>
      rw [Validator.reading] at h
      exact .inr ⟨inner, .inner, model, field, h⟩
    | array element =>
      rw [Validator.reading, Reading.steps] at h
      exact .inr ⟨element, .element, model, _, h⟩
    | object =>
      cases fields with
      | none => exact absurd rfl hself
      | some fields =>
        rw [Validator.reading, Reading.steps, fieldReadings_eq] at h
        rcases List.mem_append.mp h with h | h
        · obtain ⟨_, hentry, hstep⟩ := mem_fieldSteps_iff.mp h
          obtain ⟨entry, hmem, rfl⟩ := List.mem_map.mp hentry
          exact .inr ⟨entry.2, .field hmem, _, _, hstep⟩
        · rw [List.mem_singleton.mp h]
          exact .inl (.record _)
    | union options =>
      rw [Validator.reading, Reading.steps, unionReadings_eq, List.map_map] at h
      rcases List.mem_append.mp h with h | h
      · obtain ⟨enum, -, rfl⟩ := Option.map_eq_some_iff.mp (Option.mem_toList.mp h)
        exact .inl (.enum enum _)
      · rcases List.mem_append.mp h with h | h
        · obtain ⟨_, hentry, hstep⟩ := mem_fieldSteps_iff.mp h
          obtain ⟨entry, hmem, rfl⟩ := List.mem_map.mp hentry
          exact .inr ⟨entry.2, .variant hmem, _, _, hstep⟩
        · rw [List.mem_singleton.mp h]
          exact .inl (.record _)
    | unsupported => exact absurd rfl hself

/-- Every step of a validator is one that a node it reaches makes for itself. -/
theorem exists_ownStep {validator : Validator} {model field : String} {step : Step}
    (h : step ∈ validator.reading.type.steps model field) :
    ∃ node model' field', validator.Reaches node ∧ node.OwnStep model' field' step := by
  rcases mem_steps h with hself | ⟨part, hpart, model', field', hstep⟩
  · exact ⟨validator, model, field, .refl, hself⟩
  · have := hpart.sizeOf_lt
    obtain ⟨node, model'', field'', hreaches, hnode⟩ := exists_ownStep hstep
    exact ⟨node, model'', field'', .head hpart hreaches, hnode⟩
  termination_by sizeOf validator

/-- Every failure among the steps of a validator is that of an unsupported node it reaches. -/
theorem reaches_of_fail {error : ModelError}
    (h : .fail error ∈ validator.reading.type.steps model field) :
    ∃ node model' field', validator.Reaches node ∧ node.isUnsupported = true ∧
      error = .unsupported node.kind model' field' := by
  obtain ⟨node, model', field', hreaches, hstep⟩ := exists_ownStep h
  cases hstep with
  | fail hnode => exact ⟨node, model', field', hreaches, hnode, rfl⟩

/-- Every unsupported node that a validator reaches is a failure among its steps. -/
theorem Reaches.fail_mem (h : validator.Reaches node) (hnode : node.isUnsupported = true)
    (model field : String) :
    ∃ error, .fail error ∈ validator.reading.type.steps model field := by
  obtain ⟨model', field', hsub⟩ := h.steps_subset model field
  refine ⟨.unsupported node.kind model' field', hsub ?_⟩
  rw [reading_of_isUnsupported hnode, Reading.steps]
  exact List.mem_singleton_self _

/-! ## Resolutions that fail -/

/-- **Unsupported validators.** A validator that reaches an unsupported node resolves in no
registry, at no field. The error is that of an unsupported node that it reaches, or a clash of
names that came first. -/
theorem Reaches.resolve_error (h : validator.Reaches node) (hnode : node.isUnsupported = true)
    (model field : String) (r : Registry) :
    ∃ error, ((resolve validator model field).run.run r).1 = .error error ∧
      ((∃ sort name, error = .clash sort name) ∨
        ∃ other model' field', validator.Reaches other ∧ other.isUnsupported = true ∧
          error = .unsupported other.kind model' field') := by
  have hrun : ((resolve validator model field).run.run r).1 =
      (r.perform (validator.reading.type.steps model field)).1.map fun _ =>
        validator.reading.entry model field := by
    rw [resolve_eq, Resolution.run_bind, Resolution.perform_run]
    rcases r.perform _ with ⟨_ | _, r'⟩ <;> rfl
  rcases hp : r.perform (validator.reading.type.steps model field) with ⟨error | _, r'⟩
  · have herror : (r.perform (validator.reading.type.steps model field)).1 = .error error := by
      rw [hp]
    refine ⟨error, by rw [hrun, herror]; rfl, ?_⟩
    exact (Registry.perform_error herror).imp_right reaches_of_fail
  · obtain ⟨error, hfail⟩ := h.fail_mem hnode model field
    exact absurd (Registry.perform_fulfills hp _ hfail) (fun hfalse => hfalse)

/-- An array of unions with a field of an unknown kind inside the second option, which is behind
an optional wrapper: no registry resolves it. -/
theorem resolve_error_of_variant :
    let text : Validator := .node "string" [] none (.scalar .string)
    let date : Validator := .node "date" [] none .unsupported
    let first : Validator := .node "object" [] (some [("label", text)]) .object
    let span : Validator := .node "object" [] (some [("from", date)]) .object
    let second : Validator := .node "object" [] (some [("label", date), ("span", span)]) .object
    let wrapped : Validator := .node "optional" [] none (.optional second)
    let part : Validator := .node "union" [] none (.union [first, wrapped])
    let parts : Validator := .node "array" [] none (.array part)
    parts.Reaches date ∧ date.isUnsupported = true ∧
      ∀ r, ∃ error, ((resolve parts "blog" "parts").run.run r).1 = .error error ∧
        ((∃ sort name, error = .clash sort name) ∨
          ∃ other model' field', parts.Reaches other ∧ other.isUnsupported = true ∧
            error = .unsupported other.kind model' field') := by
  intro text date first span second wrapped part parts
  have hspan : part.HasPart span := @HasPart.variant _ _ _ _ ("span", span) (.tail _ (.head _))
  have hdate : span.HasPart date := @HasPart.field _ _ _ ("from", date) (.head _)
  have hreaches : parts.Reaches date := .head .element (.head hspan (.head hdate .refl))
  exact ⟨hreaches, by rfl, hreaches.resolve_error rfl "blog" "parts"⟩

/-- Unsupported nodes under a union that are no parts of it: the field of a later option with the
name of an earlier one's, and an option. Both unions resolve. -/
theorem resolve_union_with_unsupported :
    let text : Validator := .node "string" [] none (.scalar .string)
    let date : Validator := .node "date" [] none .unsupported
    let first : Validator := .node "object" [] (some [("when", text)]) .object
    let second : Validator := .node "object" [] (some [("when", date)]) .object
    let repeated : Validator := .node "union" [] none (.union [first, second])
    let bare : Validator := .node "union" [] none (.union [first, date])
    let merged : RecordDef :=
      ⟨"BlogPart", .union none, [("type", .required .string), ("when", .optional .string)]⟩
    date.isUnsupported = true ∧
      (resolve repeated "blog" "part").run.run {} =
        (.ok (.required (.unionRef "BlogPart")), { records := [merged] }) ∧
      (resolve bare "blog" "part").run.run {} =
        (.ok (.required (.unionRef "BlogPart")), { records := [merged] }) := by
  refine ⟨by rfl, by rfl, by rfl⟩

end Validator

end ClientBindings
