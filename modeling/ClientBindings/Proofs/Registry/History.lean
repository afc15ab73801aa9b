import ClientBindings.Proofs.Resolution.Agreement

/-!
# The history of a registry

Registrations and resolutions on one registry, one after the other, whether each succeeds or fails.

* `Operation.run`: how an operation ends, and the registry that it leaves. Each one performs steps
  (`Operation.run_eq`), so it only appends.
* `Registry.install_eq_error_iff`: a registration is refused exactly if its name stands for another
  definition. That of an enumeration is one with another set of values (`hasOther_enum_iff`).
* `Registry.Reachable`: the registries that operations reach from the empty one. Their names are
  distinct, and the values of their enumerations are sets.
* `Registry.Lawful`, `Registry.Reachable.lawful`: what every operation does to a registry that is
  reached.
-/

namespace ClientBindings

/-- An operation on a registry. -/
inductive Operation
  /-- Registers an enumeration of the given values. -/
  | enum (name : String) (values : List String)
  /-- Registers a record. -/
  | record (definition : RecordDef)
  /-- Resolves the validator of a field. -/
  | resolve (validator : Validator) (model field : String)

namespace Operation

/-- The operation as a resolution. -/
def resolution : Operation → Resolution Unit
  | .enum name values => Resolution.addEnum name values
  | .record definition => Resolution.addRecord definition
  | .resolve validator model field => do
    let _ ← ClientBindings.resolve validator model field

/-- How the operation ends, and the registry that it leaves. -/
def run (operation : Operation) (r : Registry) : Except ModelError Unit × Registry :=
  operation.resolution.run.run r

/-- The definitions that the operation gives rise to. -/
def steps : Operation → List Step
  | .enum name values => [.define (.enum ⟨name, sortedSet values⟩)]
  | .record definition => [.define (.record definition)]
  | .resolve validator model field => validator.reading.type.steps model field

/-- An operation performs its steps. -/
theorem run_eq (operation : Operation) (r : Registry) :
    operation.run r = r.perform operation.steps := by
  cases operation with
  | enum name values => rw [run, resolution, Resolution.addEnum_perform]; rfl
  | record definition => rw [run, resolution, Resolution.addRecord_perform]; rfl
  | resolve validator model field =>
    simp only [run, resolution, resolve_eq, bind_assoc, Resolution.run_bind,
      Resolution.perform_run, steps]
    rcases r.perform (validator.reading.type.steps model field) with ⟨_ | _, r'⟩ <;> rfl

/-- The operation registers a definition that it is given. -/
inductive IsRegistration : Operation → Prop
  | enum (name : String) (values : List String) : IsRegistration (.enum name values)
  | record (definition : RecordDef) : IsRegistration (.record definition)

theorem IsRegistration.steps_eq {operation : Operation} (h : operation.IsRegistration) :
    ∃ d, operation.steps = [.define d] := by
  cases h with
  | enum name values => exact ⟨_, rfl⟩
  | record definition => exact ⟨_, rfl⟩

/-- The enumerations of an operation are sets. -/
theorem isAscending_of_mem {operation : Operation} {d : Definition}
    (h : .define d ∈ operation.steps) : d.IsAscending := by
  cases operation with
  | enum name values =>
    obtain rfl : d = .enum ⟨name, sortedSet values⟩ := by simpa [steps] using h
    exact sortedSet_pairwise values
  | record definition =>
    obtain rfl : d = .record definition := by simpa [steps] using h
    trivial
  | resolve validator model field => exact Validator.isAscending_of_mem h

end Operation

namespace Registry

variable {r : Registry}

/-! ## Refused registrations -/

/-- With distinct names, a definition is what its name stands for. -/
theorem Distinct.holds (h : r.Distinct) {d : Definition} (hd : d ∈ r.definitions) : r.Holds d := by
  cases d with
  | enum definition =>
    exact holds_enum.mpr (h.enum?_eq_some.mpr ⟨enum_mem_definitions.mp hd, rfl⟩)
  | record definition =>
    exact holds_record.mpr (h.record?_eq_some.mpr ⟨record_mem_definitions.mp hd, rfl⟩)

/-- The name of the definition stands for another one of its sort. -/
def HasOther (r : Registry) (d : Definition) : Prop :=
  ∃ known ∈ r.definitions, known.sort = d.sort ∧ known.name = d.name ∧ known ≠ d

/-- A registration is refused exactly if its name stands for another definition. -/
theorem install_eq_error_iff (h : r.Distinct) (d : Definition) :
    r.install d = .error (.clash d.sort d.name) ↔ r.HasOther d := by
  unfold install
  constructor
  · intro hrefused
    cases hfound : r.lookup d.sort d.name with
    | none => simp [hfound] at hrefused
    | some known =>
      obtain ⟨hknown, hsort, hname⟩ := lookup_mem hfound
      refine ⟨known, hknown, hsort, hname, ?_⟩
      rintro rfl
      simp [hfound] at hrefused
  · rintro ⟨known, hknown, hsort, hname, hne⟩
    have hfound : r.lookup known.sort known.name = some known := h.holds hknown
    rw [hsort, hname] at hfound
    simp [hfound, hne]

/-- A record of the same name that differs in its kind, its discriminant, or its fields in order. -/
theorem hasOther_record_iff {definition : RecordDef} :
    r.HasOther (.record definition) ↔ ∃ known ∈ r.records, known.name = definition.name ∧
      ¬ (known.kind = definition.kind ∧ known.fields = definition.fields) := by
  constructor
  · rintro ⟨known, hknown, hsort, hname, hne⟩
    cases known with
    | enum => cases hsort
    | record known =>
      refine ⟨known, record_mem_definitions.mp hknown, hname, ?_⟩
      rintro ⟨hkind, hfields⟩
      obtain ⟨name, kind, fields⟩ := known
      obtain ⟨other, kind', fields'⟩ := definition
      cases hname
      cases hkind
      cases hfields
      exact hne rfl
  · rintro ⟨known, hknown, hname, hne⟩
    refine ⟨.record known, record_mem_definitions.mpr hknown, rfl, hname, ?_⟩
    rintro ⟨⟩
    exact hne ⟨rfl, rfl⟩

/-- An enumeration of the same name that has another set of values. -/
theorem hasOther_enum_iff (h : ∀ d ∈ r.definitions, d.IsAscending) {name : String}
    {values : List String} :
    r.HasOther (.enum ⟨name, sortedSet values⟩) ↔ ∃ known ∈ r.enums, known.name = name ∧
      ¬ ∀ value, value ∈ known.values ↔ value ∈ values := by
  constructor
  · rintro ⟨known, hknown, hsort, hname, hne⟩
    cases known with
    | record => cases hsort
    | enum known =>
      refine ⟨known, enum_mem_definitions.mp hknown, hname, fun hvalues => hne ?_⟩
      have hset : known.values = sortedSet values :=
        eq_of_ascending (h _ hknown) (sortedSet_pairwise values) (by simpa using hvalues)
      obtain ⟨other, values'⟩ := known
      cases hname
      cases hset
      rfl
  · rintro ⟨known, hknown, hname, hne⟩
    refine ⟨.enum known, enum_mem_definitions.mpr hknown, rfl, hname, ?_⟩
    rintro ⟨⟩
    exact hne fun _ => mem_sortedSet

/-! ## Reached registries -/

/-- A run adds no definitions but those of its steps. -/
theorem mem_of_mem_perform {steps : List Step} {d : Definition}
    (h : d ∈ (r.perform steps).2.definitions) :
    d ∈ r.definitions ∨ .define d ∈ steps := by
  induction steps generalizing r with
  | nil => exact .inl h
  | cons step steps ih =>
    cases step with
    | fail => exact .inl h
    | define e =>
      simp only [perform] at h
      cases he : r.install e with
      | error => exact .inl (by simpa [he] using h)
      | ok r' =>
        simp only [he] at h
        rcases ih h with h | h
        · obtain ⟨-, rfl | ⟨-, rfl⟩⟩ := install_ok he
          · exact .inl h
          · refine (mem_definitions_push.mp h).imp_right ?_
            rintro rfl
            exact List.mem_cons_self
        · exact .inr (List.mem_cons_of_mem _ h)

/-- The registries that operations reach from the empty one, whether they succeed or fail. -/
inductive Reachable : Registry → Prop
  | empty : Reachable {}
  | run {r : Registry} (operation : Operation) (h : Reachable r) : Reachable (operation.run r).2

/-- An operation leaves the definitions that there were as they were, in front of the new ones. -/
theorem le_run (r : Registry) (operation : Operation) : r ≤ (operation.run r).2 := by
  rw [operation.run_eq]
  exact le_perform r _

theorem Reachable.distinct (h : r.Reachable) : r.Distinct := by
  induction h with
  | empty => exact .empty
  | run operation _ ih =>
    rw [operation.run_eq]
    exact ih.perform _

theorem Reachable.ascending (h : r.Reachable) : ∀ d ∈ r.definitions, d.IsAscending := by
  induction h with
  | empty => simp [definitions]
  | run operation _ ih =>
    intro d hd
    rw [operation.run_eq] at hd
    rcases mem_of_mem_perform hd with hd | hd
    · exact ih d hd
    · exact Operation.isAscending_of_mem hd

/-- A registration alone fails exactly if its name stands for another definition. -/
theorem Distinct.perform_define_error_iff (h : r.Distinct) (d : Definition) :
    (∃ error, (r.perform [.define d]).1 = .error error) ↔ r.HasOther d := by
  rw [← install_eq_error_iff h]
  cases hd : r.install d with
  | ok r' => simp [Registry.perform, hd]
  | error error =>
    obtain rfl := install_error hd
    simp [Registry.perform, hd]

/-- If it fails, the registry stays as it was. -/
theorem perform_define_of_error {d : Definition} {error : ModelError}
    (h : (r.perform [.define d]).1 = .error error) : (r.perform [.define d]).2 = r := by
  cases hd : r.install d with
  | ok r' => simp [perform, hd] at h
  | error error => simp [perform, hd]

/-- What holds of a registry, and of every operation on it. -/
structure Lawful (r : Registry) : Prop where
  enumNames : (r.enums.map (·.name)).Nodup
  recordNames : (r.records.map (·.name)).Nodup
  /-- An operation leaves the enumerations as they were, in front of those that it adds. -/
  enums : ∀ operation : Operation, r.enums <+: (operation.run r).2.enums
  /-- It leaves the records as they were, in front of those that it adds. -/
  records : ∀ operation : Operation, r.records <+: (operation.run r).2.records
  /-- An enumeration is refused exactly if its name has another set of values. -/
  enumRefused : ∀ name values,
    (∃ error, ((Operation.enum name values).run r).1 = .error error) ↔
      ∃ known ∈ r.enums, known.name = name ∧ ¬ ∀ value, value ∈ known.values ↔ value ∈ values
  /-- A record is refused exactly if its name has another kind, with its discriminant, or other
  fields, in order. -/
  recordRefused : ∀ definition,
    (∃ error, ((Operation.record definition).run r).1 = .error error) ↔
      ∃ known ∈ r.records, known.name = definition.name ∧
        ¬ (known.kind = definition.kind ∧ known.fields = definition.fields)
  /-- A registration that is refused changes nothing. -/
  unchanged : ∀ operation : Operation, operation.IsRegistration →
    ∀ error, (operation.run r).1 = .error error → (operation.run r).2 = r

/-- **History.** Whatever operations a registry went through, successful or not, its names are
distinct, every operation only appends to it, and what it refuses is a name with another
definition. -/
theorem Reachable.lawful (h : r.Reachable) : r.Lawful where
  enumNames := h.distinct.enums
  recordNames := h.distinct.records
  enums operation := (le_iff.mp (r.le_run operation)).1
  records operation := (le_iff.mp (r.le_run operation)).2
  enumRefused name values := by
    rw [Operation.run_eq, ← hasOther_enum_iff h.ascending]
    exact h.distinct.perform_define_error_iff _
  recordRefused definition := by
    rw [Operation.run_eq, ← hasOther_record_iff]
    exact h.distinct.perform_define_error_iff _
  unchanged operation hregistration error herror := by
    obtain ⟨d, hd⟩ := hregistration.steps_eq
    rw [operation.run_eq, hd] at herror ⊢
    exact perform_define_of_error herror

/-- Two enumerations, one of them registered by a resolution that then fails, and a record. The
values of an enumeration may come in any order, the fields of a record may not. -/
theorem lawful_of_failed_resolution :
    let level : Validator := .node "enum" ["high", "low"] none .enumeration
    let date : Validator := .node "date" [] none .unsupported
    let info : Validator := .node "object" [] (some [("level", level), ("when", date)]) .object
    let span (first last : String) : RecordDef :=
      ⟨"Span", .nested, [(first, .required .number), (last, .required .number)]⟩
    let r₁ := ((Operation.enum "Kind" ["b", "a"]).run {}).2
    let r₂ := ((Operation.resolve info "chat" "info").run r₁).2
    let r := ((Operation.record (span "from" "to")).run r₂).2
    r = ⟨[⟨"Kind", ["a", "b"]⟩, ⟨"ChatinfoLevel", ["high", "low"]⟩], [span "from" "to"]⟩ ∧
      (Operation.enum "Kind" ["a", "b"]).run r = (.ok (), r) ∧
      (Operation.enum "Kind" ["a", "c"]).run r = (.error (.clash .enum "Kind"), r) ∧
      (Operation.record (span "to" "from")).run r = (.error (.clash .record "Span"), r) ∧
      r.Reachable ∧ r.Lawful := by
  intro level date info span r₁ r₂ r
  have hreachable : r.Reachable := .run _ (.run _ (.run _ .empty))
  exact ⟨by rfl, by rfl, by rfl, by rfl, hreachable, hreachable.lawful⟩

end Registry

end ClientBindings
