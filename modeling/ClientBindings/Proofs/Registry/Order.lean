import ClientBindings.Client.Declaration
import ClientBindings.Proofs.Resolution.Naming
import Mathlib.Data.List.Nodup
import Mathlib.Logic.Relation

/-!
# The order of synthesized records

A record is registered after everything that its fields refer to, so the records of a registry
stand in an order in which none contains itself.

* `FieldType.KnownIn`, `Definition.RestsOn`: definitions hold what a type, or a definition, refers
  to: enumerations, and records of the right kind.
* `Grounded`: every definition of some steps rests on those before it. The steps of a reading are
  grounded (`Reading.steps_grounded`).
* `Registry.Ordered`: every record rests on the enumerations and on the records before it.
  Appending a definition that rests on the registry keeps it (`Ordered.push`), and so does every
  run of grounded steps, also one that fails (`Ordered.perform`).
* `Registry.Reached.ordered`: so the registries that resolutions reach are ordered, no record
  contains itself, and the declarations of records are in a topological order.
-/

namespace ClientBindings

/-! ## References -/

/-- What the type refers to is among the definitions. -/
def FieldType.KnownIn (definitions : List Definition) : FieldType → Prop
  | .scalar _ => True
  | .enumRef name => ∃ d : EnumDef, .enum d ∈ definitions ∧ d.name = name
  | .array element _ => element.KnownIn definitions
  | .recordRef name => ∃ d : RecordDef, .record d ∈ definitions ∧ d.name = name ∧ d.kind = .nested
  | .unionRef name => ∃ (d : RecordDef) (discriminant : Option String),
      .record d ∈ definitions ∧ d.name = name ∧ d.kind = .union discriminant

/-- What the definition refers to is among the definitions: the types of its fields, and the
enumeration of its tags. -/
def Definition.RestsOn (definitions : List Definition) : Definition → Prop
  | .enum _ => True
  | .record d => (∀ field ∈ d.fields, field.2.type.KnownIn definitions) ∧
      ∀ name, d.kind = .union (some name) → (FieldType.enumRef name).KnownIn definitions

section Mono

variable {definitions later : List Definition}

theorem FieldType.KnownIn.mono {type : FieldType} (hsub : definitions ⊆ later)
    (h : type.KnownIn definitions) : type.KnownIn later := by
  induction type with
  | scalar => trivial
  | enumRef name =>
    obtain ⟨d, hd, hname⟩ := h
    exact ⟨d, hsub hd, hname⟩
  | array element _ ih => exact ih h
  | recordRef name =>
    obtain ⟨d, hd, hname⟩ := h
    exact ⟨d, hsub hd, hname⟩
  | unionRef name =>
    obtain ⟨d, discriminant, hd, hname⟩ := h
    exact ⟨d, discriminant, hsub hd, hname⟩

theorem Definition.RestsOn.mono {d : Definition} (hsub : definitions ⊆ later)
    (h : d.RestsOn definitions) : d.RestsOn later := by
  cases d with
  | enum => trivial
  | record d => exact ⟨fun field hfield => (h.1 field hfield).mono hsub,
      fun name hname => FieldType.KnownIn.mono hsub (h.2 name hname)⟩

end Mono

/-! ## Grounded steps -/

/-- Every definition of the steps rests on `before` and on the definitions of earlier steps. What
comes after a failure is not registered. -/
def Grounded (before : List Definition) : List Step → Prop
  | [] => True
  | .define d :: steps => d.RestsOn before ∧ Grounded (before ++ [d]) steps
  | .fail _ :: _ => True

theorem Grounded.append {before : List Definition} {steps rest : List Step}
    (hsteps : Grounded before steps) (hrest : Grounded (before ++ definitionsOf steps) rest) :
    Grounded before (steps ++ rest) := by
  induction steps generalizing before with
  | nil => simpa using hrest
  | cons step steps ih =>
    cases step with
    | fail => trivial
    | define d => exact ⟨hsteps.1, ih hsteps.2 (by simpa using hrest)⟩

/-- The type that a reading gets is known in the definitions that it gives rise to. -/
theorem Reading.fieldType_known (reading : Reading) (model field : String) :
    (reading.fieldType model field).KnownIn (definitionsOf (reading.steps model field)) :=
  match reading with
  | .scalar _ => trivial
  | .enumeration values => by
    rw [Reading.fieldType, Reading.steps]
    exact ⟨⟨synthesizedName model field, values⟩, by simp, rfl⟩
  | .array ⟨element, _⟩ => by
    rw [Reading.fieldType, Reading.steps]
    exact element.fieldType_known model _
  | .object fields => by
    rw [Reading.fieldType, Reading.steps, definitionsOf_append]
    exact ⟨_, List.mem_append_right _ (List.mem_singleton_self _), rfl, rfl⟩
  | .union tags fields => by
    rw [Reading.fieldType, Reading.steps, definitionsOf_append, definitionsOf_append]
    exact ⟨_, _, List.mem_append_right _ (List.mem_append_right _ (List.mem_singleton_self _)),
      rfl, rfl⟩
  | .unsupported _ => trivial

/-- The types of fields are known in the definitions that the fields give rise to. -/
theorem entriesOf_known {fields : List (String × Slot Reading)} {model : String}
    {entry : String × FieldEntry} (h : entry ∈ entriesOf fields model) :
    entry.2.type.KnownIn (definitionsOf (fieldSteps fields model)) := by
  induction fields with
  | nil => simp [entriesOf] at h
  | cons field rest ih =>
    obtain ⟨name, reading, isOptional⟩ := field
    rw [fieldSteps, definitionsOf_append]
    rcases List.mem_cons.mp h with rfl | h
    · exact (reading.fieldType_known model name).mono (List.subset_append_left _ _)
    · exact (ih h).mono (List.subset_append_right _ _)

mutual

/-- The definitions that a reading gives rise to rest on each other, in their order. -/
theorem Reading.steps_grounded (reading : Reading) (model field : String)
    (before : List Definition) : Grounded before (reading.steps model field) :=
  match reading with
  | .scalar _ => trivial
  | .enumeration _ => ⟨trivial, trivial⟩
  | .array ⟨element, _⟩ => by
    rw [Reading.steps]
    exact element.steps_grounded model _ before
  | .object fields => by
    rw [Reading.steps]
    refine (fieldSteps_grounded fields _ before).append ⟨⟨fun entry hentry => ?_, nofun⟩, trivial⟩
    exact (entriesOf_known hentry).mono (List.subset_append_right _ _)
  | .union tags fields => by
    rw [Reading.steps]
    generalize discriminantName (synthesizedName model field) tags = discriminant
    refine Grounded.append ?_ ((fieldSteps_grounded fields _ _).append
      ⟨⟨fun entry hentry => ?_, fun enum hkind => ?_⟩, trivial⟩)
    · cases discriminant with
      | none => trivial
      | some enum => exact ⟨trivial, trivial⟩
    · rcases List.mem_cons.mp hentry with rfl | hentry
      · cases discriminant with
        | none => trivial
        | some enum => exact ⟨⟨enum, tags⟩, by simp, rfl⟩
      · exact (entriesOf_known hentry).mono (List.subset_append_right _ _)
    · cases hkind
      exact ⟨⟨enum, tags⟩, by simp, rfl⟩
  | .unsupported _ => trivial

/-- The definitions that fields give rise to rest on each other, in their order. -/
theorem fieldSteps_grounded (fields : List (String × Slot Reading)) (model : String)
    (before : List Definition) : Grounded before (fieldSteps fields model) :=
  match fields with
  | [] => trivial
  | (field, ⟨reading, _⟩) :: rest => by
    rw [fieldSteps]
    exact (reading.steps_grounded model field before).append (fieldSteps_grounded rest model _)

end

namespace Registry

variable {r : Registry}

/-- The definitions of a registry. -/
def definitions (r : Registry) : List Definition := r.enums.map .enum ++ r.records.map .record

theorem enum_mem_definitions {d : EnumDef} : .enum d ∈ r.definitions ↔ d ∈ r.enums := by
  simp [definitions]

theorem record_mem_definitions {d : RecordDef} : .record d ∈ r.definitions ↔ d ∈ r.records := by
  simp [definitions]

/-- Every record rests on the enumerations and on the records before it. -/
def Ordered (r : Registry) : Prop :=
  ∀ before record after, r.records = before ++ record :: after →
    (Definition.record record).RestsOn (r.enums.map .enum ++ before.map .record)

theorem Ordered.empty : Ordered {} := by
  intro before record after h
  simp at h

theorem Ordered.push {d : Definition} (h : r.Ordered) (hd : d.RestsOn r.definitions) :
    (r.push d).Ordered := by
  intro before record after hsplit
  cases d with
  | enum definition =>
    refine (h before record after hsplit).mono ?_
    simp [Registry.push]
  | record definition =>
    simp only [Registry.push] at hsplit ⊢
    -- The record is the new one, or it was there with the same records before it.
    rcases List.eq_nil_or_concat after with rfl | ⟨after, last, rfl⟩
    · obtain ⟨rfl, hlast⟩ := List.append_inj' hsplit rfl
      cases hlast
      exact hd
    · rw [List.concat_eq_append, ← List.cons_append, ← List.append_assoc] at hsplit
      obtain ⟨hrecords, -⟩ := List.append_inj' hsplit rfl
      exact h before record after hrecords

theorem holds_mem {d : Definition} (h : r.Holds d) : d ∈ r.definitions := by
  cases d with
  | enum definition =>
    have hmem := List.mem_of_find?_eq_some (holds_enum.mp h)
    exact List.mem_append_left _ (List.mem_map.mpr ⟨_, hmem, rfl⟩)
  | record definition =>
    have hmem := List.mem_of_find?_eq_some (holds_record.mp h)
    exact List.mem_append_right _ (List.mem_map.mpr ⟨_, hmem, rfl⟩)

/-- A run of grounded steps keeps the order, also if it fails: the registry then ends with the
definitions before the failure. -/
theorem Ordered.perform {before : List Definition} {steps : List Step} (h : r.Ordered)
    (hbefore : ∀ d ∈ before, r.Holds d) (hsteps : Grounded before steps) :
    (r.perform steps).2.Ordered := by
  induction steps generalizing r before with
  | nil => exact h
  | cons step steps ih =>
    cases step with
    | fail => exact h
    | define d =>
      simp only [Registry.perform]
      cases hd : r.install d with
      | error => exact h
      | ok r' =>
        obtain ⟨hrests, hsteps⟩ := hsteps
        have hholds : ∀ e ∈ before ++ [d], r'.Holds e := by
          intro e he
          rcases List.mem_append.mp he with he | he
          · exact (hbefore e he).mono (le_install hd)
          · rw [List.mem_singleton.mp he]
            exact (install_ok hd).1
        obtain ⟨-, rfl | ⟨-, rfl⟩⟩ := install_ok hd
        · exact ih h hholds hsteps
        · have hsub : before ⊆ r.definitions := fun e he => holds_mem (hbefore e he)
          exact ih (h.push (hrests.mono hsub)) hholds hsteps

/-! ## Reached registries -/

/-- The registries that resolutions reach from the empty one, whether each succeeds or fails. -/
inductive Reached : Registry → Prop
  | empty : Reached {}
  | resolve {r : Registry} (validator : Validator) (model field : String) (h : Reached r) :
      Reached ((resolve validator model field).run.run r).2

/-- A resolution leaves the registry that its steps leave. -/
theorem resolve_registry (r : Registry) (validator : Validator) (model field : String) :
    ((resolve validator model field).run.run r).2 =
      (r.perform (validator.reading.type.steps model field)).2 := by
  rw [resolve_eq, Resolution.run_bind, Resolution.perform_run]
  rcases r.perform _ with ⟨_ | _, r'⟩ <;> rfl

theorem Reached.distinct (h : r.Reached) : r.Distinct := by
  induction h with
  | empty => exact .empty
  | resolve validator model field _ ih =>
    rw [resolve_registry]
    exact ih.perform _

theorem Reached.isOrdered (h : r.Reached) : r.Ordered := by
  induction h with
  | empty => exact .empty
  | resolve validator model field _ ih =>
    rw [resolve_registry]
    have hgrounded := validator.reading.type.steps_grounded model field []
    exact ih.perform (fun d hd => absurd hd List.not_mem_nil) hgrounded

end Registry

/-! ## Containment -/

/-- The record that values of the type contain, at any depth of arrays. -/
def FieldType.record? : FieldType → Option String
  | .scalar _ => none
  | .enumRef _ => none
  | .array element _ => element.record?
  | .recordRef name => some name
  | .unionRef name => some name

/-- A type that refers to a record is known only where there is one of that name. -/
theorem FieldType.KnownIn.record {definitions : List Definition} {type : FieldType} {name : String}
    (h : type.KnownIn definitions) (hname : type.record? = some name) :
    ∃ d : RecordDef, .record d ∈ definitions ∧ d.name = name := by
  induction type with
  | scalar => cases hname
  | enumRef => cases hname
  | array element _ ih => exact ih h hname
  | recordRef =>
    cases hname
    obtain ⟨d, hd, hname, -⟩ := h
    exact ⟨d, hd, hname⟩
  | unionRef =>
    cases hname
    obtain ⟨d, -, hd, hname, -⟩ := h
    exact ⟨d, hd, hname⟩

namespace Registry

variable {r : Registry}

/-- A field of the record `outer` has values that contain the record `inner`. -/
def Contains (r : Registry) (outer inner : String) : Prop :=
  ∃ record ∈ r.records, record.name = outer ∧
    ∃ field ∈ record.fields, field.2.type.record? = some inner

/-- The records that a record contains stand before it. -/
theorem Ordered.contains_before (h : r.Ordered) (hdistinct : r.Distinct)
    {before after : List RecordDef} {record : RecordDef}
    (hsplit : r.records = before ++ record :: after) {inner : String}
    (hcontains : r.Contains record.name inner) : inner ∈ before.map (·.name) := by
  obtain ⟨known, hknown, hname, field, hfield, hinner⟩ := hcontains
  obtain rfl : known = record :=
    List.inj_on_of_nodup_map hdistinct.records hknown (by simp [hsplit]) hname
  obtain ⟨d, hd, rfl⟩ := ((h before known after hsplit).1 field hfield).record hinner
  have hmem : d ∈ before := by simpa using hd
  exact List.mem_map.mpr ⟨d, hmem, rfl⟩

/-- The position of a name among the names of the records. -/
def position (r : Registry) (name : String) : Nat := (r.records.map (·.name)).idxOf name

theorem Ordered.position_lt (h : r.Ordered) (hdistinct : r.Distinct) {outer inner : String}
    (hcontains : r.Contains outer inner) : r.position inner < r.position outer := by
  obtain ⟨record, hrecord, rfl, -⟩ := id hcontains
  obtain ⟨before, after, hsplit⟩ := List.append_of_mem hrecord
  have hinner := h.contains_before hdistinct hsplit hcontains
  have hnames : r.records.map (·.name) =
      before.map (·.name) ++ record.name :: after.map (·.name) := by
    rw [hsplit, List.map_append, List.map_cons]
  have houter : record.name ∉ before.map (·.name) := by
    have hnodup := hdistinct.records
    rw [hnames] at hnodup
    exact fun hmem => (List.nodup_append.mp hnodup).2.2 _ hmem _ List.mem_cons_self rfl
  calc r.position inner
      = (before.map (·.name)).idxOf inner := by
        rw [position, hnames, List.idxOf_append_of_mem hinner]
    _ < (before.map (·.name)).length := List.idxOf_lt_length_of_mem hinner
    _ = r.position record.name := by
        rw [position, hnames, List.idxOf_append_of_notMem houter, List.idxOf_cons_self]
        rfl

/-- No record contains itself, at any number of removes. -/
theorem Ordered.acyclic (h : r.Ordered) (hdistinct : r.Distinct) (name : String) :
    ¬ Relation.TransGen r.Contains name name := by
  have hlt {outer inner : String} (hpath : Relation.TransGen r.Contains outer inner) :
      r.position inner < r.position outer := by
    induction hpath with
    | single hcontains => exact h.position_lt hdistinct hcontains
    | tail _ hcontains ih => exact lt_trans (h.position_lt hdistinct hcontains) ih
  exact fun hpath => lt_irrefl _ (hlt hpath)

/-- A declaration comes after those of the records that its record contains. -/
theorem Ordered.recordDecls_before (h : r.Ordered) (hdistinct : r.Distinct)
    {before after : List StructDecl} {struct : StructDecl}
    (hsplit : recordDecls r = before ++ struct :: after) {inner : String}
    (hcontains : r.Contains struct.name inner) : inner ∈ before.map (·.name) := by
  obtain ⟨records, rest, hrecords, rfl, hrest⟩ := List.map_eq_append_iff.mp hsplit
  obtain ⟨record, later, rfl, rfl, rfl⟩ := List.map_eq_cons_iff.mp hrest
  rw [List.map_map]
  exact h.contains_before hdistinct hrecords hcontains

/-- **Order of synthesized records.** In a registry that resolutions reach, whether they succeed or
fail, every record rests on the enumerations and on the records registered before it. So no record
contains itself, and the declarations of the records are in a topological order. -/
theorem Reached.ordered (h : r.Reached) :
    r.Ordered ∧
    (∀ name, ¬ Relation.TransGen r.Contains name name) ∧
    ∀ before struct after, recordDecls r = before ++ struct :: after →
      ∀ inner, r.Contains struct.name inner → inner ∈ before.map (·.name) :=
  ⟨h.isOrdered, h.isOrdered.acyclic h.distinct,
    fun _ _ _ hsplit _ => h.isOrdered.recordDecls_before h.distinct hsplit⟩

/-- An object with a list of variants and a field of an unknown kind: its resolution fails, and
what it registered for the list stays. -/
theorem ordered_of_failed_resolution :
    let level : Validator := .node "enum" ["high", "low"] none .enumeration
    let info : Validator := .node "object" [] (some [("level", level)]) .object
    let tag : Validator := .node "literal" ["text"] none .unsupported
    let variant : Validator := .node "object" [] (some [("type", tag), ("meta", info)]) .object
    let part : Validator := .node "union" [] none (.union [variant])
    let parts : Validator := .node "array" [] none (.array part)
    let date : Validator := .node "date" [] none .unsupported
    let log : Validator := .node "object" [] (some [("parts", parts), ("when", date)]) .object
    let r := ((resolve log "chat" "log").run.run {}).2
    r.records.map (·.name) = ["ChatlogPartMeta", "ChatlogPart"] ∧
      r.Contains "ChatlogPart" "ChatlogPartMeta" ∧ r.Reached ∧ r.Ordered ∧
      (∀ name, ¬ Relation.TransGen r.Contains name name) ∧
      ∀ before struct after, recordDecls r = before ++ struct :: after →
        ∀ inner, r.Contains struct.name inner → inner ∈ before.map (·.name) := by
  intro level info tag variant part parts date log r
  have hreached : r.Reached := .resolve log "chat" "log" .empty
  refine ⟨by rfl, ?_, hreached, hreached.ordered⟩
  exact ⟨_, .tail _ (.head _), by rfl, _, .tail _ (.head _), by rfl⟩

end Registry

end ClientBindings
