import ClientBindings.Proofs.Registry.Order
import ClientBindings.Proofs.Resolution.Unsupported

/-!
# Agreement of definitions

Registrations compare each definition with the one found under its name. A run of them succeeds
exactly if all of its definitions agree, in whatever order they come.

* `Agree`: any two definitions of one sort and name are the same.
* `Registry.perform_ok_iff`: steps succeed from the empty registry exactly if none of them fails
  and their definitions agree. `Registry.mem_definitions`: it then has those definitions.
* `Schema.Harvestable`: every table has fields, none of them reaches an unsupported node, and the
  definitions of the schema agree.
* `Model.ofSchema_agreement`: a schema has a model exactly if it is harvestable, and the order of
  its tables decides nothing but the order of the model.
-/

namespace ClientBindings

/-! ## Definitions that agree -/

/-- Definitions of one sort and one name are the same: enumerations have the same set of values,
records the same kind, with the same discriminant, and the same fields in order. -/
structure Agree (definitions : List Definition) : Prop where
  enums : ∀ d e : EnumDef, .enum d ∈ definitions → .enum e ∈ definitions → d.name = e.name →
    ∀ value, value ∈ d.values ↔ value ∈ e.values
  records : ∀ d e : RecordDef, .record d ∈ definitions → .record e ∈ definitions →
    d.name = e.name → d.kind = e.kind ∧ d.fields = e.fields

/-- A sort and a name stand for one definition. -/
def Unambiguous (definitions : List Definition) : Prop :=
  ∀ d ∈ definitions, ∀ e ∈ definitions, d.sort = e.sort → d.name = e.name → d = e

/-- The values of an enumeration stand in strictly ascending order. -/
def Definition.IsAscending : Definition → Prop
  | .enum d => d.values.Pairwise (· < ·)
  | .record _ => True

section Agree

variable {definitions : List Definition}

theorem Agree.unambiguous (h : Agree definitions)
    (hascending : ∀ d ∈ definitions, d.IsAscending) : Unambiguous definitions := by
  intro d hd e he hsort hname
  cases d with
  | enum d =>
    cases e with
    | record => cases hsort
    | enum e =>
      have hmem := h.enums d e hd he hname
      have hvalues := eq_of_ascending (hascending _ hd) (hascending _ he) hmem
      obtain ⟨name, values⟩ := d
      obtain ⟨other, values'⟩ := e
      cases hname
      cases hvalues
      rfl
  | record d =>
    cases e with
    | enum => cases hsort
    | record e =>
      obtain ⟨hkind, hfields⟩ := h.records d e hd he hname
      obtain ⟨name, kind, fields⟩ := d
      obtain ⟨other, kind', fields'⟩ := e
      cases hname
      cases hkind
      cases hfields
      rfl

theorem Unambiguous.agree (h : Unambiguous definitions) : Agree definitions where
  enums d e hd he hname := by
    cases h _ hd _ he rfl hname
    exact fun _ => Iff.rfl
  records d e hd he hname := by
    cases h _ hd _ he rfl hname
    exact ⟨rfl, rfl⟩

end Agree

/-! ## Runs of definitions that agree -/

namespace Registry

variable {r r' : Registry} {d e : Definition}

theorem lookup_mem {sort : DefinitionSort} {name : String} (h : r.lookup sort name = some d) :
    d ∈ r.definitions ∧ d.sort = sort ∧ d.name = name := by
  cases sort with
  | enum =>
    obtain ⟨definition, hfound, rfl⟩ := Option.map_eq_some_iff.mp h
    have hname : definition.name = name := by simpa using List.find?_some hfound
    refine ⟨List.mem_append_left _ (List.mem_map_of_mem ?_), rfl, hname⟩
    exact List.mem_of_find?_eq_some hfound
  | record =>
    obtain ⟨definition, hfound, rfl⟩ := Option.map_eq_some_iff.mp h
    have hname : definition.name = name := by simpa using List.find?_some hfound
    refine ⟨List.mem_append_right _ (List.mem_map_of_mem ?_), rfl, hname⟩
    exact List.mem_of_find?_eq_some hfound

theorem mem_definitions_push : e ∈ (r.push d).definitions ↔ e ∈ r.definitions ∨ e = d := by
  cases d <;> cases e <;> simp [definitions, push]

/-- A registration among unambiguous definitions succeeds and stays among them. -/
theorem install_unambiguous {all : List Definition} (h : Unambiguous all)
    (hr : r.definitions ⊆ all) (hd : d ∈ all) :
    ∃ r', r.install d = .ok r' ∧ r'.definitions ⊆ all := by
  unfold install
  cases hfound : r.lookup d.sort d.name with
  | none =>
    refine ⟨r.push d, rfl, fun e he => ?_⟩
    rcases mem_definitions_push.mp he with he | rfl
    · exact hr he
    · exact hd
  | some known =>
    obtain ⟨hmem, hsort, hname⟩ := lookup_mem hfound
    obtain rfl : known = d := h known (hr hmem) d hd hsort hname
    exact ⟨r, by simp, hr⟩

theorem perform_unambiguous {all : List Definition} {steps : List Step} (h : Unambiguous all)
    (hr : r.definitions ⊆ all) (hsteps : definitionsOf steps ⊆ all)
    (hfail : ∀ error, .fail error ∉ steps) :
    ∃ r', r.perform steps = (.ok (), r') ∧ r'.definitions ⊆ all := by
  induction steps generalizing r with
  | nil => exact ⟨r, rfl, hr⟩
  | cons step steps ih =>
    cases step with
    | fail error => exact absurd List.mem_cons_self (hfail error)
    | define d =>
      obtain ⟨hd, hrest⟩ := List.cons_subset.mp hsteps
      obtain ⟨r₁, hinstall, hr₁⟩ := install_unambiguous h hr hd
      simp only [perform, hinstall]
      exact ih hr₁ hrest fun error herror => hfail error (List.mem_cons_of_mem _ herror)

end Registry

theorem mem_definitionsOf {steps : List Step} {d : Definition} :
    d ∈ definitionsOf steps ↔ .define d ∈ steps := by
  induction steps with
  | nil => simp
  | cons step steps ih => cases step <;> simp [definitionsOf, ← ih]

/-- The enumerations that a validator gives rise to are sets. -/
theorem Validator.isAscending_of_mem {validator : Validator} {model field : String} {d : Definition}
    (h : .define d ∈ validator.reading.type.steps model field) : d.IsAscending := by
  obtain ⟨node, model', field', -, hown⟩ := exists_ownStep h
  cases hown with
  | enum name strings => exact sortedSet_pairwise strings
  | record d => trivial

namespace Registry

variable {r : Registry} {steps : List Step}

/-- The definitions of a run that succeeds are those that the registry finds. -/
theorem unambiguous_of_perform {r' : Registry} (h : r.perform steps = (.ok (), r')) :
    Unambiguous (definitionsOf steps) := by
  intro d hd e he hsort hname
  have hd : r'.lookup d.sort d.name = some d := perform_fulfills h _ (mem_definitionsOf.mp hd)
  have he : r'.lookup e.sort e.name = some e := perform_fulfills h _ (mem_definitionsOf.mp he)
  rw [hsort, hname, he] at hd
  exact (Option.some.inj hd).symm

theorem no_fail_of_perform {r' : Registry} (h : r.perform steps = (.ok (), r'))
    (error : ModelError) : .fail error ∉ steps :=
  fun herror => perform_fulfills h _ herror

theorem perform_from_empty (h : Unambiguous (definitionsOf steps))
    (hfail : ∀ error, .fail error ∉ steps) :
    ∃ r, ({} : Registry).perform steps = (.ok (), r) ∧ r.definitions ⊆ definitionsOf steps :=
  perform_unambiguous h (List.nil_subset _) (List.Subset.refl _) hfail

/-- A run that succeeds from the empty registry leaves the definitions of its steps. -/
theorem mem_definitions (h : ({} : Registry).perform steps = (.ok (), r)) {d : Definition} :
    d ∈ r.definitions ↔ d ∈ definitionsOf steps := by
  obtain ⟨r', hrun, hsub⟩ := perform_from_empty (unambiguous_of_perform h) (no_fail_of_perform h)
  obtain rfl : r = r' := congrArg Prod.snd (h.symm.trans hrun)
  exact ⟨fun hd => hsub hd,
    fun hd => holds_mem (perform_fulfills h _ (mem_definitionsOf.mp hd))⟩

/-- Steps succeed from the empty registry exactly if none fails and their definitions agree. -/
theorem perform_ok_iff (hascending : ∀ d ∈ definitionsOf steps, d.IsAscending) :
    (∃ r, ({} : Registry).perform steps = (.ok (), r)) ↔
      (∀ error, .fail error ∉ steps) ∧ Agree (definitionsOf steps) := by
  constructor
  · rintro ⟨r, h⟩
    exact ⟨no_fail_of_perform h, (unambiguous_of_perform h).agree⟩
  · rintro ⟨hfail, hagree⟩
    obtain ⟨r, hrun, -⟩ := perform_from_empty (hagree.unambiguous hascending) hfail
    exact ⟨r, hrun⟩

end Registry

/-! ## Schemas -/

namespace TableDeclaration

/-- The definitions that the declaration of a table gives rise to. -/
def definitions (declaration : TableDeclaration) : List Definition :=
  definitionsOf declaration.steps

/-- The declaration has fields, and none of them reaches an unsupported node. -/
def IsSupported (declaration : TableDeclaration) : Prop :=
  ∃ fields, declaration.validator.fields = some fields ∧
    ∀ field ∈ fields, ∀ node, field.2.Reaches node → node.isUnsupported = false

theorem mem_steps_field {declaration : TableDeclaration} {fields : Entries Validator}
    (hfields : declaration.validator.fields = some fields) {step : Step} :
    step ∈ declaration.steps ↔
      ∃ field ∈ fields, step ∈ field.2.reading.type.steps declaration.name field.1 := by
  rw [steps, hfields]
  simp only [fieldReadings_eq, mem_fieldSteps_iff, List.mem_map]
  constructor
  · rintro ⟨_, ⟨field, hfield, rfl⟩, hstep⟩
    exact ⟨field, hfield, hstep⟩
  · rintro ⟨field, hfield, hstep⟩
    exact ⟨_, ⟨field, hfield, rfl⟩, hstep⟩

/-- A declaration is supported exactly if none of its steps fails. -/
theorem isSupported_iff {declaration : TableDeclaration} :
    declaration.IsSupported ↔ ∀ error, .fail error ∉ declaration.steps := by
  cases hfields : declaration.validator.fields with
  | none =>
    constructor
    · rintro ⟨fields, hsome, -⟩
      rw [hfields] at hsome
      cases hsome
    · intro h
      refine absurd ?_ (h (.notObject declaration.kind declaration.name declaration.validator.kind))
      rw [steps, hfields]
      exact List.mem_singleton_self _
  | some fields =>
    simp only [mem_steps_field hfields]
    constructor
    · rintro ⟨fields', hsome, hsupported⟩ error ⟨field, hfield, hfail⟩
      rw [hfields] at hsome
      cases hsome
      obtain ⟨node, -, -, hreaches, hnode, -⟩ := Validator.reaches_of_fail hfail
      rw [hsupported field hfield node hreaches] at hnode
      cases hnode
    · intro h
      refine ⟨fields, hfields, fun field hfield node hreaches => ?_⟩
      by_contra hnode
      obtain ⟨error, hfail⟩ := hreaches.fail_mem (by simpa using hnode) declaration.name field.1
      exact h error ⟨field, hfield, hfail⟩

/-- The enumerations of a declaration are sets. -/
theorem definitions_ascending (declaration : TableDeclaration) :
    ∀ d ∈ declaration.definitions, d.IsAscending := by
  intro d hd
  cases hfields : declaration.validator.fields with
  | none => simp [definitions, steps, hfields, definitionsOf] at hd
  | some fields =>
    obtain ⟨field, -, hstep⟩ := (mem_steps_field hfields).mp (mem_definitionsOf.mp hd)
    exact Validator.isAscending_of_mem hstep

end TableDeclaration

namespace Schema

/-- The definitions that a schema gives rise to, table by table. -/
def definitions (schema : Schema) : List Definition :=
  schema.declarations.flatMap TableDeclaration.definitions

/-- Every table has fields that reach no unsupported node, and all definitions agree. -/
structure Harvestable (schema : Schema) : Prop where
  supported : ∀ declaration ∈ schema.declarations, declaration.IsSupported
  agree : Agree schema.definitions

/-- The two schemas have the same tables in each map, in any order. -/
structure Permuted (schema other : Schema) : Prop where
  owned : schema.owned.Perm other.owned
  orgScoped : schema.orgScoped.Perm other.orgScoped
  base : schema.base.Perm other.base
  singleton : schema.singleton.Perm other.singleton
  children : schema.children.Perm other.children

variable {schema other : Schema}

theorem definitions_eq (schema : Schema) :
    schema.definitions = definitionsOf (schema.declarations.flatMap TableDeclaration.steps) := by
  rw [definitions, definitionsOf, List.filterMap_flatMap]
  rfl

theorem definitions_ascending (schema : Schema) : ∀ d ∈ schema.definitions, d.IsAscending := by
  intro d hd
  obtain ⟨declaration, -, hd⟩ := List.mem_flatMap.mp hd
  exact declaration.definitions_ascending d hd

/-- The declarations are supported exactly if none of their steps fails. -/
theorem supported_iff (schema : Schema) :
    (∀ declaration ∈ schema.declarations, declaration.IsSupported) ↔
      ∀ error, .fail error ∉ schema.declarations.flatMap TableDeclaration.steps := by
  simp only [TableDeclaration.isSupported_iff, List.mem_flatMap]
  constructor
  · rintro h error ⟨declaration, hmem, herror⟩
    exact h declaration hmem error herror
  · intro h declaration hmem error herror
    exact h error ⟨declaration, hmem, herror⟩

theorem Permuted.declarations (h : schema.Permuted other) :
    schema.declarations.Perm other.declarations := by
  unfold Schema.declarations TableDeclaration.ofMap TableDeclaration.ofChildren
  exact ((((h.owned.map _).append (h.orgScoped.map _)).append (h.base.map _)).append
    (h.singleton.map _)).append (h.children.map _)

theorem Permuted.mem_definitions (h : schema.Permuted other) {d : Definition} :
    d ∈ schema.definitions ↔ d ∈ other.definitions := (h.declarations.flatMap_right _).mem_iff

theorem Permuted.symm (h : schema.Permuted other) : other.Permuted schema :=
  ⟨h.owned.symm, h.orgScoped.symm, h.base.symm, h.singleton.symm, h.children.symm⟩

theorem Permuted.harvestable (h : schema.Permuted other) (hschema : schema.Harvestable) :
    other.Harvestable where
  supported declaration hmem := hschema.supported declaration (h.declarations.mem_iff.mpr hmem)
  agree :=
    { enums := fun d e hd he =>
        hschema.agree.enums d e (h.mem_definitions.mpr hd) (h.mem_definitions.mpr he)
      records := fun d e hd he =>
        hschema.agree.records d e (h.mem_definitions.mpr hd) (h.mem_definitions.mpr he) }

end Schema

namespace Model

variable {schema other : Schema} {model model' : Model}

/-- A schema has a model exactly if the steps of its declarations succeed. -/
theorem exists_ofSchema_iff_perform (schema : Schema) :
    (∃ model, Model.ofSchema schema = .ok model) ↔
      ∃ r, ({} : Registry).perform (schema.declarations.flatMap TableDeclaration.steps) =
        (.ok (), r) := by
  constructor
  · rintro ⟨model, h⟩
    exact ⟨_, (Model.ofSchema_ok h).2⟩
  · rintro ⟨r, h⟩
    exact ⟨_, by rw [Model.ofSchema_eq, h]⟩

/-- A schema has a model exactly if it is harvestable. -/
theorem exists_ofSchema_iff (schema : Schema) :
    (∃ model, Model.ofSchema schema = .ok model) ↔ schema.Harvestable := by
  rw [exists_ofSchema_iff_perform,
    Registry.perform_ok_iff (schema.definitions_eq ▸ schema.definitions_ascending),
    ← schema.definitions_eq, ← schema.supported_iff]
  exact ⟨fun ⟨hsupported, hagree⟩ => ⟨hsupported, hagree⟩, fun h => ⟨h.supported, h.agree⟩⟩

/-- A model has the definitions of its schema. -/
theorem mem_definitions (h : Model.ofSchema schema = .ok model) {d : Definition} :
    d ∈ model.registry.definitions ↔ d ∈ schema.definitions := by
  rw [schema.definitions_eq, Registry.mem_definitions (Model.ofSchema_ok h).2]

/-- **Agreement.** A schema has a model exactly if all of its tables have fields, none of them
reaches an unsupported node, and the definitions that they give rise to agree. So the order of the
tables in each map does not decide whether there is a model. The tables of a model are those of the
declarations, in their order, and another order gives the same enumerations and records. -/
theorem ofSchema_agreement (schema : Schema) :
    ((∃ model, Model.ofSchema schema = .ok model) ↔ schema.Harvestable) ∧
    ∀ other, schema.Permuted other →
      ((∃ model, Model.ofSchema schema = .ok model) ↔
        ∃ model, Model.ofSchema other = .ok model) ∧
      ∀ model model', Model.ofSchema schema = .ok model → Model.ofSchema other = .ok model' →
        model.tables = schema.declarations.map TableDeclaration.table ∧
        model'.tables = other.declarations.map TableDeclaration.table ∧
        model.tables.Perm model'.tables ∧
        model.registry.enums.Perm model'.registry.enums ∧
        model.registry.records.Perm model'.registry.records := by
  refine ⟨exists_ofSchema_iff schema, fun other hperm => ⟨?_, fun model model' h h' => ?_⟩⟩
  · rw [exists_ofSchema_iff, exists_ofSchema_iff]
    exact ⟨hperm.harvestable, hperm.symm.harvestable⟩
  · have htables := (Model.ofSchema_ok h).1
    have htables' := (Model.ofSchema_ok h').1
    have hmem (d : Definition) : d ∈ model.registry.definitions ↔
        d ∈ model'.registry.definitions := by
      rw [mem_definitions h, mem_definitions h', hperm.mem_definitions]
    have hdistinct := Model.distinct h
    have hdistinct' := Model.distinct h'
    refine ⟨htables, htables', ?_, ?_, ?_⟩
    · rw [htables, htables']
      exact hperm.declarations.map _
    · refine (List.perm_ext_iff_of_nodup (.of_map _ hdistinct.enums)
        (.of_map _ hdistinct'.enums)).mpr fun d => ?_
      simpa [Registry.definitions] using hmem (.enum d)
    · refine (List.perm_ext_iff_of_nodup (.of_map _ hdistinct.records)
        (.of_map _ hdistinct'.records)).mpr fun d => ?_
      simpa [Registry.definitions] using hmem (.record d)

/-- Two tables that give rise to one enumeration, its values in another order, and one of them to
another one: in either order of the tables, the model has the same two enumerations. -/
theorem ofSchema_agreement_of_swapped :
    let ab : Validator := .node "enum" ["a", "b"] none .enumeration
    let ba : Validator := .node "enum" ["b", "a"] none .enumeration
    let blog : Validator := .node "object" [] (some [("kind", ab), ("partMeta", ab)]) .object
    let part : Validator := .node "object" [] (some [("meta", ba)]) .object
    let schema : Schema := { owned := [("blog", blog), ("blogPart", part)] }
    let other : Schema := { owned := [("blogPart", part), ("blog", blog)] }
    let kind : EnumDef := ⟨"BlogKind", ["a", "b"]⟩
    let partMeta : EnumDef := ⟨"BlogPartMeta", ["a", "b"]⟩
    schema.Permuted other ∧ schema.Harvestable ∧
      (∃ tables, Model.ofSchema schema = .ok ⟨tables, { enums := [kind, partMeta] }⟩) ∧
      (∃ tables, Model.ofSchema other = .ok ⟨tables, { enums := [partMeta, kind] }⟩) ∧
      ∀ model model', Model.ofSchema schema = .ok model → Model.ofSchema other = .ok model' →
        model.tables.Perm model'.tables ∧ model.registry.enums.Perm model'.registry.enums := by
  dsimp only
  have hperm (first second : String × Validator) :
      Schema.Permuted { owned := [first, second] } { owned := [second, first] } :=
    ⟨.swap _ _ _, .refl _, .refl _, .refl _, .refl _⟩
  refine ⟨hperm _ _, (ofSchema_agreement _).1.mp ⟨_, by rfl⟩, ⟨_, by rfl⟩, ⟨_, by rfl⟩, ?_⟩
  intro model model' h h'
  obtain ⟨-, -, htables, henums, -⟩ :=
    ((ofSchema_agreement _).2 _ (hperm _ _)).2 model model' h h'
  exact ⟨htables, henums⟩

end Model

end ClientBindings
