import ClientBindings.Model.Resolution
import Mathlib.Data.List.Nodup
import Mathlib.Order.Defs.PartialOrder

/-!
# Registration

Enumerations and records are registered alike: a definition of either sort is looked up by its
name, appended if the name is free, and refused if it differs from the one found.

* `Definition`, `Registry.install`: both registrations as one (`addEnum_eq`, `addRecord_eq`).
* `r ≤ r'`: the definitions of `r` are the first ones of `r'`. What `r` finds under a name, `r'`
  finds too (`lookup_mono`).
* `Step`, `Registry.perform`: definitions registered one after the other, up to the first failure.
  A run only appends (`le_perform`); a run that succeeds leaves every definition of its steps
  registered (`perform_fulfills`).
* `Registry.Distinct`: no two definitions of one sort have the same name. Every run keeps it
  (`Distinct.perform`).
-/

namespace ClientBindings

/-- A definition of either sort. -/
inductive Definition
  | enum (definition : EnumDef)
  | record (definition : RecordDef)
  deriving DecidableEq

namespace Definition

/-- The sort of the definition. -/
def sort : Definition → DefinitionSort
  | .enum _ => .enum
  | .record _ => .record

/-- The name it is registered under. -/
def name : Definition → String
  | .enum definition => definition.name
  | .record definition => definition.name

end Definition

namespace Registry

variable {r r' : Registry} {d : Definition}

/-- The definition of a sort under a name. -/
def lookup (r : Registry) : DefinitionSort → String → Option Definition
  | .enum, name => (r.enum? name).map .enum
  | .record, name => (r.record? name).map .record

/-- The registry with one more definition. -/
def push (r : Registry) : Definition → Registry
  | .enum definition => { r with enums := r.enums ++ [definition] }
  | .record definition => { r with records := r.records ++ [definition] }

/-- Registers a definition. -/
def install (r : Registry) (d : Definition) : Except ModelError Registry :=
  match r.lookup d.sort d.name with
  | none => .ok (r.push d)
  | some known => if known = d then .ok r else .error (.clash d.sort d.name)

/-- The definition is what the registry finds under its name. -/
def Holds (r : Registry) (d : Definition) : Prop := r.lookup d.sort d.name = some d

theorem addEnum_eq (r : Registry) (name : String) (values : List String) :
    r.addEnum name values = r.install (.enum ⟨name, sortedSet values⟩) := by
  simp only [addEnum, install, lookup, Definition.sort, Definition.name, push]
  cases r.enum? name <;> simp

theorem addRecord_eq (r : Registry) (definition : RecordDef) :
    r.addRecord definition = r.install (.record definition) := by
  simp only [addRecord, install, lookup, Definition.sort, Definition.name, push]
  cases r.record? definition.name <;> simp

theorem holds_enum {definition : EnumDef} :
    r.Holds (.enum definition) ↔ r.enum? definition.name = some definition := by
  simp [Holds, lookup, Definition.sort, Definition.name]

theorem holds_record {definition : RecordDef} :
    r.Holds (.record definition) ↔ r.record? definition.name = some definition := by
  simp [Holds, lookup, Definition.sort, Definition.name]

/-! ## The order of registries -/

/-- A registry is below another one if its definitions are the first ones of the other. -/
instance : Preorder Registry where
  le r r' := r.enums <+: r'.enums ∧ r.records <+: r'.records
  le_refl r := ⟨List.prefix_rfl, List.prefix_rfl⟩
  le_trans _ _ _ h h' := ⟨h.1.trans h'.1, h.2.trans h'.2⟩

theorem le_iff : r ≤ r' ↔ r.enums <+: r'.enums ∧ r.records <+: r'.records := Iff.rfl

theorem le_push (r : Registry) (d : Definition) : r ≤ r.push d := by
  cases d with
  | enum => exact le_iff.mpr ⟨List.prefix_append _ _, List.prefix_rfl⟩
  | record => exact le_iff.mpr ⟨List.prefix_rfl, List.prefix_append _ _⟩

theorem lookup_mono {sort : DefinitionSort} {name : String} (hle : r ≤ r')
    (h : r.lookup sort name = some d) : r'.lookup sort name = some d := by
  obtain ⟨⟨enums, he⟩, ⟨records, hr⟩⟩ := le_iff.mp hle
  cases sort with
  | enum =>
    simp only [lookup, enum?, Option.map_eq_some_iff] at h ⊢
    obtain ⟨definition, hd, rfl⟩ := h
    exact ⟨definition, by rw [← he, List.find?_append, hd, Option.some_or], rfl⟩
  | record =>
    simp only [lookup, record?, Option.map_eq_some_iff] at h ⊢
    obtain ⟨definition, hd, rfl⟩ := h
    exact ⟨definition, by rw [← hr, List.find?_append, hd, Option.some_or], rfl⟩

theorem Holds.mono (h : r.Holds d) (hle : r ≤ r') : r'.Holds d := lookup_mono hle h

theorem holds_push (h : r.lookup d.sort d.name = none) : (r.push d).Holds d := by
  cases d with
  | enum definition =>
    simp only [lookup, Definition.sort, Definition.name, Option.map_eq_none_iff] at h
    refine holds_enum.mpr ?_
    simp only [enum?, push] at h ⊢
    rw [List.find?_append, h]
    simp
  | record definition =>
    simp only [lookup, Definition.sort, Definition.name, Option.map_eq_none_iff] at h
    refine holds_record.mpr ?_
    simp only [record?, push] at h ⊢
    rw [List.find?_append, h]
    simp

/-- What a registration that succeeds does: the definition was there, or its name was free. -/
theorem install_ok (h : r.install d = .ok r') :
    r'.Holds d ∧ (r' = r ∨ r.lookup d.sort d.name = none ∧ r' = r.push d) := by
  unfold install at h
  split at h
  · next hfree =>
    cases h
    exact ⟨holds_push hfree, .inr ⟨hfree, rfl⟩⟩
  · next known hknown =>
    split at h
    · next heq =>
      cases h
      exact ⟨by rw [Holds, hknown, heq], .inl rfl⟩
    · cases h

/-- A registration fails with a clash under the name of its definition. -/
theorem install_error {error : ModelError} (h : r.install d = .error error) :
    error = .clash d.sort d.name := by
  unfold install at h
  split at h
  · cases h
  · split at h
    · cases h
    · cases h
      rfl

theorem le_install (h : r.install d = .ok r') : r ≤ r' := by
  obtain ⟨-, rfl | ⟨-, rfl⟩⟩ := install_ok h
  · exact le_refl r'
  · exact le_push r d

end Registry

/-! ## Runs of registrations -/

/-- A step of a resolution: it registers a definition, or fails. -/
inductive Step
  | define (definition : Definition)
  | fail (error : ModelError)

/-- The definitions that steps register. -/
def definitionsOf (steps : List Step) : List Definition :=
  steps.filterMap fun
    | .define d => some d
    | .fail _ => none

@[simp] theorem definitionsOf_nil : definitionsOf [] = [] := rfl

@[simp] theorem definitionsOf_define (d : Definition) (steps : List Step) :
    definitionsOf (.define d :: steps) = d :: definitionsOf steps := rfl

@[simp] theorem definitionsOf_append (steps rest : List Step) :
    definitionsOf (steps ++ rest) = definitionsOf steps ++ definitionsOf rest :=
  List.filterMap_append

namespace Registry

variable {r r' : Registry}

/-- Performs steps up to the first failure. What was registered before it stays. -/
def perform (r : Registry) : List Step → Except ModelError Unit × Registry
  | [] => (.ok (), r)
  | .fail error :: _ => (.error error, r)
  | .define d :: steps =>
    match r.install d with
    | .ok r' => r'.perform steps
    | .error error => (.error error, r)

/-- The registry has what the step defines. No registry fulfills a failure. -/
def Fulfills (r : Registry) : Step → Prop
  | .define d => r.Holds d
  | .fail _ => False

theorem perform_append (r : Registry) (steps rest : List Step) :
    r.perform (steps ++ rest) =
      match r.perform steps with
      | (.ok _, r') => r'.perform rest
      | (.error error, r') => (.error error, r') := by
  induction steps generalizing r with
  | nil => rfl
  | cons step steps ih =>
    cases step with
    | fail => rfl
    | define d =>
      simp only [List.cons_append, perform]
      cases r.install d with
      | error => rfl
      | ok r' => exact ih r'

/-- A property that appending a definition under a free name keeps holds after every run. -/
theorem perform_induction {P : Registry → Prop}
    (push : ∀ r d, P r → r.lookup d.sort d.name = none → P (r.push d)) (h : P r)
    (steps : List Step) : P (r.perform steps).2 := by
  induction steps generalizing r with
  | nil => exact h
  | cons step steps ih =>
    cases step with
    | fail => exact h
    | define d =>
      simp only [perform]
      cases hd : r.install d with
      | error => exact h
      | ok r' =>
        obtain ⟨-, rfl | ⟨hfree, rfl⟩⟩ := install_ok hd
        · exact ih h
        · exact ih (push r d h hfree)

theorem le_perform (r : Registry) (steps : List Step) : r ≤ (r.perform steps).2 :=
  perform_induction (P := (r ≤ ·)) (fun r' d h _ => le_trans h (le_push r' d)) (le_refl r) steps

/-- A run that succeeds leaves a registry that fulfills every step. -/
theorem perform_fulfills {steps : List Step} (h : r.perform steps = (.ok (), r')) :
    ∀ step ∈ steps, r'.Fulfills step := by
  induction steps generalizing r with
  | nil => simp
  | cons step steps ih =>
    cases step with
    | fail => simp [perform] at h
    | define d =>
      simp only [perform] at h
      cases hd : r.install d with
      | error => simp [hd] at h
      | ok r₁ =>
        simp only [hd] at h
        have hle : r₁ ≤ r' := by simpa [h] using le_perform r₁ steps
        intro step hstep
        rcases List.mem_cons.mp hstep with rfl | hstep
        · exact (install_ok hd).1.mono hle
        · exact ih h step hstep

/-- A run fails at a clash of names, or at a failure among its steps. -/
theorem perform_error {steps : List Step} {error : ModelError}
    (h : (r.perform steps).1 = .error error) :
    (∃ sort name, error = .clash sort name) ∨ .fail error ∈ steps := by
  induction steps generalizing r with
  | nil => cases h
  | cons step steps ih =>
    cases step with
    | fail =>
      cases h
      exact .inr List.mem_cons_self
    | define d =>
      simp only [perform] at h
      cases hd : r.install d with
      | error clash =>
        simp only [hd] at h
        cases h
        exact .inl ⟨_, _, install_error hd⟩
      | ok r' =>
        simp only [hd] at h
        exact (ih h).imp_right (List.mem_cons_of_mem _)

/-! ## Distinct names -/

/-- No two definitions of one sort have the same name. -/
structure Distinct (r : Registry) : Prop where
  enums : (r.enums.map (·.name)).Nodup
  records : (r.records.map (·.name)).Nodup

theorem Distinct.empty : Distinct {} := ⟨List.nodup_nil, List.nodup_nil⟩

private theorem nodup_map_concat {α : Type} {f : α → String} {l : List α} {a : α}
    (h : (l.map f).Nodup) (hfree : ∀ b ∈ l, f b ≠ f a) : ((l ++ [a]).map f).Nodup := by
  rw [List.map_append, List.nodup_append]
  refine ⟨h, by simp, ?_⟩
  intro name hname other hother
  obtain ⟨b, hb, rfl⟩ := List.mem_map.mp hname
  obtain rfl : other = f a := by simpa using hother
  exact hfree b hb

theorem Distinct.push {d : Definition} (h : r.Distinct) (hfree : r.lookup d.sort d.name = none) :
    (r.push d).Distinct := by
  cases d with
  | enum definition =>
    simp only [lookup, Definition.sort, Definition.name, enum?, Option.map_eq_none_iff,
      List.find?_eq_none, beq_iff_eq] at hfree
    exact ⟨nodup_map_concat h.enums hfree, h.records⟩
  | record definition =>
    simp only [lookup, Definition.sort, Definition.name, record?, Option.map_eq_none_iff,
      List.find?_eq_none, beq_iff_eq] at hfree
    exact ⟨h.enums, nodup_map_concat h.records hfree⟩

theorem Distinct.perform (h : r.Distinct) (steps : List Step) : (r.perform steps).2.Distinct :=
  perform_induction (fun _ _ h hfree => h.push hfree) h steps

private theorem find?_name_iff {α : Type} {f : α → String} {l : List α} (h : (l.map f).Nodup)
    {name : String} {a : α} : (l.find? fun b => f b == name) = some a ↔ a ∈ l ∧ f a = name := by
  constructor
  · intro hfound
    exact ⟨List.mem_of_find?_eq_some hfound, by simpa using List.find?_some hfound⟩
  · rintro ⟨hmem, rfl⟩
    cases hfound : l.find? fun b => f b == f a with
    | none =>
      have hne := List.find?_eq_none.mp hfound a hmem
      simp at hne
    | some other =>
      have hother := List.mem_of_find?_eq_some hfound
      have hname : f other = f a := by simpa using List.find?_some hfound
      rw [List.inj_on_of_nodup_map h hother hmem hname]

/-- With distinct names, the enumeration found under a name is the one that has it. -/
theorem Distinct.enum?_eq_some (h : r.Distinct) {name : String} {definition : EnumDef} :
    r.enum? name = some definition ↔ definition ∈ r.enums ∧ definition.name = name :=
  find?_name_iff h.enums

/-- With distinct names, the record found under a name is the one that has it. -/
theorem Distinct.record?_eq_some (h : r.Distinct) {name : String} {record : RecordDef} :
    r.record? name = some record ↔ record ∈ r.records ∧ record.name = name :=
  find?_name_iff h.records

end Registry

end ClientBindings
