import ClientBindings.Schema.Validator
import Mathlib.Data.String.Basic

/-!
# The reading of a validator

What a validator says of a value, without the names that its types get.

* `Reading`: the shape of a value; a `Slot` is a place for one, which may be empty.
* `Validator.reading`: the reading of a node. Optional wrappers open its slot. A union has the set
  of its tags and, of the fields of its options, the first of every name.
* `fieldReadings_eq`, `optionReadings_eq`: the readings of fields and options are those of their
  nodes, in order.
* `mem_sortedSet`, `sortedSet_pairwise`, `sortedSet_congr`: the values of an enumeration and the
  tags of a union are sets, kept as strictly ascending lists.
-/

namespace ClientBindings

/-! ## Sets of texts -/

theorem mem_insertSorted {s t : String} {set : List String} :
    t ∈ insertSorted s set ↔ t = s ∨ t ∈ set := by
  induction set with
  | nil => simp [insertSorted]
  | cons u rest ih =>
    simp only [insertSorted]
    split
    · next h => subst h; simp
    · split
      · simp
      · simp only [List.mem_cons, ih]
        exact or_left_comm

theorem insertSorted_pairwise {s : String} {set : List String} (h : set.Pairwise (· < ·)) :
    (insertSorted s set).Pairwise (· < ·) := by
  induction set with
  | nil => simp [insertSorted]
  | cons u rest ih =>
    obtain ⟨hu, hrest⟩ := List.pairwise_cons.mp h
    simp only [insertSorted]
    split
    · exact h
    · next hne =>
      split
      · next hlt =>
        refine List.pairwise_cons.mpr ⟨?_, h⟩
        intro t ht
        rcases List.mem_cons.mp ht with rfl | ht
        · exact hlt
        · exact lt_trans hlt (hu t ht)
      · next hnlt =>
        have hlt : u < s := lt_of_le_of_ne (not_lt.mp hnlt) hne
        refine List.pairwise_cons.mpr ⟨?_, ih hrest⟩
        intro t ht
        rcases mem_insertSorted.mp ht with rfl | ht
        · exact hlt
        · exact hu t ht

private theorem foldl_insertSorted {strings set : List String} (h : set.Pairwise (· < ·)) :
    (strings.foldl (fun set s => insertSorted s set) set).Pairwise (· < ·) ∧
      ∀ t, t ∈ strings.foldl (fun set s => insertSorted s set) set ↔ t ∈ set ∨ t ∈ strings := by
  induction strings generalizing set with
  | nil => simpa using h
  | cons s rest ih =>
    obtain ⟨hp, hm⟩ := ih (insertSorted_pairwise (s := s) h)
    refine ⟨hp, fun t => ?_⟩
    rw [List.foldl_cons, hm, mem_insertSorted, List.mem_cons, or_assoc, or_left_comm]

/-- A sorted set is strictly ascending. -/
theorem sortedSet_pairwise (strings : List String) : (sortedSet strings).Pairwise (· < ·) :=
  (foldl_insertSorted List.Pairwise.nil).1

/-- A sorted set has the elements of the list. -/
@[simp] theorem mem_sortedSet {t : String} {strings : List String} :
    t ∈ sortedSet strings ↔ t ∈ strings := by
  rw [sortedSet, (foldl_insertSorted List.Pairwise.nil).2 t]
  simp

/-- Strictly ascending lists with the same elements are the same. -/
theorem eq_of_ascending {strings others : List String} (hs : strings.Pairwise (· < ·))
    (ho : others.Pairwise (· < ·)) (h : ∀ t, t ∈ strings ↔ t ∈ others) : strings = others := by
  have hperm : strings.Perm others :=
    (List.perm_ext_iff_of_nodup (hs.imp ne_of_lt) (ho.imp ne_of_lt)).mpr h
  exact hperm.eq_of_pairwise (fun _ _ _ _ hab hba => absurd hab (lt_asymm hba)) hs ho

/-- Two lists have the same sorted set if they have the same elements. -/
theorem sortedSet_congr {strings others : List String} (h : ∀ t, t ∈ strings ↔ t ∈ others) :
    sortedSet strings = sortedSet others :=
  eq_of_ascending (sortedSet_pairwise strings) (sortedSet_pairwise others) (by simpa using h)

/-! ## First entries -/

/-- The entries whose names are neither known nor those of earlier entries. -/
def Entries.fresh {α : Type} (known : List String) : Entries α → Entries α
  | [] => []
  | (name, value) :: rest =>
    if name ∈ known then fresh known rest
    else (name, value) :: fresh (known ++ [name]) rest

theorem Entries.fresh_append {α : Type} (known : List String) (entries rest : Entries α) :
    fresh known (entries ++ rest) =
      fresh known entries ++ fresh (known ++ (fresh known entries).names) rest := by
  induction entries generalizing known with
  | nil => simp [fresh, names]
  | cons entry entries ih =>
    obtain ⟨name, value⟩ := entry
    simp only [List.cons_append, fresh]
    split
    · exact ih known
    · simp [ih, names]

theorem Entries.fresh_subset {α : Type} (known : List String) (entries : Entries α) :
    fresh known entries ⊆ entries := by
  induction entries generalizing known with
  | nil => exact List.Subset.refl _
  | cons entry rest ih =>
    obtain ⟨name, value⟩ := entry
    simp only [fresh]
    split
    · exact List.subset_cons_of_subset _ (ih known)
    · exact List.cons_subset_cons _ (ih _)

/-- Which entries are the first ones of their names does not depend on the values. -/
theorem Entries.fresh_map {α β : Type} (f : α → β) (known : List String) (entries : Entries α) :
    fresh known (entries.map fun entry => (entry.1, f entry.2)) =
      (fresh known entries).map fun entry => (entry.1, f entry.2) := by
  induction entries generalizing known with
  | nil => rfl
  | cons entry rest ih =>
    obtain ⟨name, value⟩ := entry
    simp only [List.map_cons, fresh]
    split
    · exact ih known
    · simp [ih]

/-! ## Readings -/

/-- A place for values of a type. -/
@[ext]
structure Slot (T : Type) where
  type : T
  /-- Whether the place may be empty. -/
  isOptional : Bool

/-- The slot that may be empty. -/
def Slot.opened {T : Type} (slot : Slot T) : Slot T := { slot with isOptional := true }

/-- The shape of a value. -/
inductive Reading
  | scalar (scalar : Scalar)
  /-- One of a set of texts. -/
  | enumeration (values : List String)
  | array (element : Slot Reading)
  /-- A record of the given fields. -/
  | object (fields : List (String × Slot Reading))
  /-- A record whose field `type` is one of a set of tags, or any text if there are none. The
  other fields may be absent. -/
  | union (tags : List String) (fields : List (String × Slot Reading))
  /-- A value that no type describes. -/
  | unsupported (kind : String)

mutual

/-- The reading of a node. -/
def Validator.reading : Validator → Slot Reading
  | .node _ _ _ (.optional inner) => inner.reading.opened
  | .node _ _ _ (.scalar scalar) => ⟨.scalar scalar, false⟩
  | .node _ _ _ .file => ⟨.scalar .string, false⟩
  | .node _ values _ .enumeration => ⟨.enumeration (sortedSet values), false⟩
  | .node _ _ _ (.array element) => ⟨.array element.reading, false⟩
  | .node _ _ (some fields) .object => ⟨.object (fieldReadings fields), false⟩
  | .node _ _ _ (.union options) =>
    let fields := Entries.fresh ["type"] (optionReadings options)
    ⟨.union (sortedSet (options.flatMap Validator.tagValues))
      (fields.map fun field => (field.1, field.2.opened)), false⟩
  | .node kind _ _ _ => ⟨.unsupported kind, false⟩

/-- The readings of the fields of an object. -/
def fieldReadings : List (String × Validator) → List (String × Slot Reading)
  | [] => []
  | (field, validator) :: rest => (field, validator.reading) :: fieldReadings rest

/-- The readings of the fields of an option, inside every optional wrapper. -/
def variantReadings : Validator → List (String × Slot Reading)
  | .node _ _ _ (.optional inner) => variantReadings inner
  | .node _ _ (some fields) _ => fieldReadings fields
  | .node _ _ none _ => []

/-- The readings of the fields of all options. -/
def optionReadings : List Validator → List (String × Slot Reading)
  | [] => []
  | option :: rest => variantReadings option ++ optionReadings rest

end

theorem fieldReadings_eq (fields : List (String × Validator)) :
    fieldReadings fields = fields.map fun field => (field.1, field.2.reading) := by
  induction fields with
  | nil => simp [fieldReadings]
  | cons field rest ih =>
    obtain ⟨name, validator⟩ := field
    simp [fieldReadings, ih]

theorem variantReadings_eq (option : Validator) :
    variantReadings option =
      (option.unwrapped.fields.getD []).map fun field => (field.1, field.2.reading) := by
  induction option using Validator.unwrapped.induct with
  | case1 kind values fields inner ih => rw [variantReadings, ih, Validator.unwrapped]
  | case2 option h =>
    obtain ⟨kind, values, fields, form⟩ := option
    have hform : ∀ inner, form ≠ .optional inner := by
      rintro inner rfl
      exact h kind values fields inner rfl
    cases fields with
    | none =>
      rw [variantReadings, Validator.unwrapped]
      · rfl
      · simpa using h
      · simpa using hform
    | some fields =>
      rw [variantReadings, Validator.unwrapped, fieldReadings_eq]
      · rfl
      · simpa using h
      · simpa using hform

/-- The fields of the options of a union, one after the other. -/
theorem optionReadings_eq (options : List Validator) :
    optionReadings options = options.flatMap fun option =>
      (option.unwrapped.fields.getD []).map fun field => (field.1, field.2.reading) := by
  induction options with
  | nil => simp [optionReadings]
  | cons option rest ih => simp [optionReadings, variantReadings_eq, ih]

end ClientBindings
