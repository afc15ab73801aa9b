/-!
# Named entries

Lists of named values: JSON objects, field lists, table maps.

* `find?`: the value under a name; `put`: replace it in place, or append it when the name is new
  (`find?_put_self`, `find?_put_of_ne`, `names_put`).
* `ofPairs`: pairs put one after the other, so each name keeps its first position and takes its
  last value.
* `putSorted`: `put` into a list kept in the order of its names.
-/

namespace ClientBindings

/-- Values with names, in order. -/
abbrev Entries (α : Type u) := List (String × α)

namespace Entries

variable {α : Type u}

/-- The names in order. -/
def names (entries : Entries α) : List String := entries.map (·.1)

/-- The value under the first entry named `name`. -/
def find? (name : String) : Entries α → Option α
  | [] => none
  | (key, value) :: rest => if key = name then some value else find? name rest

/-- Replaces the value under `name`, which keeps its position, or appends a new entry. -/
def put (name : String) (value : α) : Entries α → Entries α
  | [] => [(name, value)]
  | (key, old) :: rest =>
    if key = name then (key, value) :: rest else (key, old) :: put name value rest

/-- The pairs put into the empty list from left to right. -/
def ofPairs (pairs : List (String × α)) : Entries α :=
  pairs.foldl (fun entries pair => put pair.1 pair.2 entries) []

/-- `put` into a list in the order of its names; a new entry goes where the order wants it. -/
def putSorted (name : String) (value : α) : Entries α → Entries α
  | [] => [(name, value)]
  | (key, old) :: rest =>
    if key = name then (key, value) :: rest
    else if name < key then (name, value) :: (key, old) :: rest
    else (key, old) :: putSorted name value rest

/-- The pairs in the order of their names, each name once with its last value. -/
def sortedOfPairs (pairs : List (String × α)) : Entries α :=
  pairs.foldl (fun entries pair => putSorted pair.1 pair.2 entries) []

@[simp] theorem names_append (entries rest : Entries α) :
    names (entries ++ rest) = entries.names ++ rest.names := List.map_append

@[simp] theorem find?_nil (name : String) : find? name ([] : Entries α) = none := rfl

theorem find?_put_self (name : String) (value : α) (entries : Entries α) :
    find? name (put name value entries) = some value := by
  induction entries with
  | nil => simp [put, find?]
  | cons entry rest ih =>
    obtain ⟨key, old⟩ := entry
    by_cases h : key = name <;> simp [put, find?, h, ih]

theorem find?_put_of_ne {name other : String} (h : other ≠ name) (value : α)
    (entries : Entries α) : find? other (put name value entries) = find? other entries := by
  induction entries with
  | nil => simp [put, find?, Ne.symm h]
  | cons entry rest ih =>
    obtain ⟨key, old⟩ := entry
    by_cases hk : key = name
    · subst hk
      simp [put, find?, Ne.symm h]
    · by_cases ho : key = other <;> simp [put, find?, hk, ho, ih, h]

/-- A name has no value exactly where it is not among the names. -/
theorem find?_eq_none_iff {name : String} {entries : Entries α} :
    find? name entries = none ↔ name ∉ entries.names := by
  induction entries with
  | nil => simp [find?, names]
  | cons entry rest ih =>
    obtain ⟨key, value⟩ := entry
    by_cases h : key = name
    · simp [find?, names, h]
    · simpa [find?, names, h, Ne.symm h] using ih

/-- A known name keeps its position, a new one comes last. -/
theorem names_put (name : String) (value : α) (entries : Entries α) :
    (put name value entries).names =
      if name ∈ entries.names then entries.names else entries.names ++ [name] := by
  induction entries with
  | nil => simp [put, names]
  | cons entry rest ih =>
    obtain ⟨key, old⟩ := entry
    by_cases h : key = name
    · simp [put, names, h]
    · by_cases hr : name ∈ names rest
      · simp only [hr, if_true] at ih
        simp_all [put, names, Ne.symm h]
      · simp only [hr, if_false] at ih
        simp_all [put, names, Ne.symm h]

theorem mem_of_mem_put {name : String} {value : α} {entries : Entries α} {entry : String × α}
    (h : entry ∈ put name value entries) : entry = (name, value) ∨ entry ∈ entries := by
  induction entries with
  | nil => simpa [put] using h
  | cons first rest ih =>
    obtain ⟨key, old⟩ := first
    rw [put] at h
    split at h
    · next hk =>
      subst hk
      exact (List.mem_cons.mp h).imp_right (List.mem_cons_of_mem _)
    · rcases List.mem_cons.mp h with rfl | h
      · exact .inr List.mem_cons_self
      · exact (ih h).imp_right (List.mem_cons_of_mem _)

theorem mem_of_mem_putSorted {name : String} {value : α} {entries : Entries α}
    {entry : String × α} (h : entry ∈ putSorted name value entries) :
    entry = (name, value) ∨ entry ∈ entries := by
  induction entries with
  | nil => simpa [putSorted] using h
  | cons first rest ih =>
    obtain ⟨key, old⟩ := first
    rw [putSorted] at h
    split at h
    · next hk =>
      subst hk
      exact (List.mem_cons.mp h).imp_right (List.mem_cons_of_mem _)
    · split at h
      · exact List.mem_cons.mp h
      · rcases List.mem_cons.mp h with rfl | h
        · exact .inr List.mem_cons_self
        · exact (ih h).imp_right (List.mem_cons_of_mem _)

/-- Steps that each add at most their own pair add none but the given pairs. -/
theorem mem_of_mem_foldl {step : Entries α → String × α → Entries α}
    (hstep : ∀ entries pair entry, entry ∈ step entries pair → entry = pair ∨ entry ∈ entries)
    {pairs : List (String × α)} {entries : Entries α} {entry : String × α}
    (h : entry ∈ pairs.foldl step entries) : entry ∈ entries ∨ entry ∈ pairs := by
  induction pairs generalizing entries with
  | nil => exact .inl h
  | cons pair rest ih =>
    rcases ih h with h | h
    · rcases hstep _ _ _ h with rfl | h
      · exact .inr List.mem_cons_self
      · exact .inl h
    · exact .inr (List.mem_cons_of_mem _ h)

/-- The pairs in the order of their names are some of the pairs. -/
theorem mem_of_mem_sortedOfPairs {pairs : List (String × α)} {entry : String × α}
    (h : entry ∈ sortedOfPairs pairs) : entry ∈ pairs :=
  (mem_of_mem_foldl (fun _ _ _ => mem_of_mem_putSorted) h).resolve_left List.not_mem_nil

end Entries

/-- The elements without repetitions, each where it first stands. -/
def firstSeen {α : Type u} [DecidableEq α] : List α → List α
  | [] => []
  | a :: rest => a :: (firstSeen rest).filter (fun b => decide (b ≠ a))

/-- Adds a string to a sorted list without repetitions. -/
def insertSorted (s : String) : List String → List String
  | [] => [s]
  | t :: rest =>
    if t = s then t :: rest else if s < t then s :: t :: rest else t :: insertSorted s rest

/-- The strings as a set: in order and without repetitions. -/
def sortedSet (strings : List String) : List String :=
  strings.foldl (fun set s => insertSorted s set) []

end ClientBindings
