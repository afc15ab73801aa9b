import ClientBindings.Proofs.Schema.Reading
import Mathlib.Data.List.Nodup

/-!
# Entries put one after the other

What a sequence of pairs does to entries, whether each is put at its end or in the order of names.

* `Entries.find?_foldl`: steps that each set one name leave every name with the value set last.
* `Entries.names_foldl_put`: names that were there keep their positions, and the new ones follow in
  the order in which they come first (`Entries.fresh`). So names stay distinct (`foldl_put_nodup`).
* `Entries.find?_putSorted_self`, `Entries.find?_putSorted_of_ne`: what is put where the order of
  the names wants it sets one name, too. In that order, lookups decide the entries (`ext_find?`).
-/

namespace ClientBindings.Entries

variable {α : Type} {name : String} {value : α} {entries : Entries α}

/-! ## Looking up -/

theorem mem_of_find? (h : find? name entries = some value) : (name, value) ∈ entries := by
  induction entries with
  | nil => cases h
  | cons entry rest ih =>
    obtain ⟨key, old⟩ := entry
    rw [find?] at h
    split at h
    · next hkey =>
      cases h
      rw [hkey]
      exact List.mem_cons_self
    · exact List.mem_cons_of_mem _ (ih h)

theorem mem_names_of_find? (h : find? name entries = some value) : name ∈ entries.names :=
  List.mem_map.mpr ⟨_, mem_of_find? h, rfl⟩

/-- With distinct names, the value of a name is the one that it stands with. -/
theorem find?_eq_some_iff (h : entries.names.Nodup) :
    find? name entries = some value ↔ (name, value) ∈ entries := by
  refine ⟨mem_of_find?, fun hmem => ?_⟩
  induction entries with
  | nil => cases hmem
  | cons entry rest ih =>
    obtain ⟨key, old⟩ := entry
    obtain ⟨hkey, hrest⟩ := List.nodup_cons.mp h
    rw [find?]
    rcases List.mem_cons.mp hmem with heq | hmem
    · cases heq
      rw [if_pos rfl]
    · have hne : key ≠ name := by
        rintro rfl
        exact hkey (List.mem_map.mpr ⟨_, hmem, rfl⟩)
      rw [if_neg hne]
      exact ih hrest hmem

theorem find?_append (name : String) (entries rest : Entries α) :
    find? name (entries ++ rest) = (find? name entries).or (find? name rest) := by
  induction entries with
  | nil => rfl
  | cons entry entries ih =>
    obtain ⟨key, value⟩ := entry
    by_cases h : key = name <;> simp [find?, h, ih]

theorem find?_singleton (name key : String) (value : α) :
    find? name [(key, value)] = if key = name then some value else none := by
  rw [find?, find?]

/-- Values under their own names. -/
theorem find?_map (nameOf : α → String) (name : String) (values : List α) :
    find? name (values.map fun value => (nameOf value, value)) =
      values.find? fun value => nameOf value == name := by
  induction values with
  | nil => rfl
  | cons value rest ih =>
    by_cases h : nameOf value = name <;> simp [find?, h, ih]

theorem names_reverse (entries : Entries α) :
    names (List.reverse entries) = entries.names.reverse := by
  rw [names, names, List.map_reverse]

/-- With distinct names, the order of the entries does not matter to a lookup. -/
theorem find?_reverse (h : entries.names.Nodup) (name : String) :
    find? name entries.reverse = find? name entries := by
  have hreverse : (Entries.names entries.reverse).Nodup := by
    rw [names_reverse, List.nodup_reverse]
    exact h
  refine Option.ext fun value => ?_
  rw [find?_eq_some_iff h, find?_eq_some_iff hreverse, List.mem_reverse]

/-- Steps that each set the value of one name leave every name with the value set last. -/
theorem find?_foldl {step : Entries α → String × α → Entries α}
    (hself : ∀ entries pair, find? pair.1 (step entries pair) = some pair.2)
    (hother : ∀ entries pair name, name ≠ pair.1 →
      find? name (step entries pair) = find? name entries)
    (name : String) (pairs : List (String × α)) (entries : Entries α) :
    find? name (pairs.foldl step entries) =
      (find? name pairs.reverse).or (find? name entries) := by
  induction pairs generalizing entries with
  | nil => rfl
  | cons pair rest ih =>
    obtain ⟨key, value⟩ := pair
    rw [List.foldl_cons, ih, List.reverse_cons, find?_append, Option.or_assoc, find?_singleton]
    congr 1
    by_cases h : key = name
    · subst h
      simp [hself entries (key, value)]
    · simp [h, hother entries (key, value) name (Ne.symm h)]

/-! ## Entries put at the end -/

theorem find?_foldl_put (name : String) (pairs : List (String × α)) (entries : Entries α) :
    find? name (pairs.foldl (fun entries pair => put pair.1 pair.2 entries) entries) =
      (find? name pairs.reverse).or (find? name entries) :=
  find?_foldl (fun entries pair => find?_put_self pair.1 pair.2 entries)
    (fun entries pair _ hne => find?_put_of_ne hne pair.2 entries) name pairs entries

/-- Names that were there keep their positions, and new ones follow, each where it comes first. -/
theorem names_foldl_put (pairs : List (String × α)) (entries : Entries α) :
    (pairs.foldl (fun entries pair => put pair.1 pair.2 entries) entries).names =
      entries.names ++ (fresh entries.names pairs).names := by
  induction pairs generalizing entries with
  | nil => simp [fresh, names]
  | cons pair rest ih =>
    obtain ⟨key, value⟩ := pair
    rw [List.foldl_cons, ih, names_put, fresh]
    split
    · rfl
    · simp [names]

theorem fresh_nodup (known : List String) (pairs : Entries α) : (fresh known pairs).names.Nodup ∧
    ∀ name ∈ (fresh known pairs).names, name ∉ known := by
  induction pairs generalizing known with
  | nil => exact ⟨List.nodup_nil, by simp [fresh, names]⟩
  | cons pair rest ih =>
    obtain ⟨key, value⟩ := pair
    rw [fresh]
    split
    · exact ih known
    · next hnew =>
      obtain ⟨hrest, hapart⟩ := ih (known ++ [key])
      refine ⟨List.nodup_cons.mpr ⟨fun hkey => ?_, hrest⟩, List.forall_mem_cons.mpr ⟨hnew, ?_⟩⟩
      · exact hapart key hkey (List.mem_append_right _ (List.mem_singleton_self _))
      · exact fun name hname hknown => hapart name hname (List.mem_append_left _ hknown)

theorem fresh_sublist (known : List String) (pairs : Entries α) :
    (fresh known pairs).Sublist pairs := by
  induction pairs generalizing known with
  | nil => exact .slnil
  | cons pair rest ih =>
    obtain ⟨key, value⟩ := pair
    rw [fresh]
    split
    · exact (ih known).cons _
    · exact (ih _).cons_cons _

/-- A new name has the value that it comes with first. -/
theorem find?_fresh (name : String) (known : List String) (pairs : Entries α) :
    find? name (fresh known pairs) = if name ∈ known then none else find? name pairs := by
  induction pairs generalizing known with
  | nil => simp [fresh]
  | cons pair rest ih =>
    obtain ⟨key, value⟩ := pair
    by_cases hkey : key = name
    · subst hkey
      by_cases hknown : key ∈ known <;> simp [fresh, find?, hknown, ih]
    · by_cases hknown : key ∈ known <;> simp [fresh, find?, hknown, hkey, ih, Ne.symm hkey]

/-- Names stay distinct. -/
theorem foldl_put_nodup (pairs : List (String × α)) (h : entries.names.Nodup) :
    (pairs.foldl (fun entries pair => put pair.1 pair.2 entries) entries).names.Nodup := by
  rw [names_foldl_put]
  obtain ⟨hfresh, hapart⟩ := fresh_nodup entries.names pairs
  exact List.nodup_append.mpr ⟨h, hfresh, fun name hname other hother heq =>
    hapart other hother (heq ▸ hname)⟩

theorem ofPairs_nodup (pairs : List (String × α)) : (ofPairs pairs).names.Nodup :=
  foldl_put_nodup pairs List.nodup_nil

/-- Pairs put one after the other are some of the pairs. -/
theorem mem_of_mem_ofPairs {pairs : List (String × α)} {entry : String × α}
    (h : entry ∈ ofPairs pairs) : entry ∈ pairs :=
  (mem_of_mem_foldl (fun _ _ _ => mem_of_mem_put) h).resolve_left List.not_mem_nil

/-- Of distinct names, the new ones are those that are not known. -/
theorem names_fresh (h : entries.names.Nodup) (known : List String) :
    (fresh known entries).names = entries.names.filter fun name => name ∉ known := by
  induction entries generalizing known with
  | nil => rfl
  | cons entry rest ih =>
    obtain ⟨key, value⟩ := entry
    obtain ⟨hkey, hrest⟩ := List.nodup_cons.mp h
    have hnames : names ((key, value) :: rest) = key :: names rest := rfl
    rw [fresh, hnames, List.filter_cons]
    by_cases hknown : key ∈ known
    · simp [hknown, ih hrest]
    · simp only [hknown, not_false_eq_true, decide_true, if_true, if_false]
      refine congrArg (key :: ·) ((ih hrest _).trans (List.filter_congr fun name hname => ?_))
      have hne : name ≠ key := fun heq => hkey (heq ▸ hname)
      simp [hne]

/-! ## Entries in the order of their names -/

theorem names_putSorted (name : String) (value : α) (entries : Entries α) :
    (putSorted name value entries).names = insertSorted name entries.names := by
  induction entries with
  | nil => rfl
  | cons entry rest ih =>
    obtain ⟨key, old⟩ := entry
    change (putSorted name value rest).names = insertSorted name (rest.map (·.1)) at ih
    simp only [putSorted, names, List.map_cons, insertSorted]
    split
    · rfl
    · split
      · rfl
      · exact congrArg (key :: ·) ih

theorem find?_putSorted_self (name : String) (value : α) (entries : Entries α) :
    find? name (putSorted name value entries) = some value := by
  induction entries with
  | nil => simp [putSorted, find?]
  | cons entry rest ih =>
    obtain ⟨key, old⟩ := entry
    rw [putSorted]
    split
    · next h => simp [find?, h]
    · next h =>
      split
      · simp [find?]
      · simp [find?, h, ih]

theorem find?_putSorted_of_ne {name other : String} (h : other ≠ name) (value : α)
    (entries : Entries α) : find? other (putSorted name value entries) = find? other entries := by
  induction entries with
  | nil => simp [putSorted, find?, Ne.symm h]
  | cons entry rest ih =>
    obtain ⟨key, old⟩ := entry
    rw [putSorted]
    split
    · next hk =>
      subst hk
      simp [find?, Ne.symm h]
    · split
      · simp [find?, Ne.symm h]
      · by_cases ho : key = other <;> simp [find?, ho, ih]

theorem find?_sortedOfPairs (name : String) (pairs : List (String × α)) :
    find? name (sortedOfPairs pairs) = find? name pairs.reverse := by
  rw [sortedOfPairs, find?_foldl (fun entries pair => find?_putSorted_self pair.1 pair.2 entries)
    (fun entries pair _ hne => find?_putSorted_of_ne hne pair.2 entries), find?_nil,
    Option.or_none]

/-- Entries whose names are in an order of any kind are the same if all lookups are. -/
theorem ext_find?_of_pairwise {r : String → String → Prop} (hr : ∀ a b, r a b → ¬ r b a)
    {others : Entries α} (h : entries.names.Pairwise r) (hothers : others.names.Pairwise r)
    (hfind : ∀ name, find? name entries = find? name others) : entries = others := by
  have hne {a b : String} (hab : r a b) : a ≠ b := by
    rintro rfl
    exact hr a a hab hab
  have hmem (entry : String × α) : entry ∈ entries ↔ entry ∈ others := by
    obtain ⟨name, value⟩ := entry
    rw [← find?_eq_some_iff (h.imp hne), ← find?_eq_some_iff (hothers.imp hne), hfind]
  have hdistinct : entries.Nodup := .of_map _ (h.imp hne : entries.names.Nodup)
  have hdistinct' : others.Nodup := .of_map _ (hothers.imp hne : others.names.Nodup)
  have hperm : entries.Perm others := (List.perm_ext_iff_of_nodup hdistinct hdistinct').mpr hmem
  have hordered : entries.Pairwise fun a b => r a.1 b.1 := List.pairwise_map.mp h
  have hordered' : others.Pairwise fun a b => r a.1 b.1 := List.pairwise_map.mp hothers
  exact hperm.eq_of_pairwise (fun _ _ _ _ hab hba => absurd hba (hr _ _ hab)) hordered hordered'

/-- Entries in the order of their names are the same if all lookups are. -/
theorem ext_find? {others : Entries α} (h : entries.names.Pairwise (· < ·))
    (hothers : others.names.Pairwise (· < ·))
    (hfind : ∀ name, find? name entries = find? name others) : entries = others :=
  ext_find?_of_pairwise (fun _ _ => lt_asymm) h hothers hfind

end ClientBindings.Entries
