import ClientBindings.Check.Issue
import Mathlib.Data.Finset.Card
import Mathlib.Data.List.Nodup
import Mathlib.Data.Set.Function

/-!
# Accounts of factory calls

What a report lists, call by call and table by table.

* `duplicates_account`: of the calls for one table, all but the first are listed as repeated, and
  each names the file of the first.
* `issues_unknown`, `issues_missing`: one error for each call of an undeclared table, one warning
  for each declared table without a call.
* `issues_account`: nothing of this is listed exactly if the calls name the declared tables one to
  one.
-/

namespace ClientBindings.Check

/-! ## Sorts of issues -/

namespace Issue

/-- Whether the issue is a repeated call. -/
def isDuplicate (issue : Issue) : Bool :=
  match issue.finding with
  | .duplicate _ _ => true
  | _ => false

/-- Whether the issue is a call for an undeclared table. -/
def isUnknown (issue : Issue) : Bool :=
  match issue.finding with
  | .unknownTable _ _ => true
  | _ => false

/-- Whether the issue is a table without a call. -/
def isMissing (issue : Issue) : Bool :=
  match issue.finding with
  | .missingCall _ => true
  | _ => false

end Issue

variable {tables : List String} {earlier calls : List FactoryCall}

/-- The error for a call of an undeclared table. -/
def unknownIssue (call : FactoryCall) : Issue :=
  ⟨call.file, .unknownTable call.factory call.table⟩

/-! ## Issues of calls -/

/-- The repeated call, if the table has an earlier one. -/
theorem callIssues_duplicates (tables : List String) (earlier : List FactoryCall)
    (call : FactoryCall) : (callIssues tables earlier call).filter Issue.isDuplicate =
      ((earlier.find? fun first => first.table == call.table).map fun first =>
        (⟨call.file, .duplicate call.table first.file⟩ : Issue)).toList := by
  rw [callIssues, List.filter_append]
  cases earlier.find? fun first => first.table == call.table <;>
    cases tables.contains call.table <;> rfl

theorem callIssues_unknown (tables : List String) (earlier : List FactoryCall)
    (call : FactoryCall) : (callIssues tables earlier call).filter Issue.isUnknown =
      if call.table ∈ tables then [] else [unknownIssue call] := by
  rw [callIssues, List.filter_append]
  by_cases h : call.table ∈ tables <;>
    cases earlier.find? fun first => first.table == call.table <;>
    simp [h, Issue.isUnknown, unknownIssue]

theorem callIssues_missing (tables : List String) (earlier : List FactoryCall)
    (call : FactoryCall) : (callIssues tables earlier call).filter Issue.isMissing = [] := by
  rw [callIssues, List.filter_append]
  cases earlier.find? fun first => first.table == call.table <;>
    cases tables.contains call.table <;> rfl

theorem callIssuesAfter_unknown (tables : List String) (earlier calls : List FactoryCall) :
    (callIssuesAfter tables earlier calls).filter Issue.isUnknown =
      (calls.filter fun call => call.table ∉ tables).map unknownIssue := by
  induction calls generalizing earlier with
  | nil => rfl
  | cons call rest ih =>
    rw [callIssuesAfter, List.filter_append, callIssues_unknown, ih]
    by_cases h : call.table ∈ tables <;> simp [h]

theorem callIssuesAfter_missing (tables : List String) (earlier calls : List FactoryCall) :
    (callIssuesAfter tables earlier calls).filter Issue.isMissing = [] := by
  induction calls generalizing earlier with
  | nil => rfl
  | cons call rest ih => rw [callIssuesAfter, List.filter_append, callIssues_missing, ih]; rfl

/-- The tables that some of the calls name, each once. -/
def namedTables (calls : List FactoryCall) : Finset String := (calls.map (·.table)).toFinset

theorem namedTables_concat (calls : List FactoryCall) (call : FactoryCall) :
    namedTables (calls ++ [call]) = insert call.table (namedTables calls) := by
  ext table
  simp [namedTables]

/-- Every call is repeated or the first one of its table. -/
theorem callIssuesAfter_duplicates_length (tables : List String)
    (earlier calls : List FactoryCall) :
    ((callIssuesAfter tables earlier calls).filter Issue.isDuplicate).length +
      (namedTables (earlier ++ calls)).card = calls.length + (namedTables earlier).card := by
  induction calls generalizing earlier with
  | nil => simp [callIssuesAfter]
  | cons call rest ih =>
    have hrest := ih (earlier ++ [call])
    rw [List.append_assoc, List.singleton_append] at hrest
    rw [callIssuesAfter, List.filter_append, callIssues_duplicates, List.length_append,
      List.length_cons]
    cases hfirst : earlier.find? fun first => first.table == call.table with
    | none =>
      have hnew : call.table ∉ namedTables earlier := by
        simpa [namedTables, List.find?_eq_none] using hfirst
      rw [namedTables_concat, Finset.card_insert_of_notMem hnew] at hrest
      simp only [Option.map_none, Option.toList_none, List.length_nil]
      omega
    | some first =>
      have hknown : call.table ∈ namedTables earlier := by
        have htable : first.table = call.table := by simpa using List.find?_some hfirst
        rw [namedTables, List.mem_toFinset, ← htable]
        exact List.mem_map_of_mem (List.mem_of_find?_eq_some hfirst)
      rw [namedTables_concat, Finset.insert_eq_of_mem hknown] at hrest
      simp only [Option.map_some, Option.toList_some, List.length_singleton]
      omega

/-- A repeated call names the file of the first call for its table. -/
theorem mem_callIssuesAfter_duplicate {issue : Issue}
    (h : issue ∈ (callIssuesAfter tables earlier calls).filter Issue.isDuplicate) :
    ∃ before call after first, calls = before ++ call :: after ∧
      (earlier ++ before).find? (fun first => first.table == call.table) = some first ∧
      issue = ⟨call.file, .duplicate call.table first.file⟩ := by
  induction calls generalizing earlier with
  | nil => simp [callIssuesAfter] at h
  | cons call rest ih =>
    rw [callIssuesAfter, List.filter_append, List.mem_append, callIssues_duplicates] at h
    rcases h with h | h
    · obtain ⟨first, hfirst, rfl⟩ := by simpa using h
      exact ⟨[], call, rest, first, rfl, by simpa using hfirst, rfl⟩
    · obtain ⟨before, call', after, first, rfl, hfirst, rfl⟩ := ih h
      exact ⟨call :: before, call', after, first, rfl, by simpa using hfirst, rfl⟩

/-! ## The report -/

section Report

variable (tables : List String) (schemaFile : String) (calls : List FactoryCall)
  (files : List String)

/-- A report lists the issues of one sort in three parts. -/
theorem issues_filter (p : Issue → Bool) : (issues tables schemaFile calls files).filter p =
    (callIssuesAfter tables [] calls).filter p ++
      (missingIssues tables schemaFile calls).filter p ++
      (misplacedIssues calls files).filter p := by
  rw [issues, List.filter_append, List.filter_append]

theorem issues_duplicates : (issues tables schemaFile calls files).filter Issue.isDuplicate =
    (callIssuesAfter tables [] calls).filter Issue.isDuplicate := by
  simp [issues_filter, missingIssues, misplacedIssues, List.filter_map, Function.comp_def,
    Issue.isDuplicate]

/-- One error for each call of an undeclared table, in the order of the calls. -/
theorem issues_unknown : (issues tables schemaFile calls files).filter Issue.isUnknown =
    (calls.filter fun call => call.table ∉ tables).map unknownIssue := by
  rw [issues_filter, callIssuesAfter_unknown]
  simp [missingIssues, misplacedIssues, List.filter_map, Function.comp_def, Issue.isUnknown]

/-- One warning for each declared table without a call, in the order of the tables. -/
theorem issues_missing : (issues tables schemaFile calls files).filter Issue.isMissing =
    (tables.filter fun table => table ∉ calls.map (·.table)).map fun table =>
      ⟨schemaFile, .missingCall table⟩ := by
  rw [issues_filter, callIssuesAfter_missing]
  have hany (table : String) : (!calls.any fun call => call.table == table) =
      decide (table ∉ calls.map (·.table)) := by
    rw [Bool.eq_iff_iff]
    simp
  simp [missingIssues, misplacedIssues, List.filter_map, Function.comp_def, Issue.isMissing, hany]

/-- All calls but the first ones of their tables are listed as repeated, and each names the file
of the first. -/
theorem duplicates_account :
    let found := issues tables schemaFile calls files
    (found.filter Issue.isDuplicate).length + (namedTables calls).card = calls.length ∧
      ∀ issue ∈ found, issue.isDuplicate → ∃ before call after first,
        calls = before ++ call :: after ∧ call.table ∈ before.map (·.table) ∧
        calls.find? (fun first => first.table == call.table) = some first ∧
        issue = ⟨call.file, .duplicate call.table first.file⟩ := by
  intro found
  constructor
  · have hlength := callIssuesAfter_duplicates_length tables [] calls
    rw [issues_duplicates]
    simpa [namedTables] using hlength
  · intro issue hissue hduplicate
    have hmem : issue ∈ found.filter Issue.isDuplicate := List.mem_filter.mpr ⟨hissue, hduplicate⟩
    rw [issues_duplicates] at hmem
    obtain ⟨before, call, after, first, rfl, hfirst, rfl⟩ := mem_callIssuesAfter_duplicate hmem
    rw [List.nil_append] at hfirst
    have htable : first.table = call.table := by simpa using List.find?_some hfirst
    refine ⟨before, call, after, first, rfl, ?_, ?_, rfl⟩
    · rw [← htable]
      exact List.mem_map_of_mem (List.mem_of_find?_eq_some hfirst)
    · rw [List.find?_append, hfirst]
      rfl

theorem errorCount_issues : errorCount (issues tables schemaFile calls files) =
    ((issues tables schemaFile calls files).filter Issue.isDuplicate).length +
      (calls.filter fun call => call.table ∉ tables).length := by
  have hunknown := congrArg List.length (issues_unknown tables schemaFile calls files)
  rw [List.length_map] at hunknown
  rw [← hunknown, errorCount]
  generalize issues tables schemaFile calls files = found
  -- No issue is of both sorts.
  induction found with
  | nil => rfl
  | cons issue rest ih =>
    obtain ⟨file, finding⟩ := issue
    cases finding <;>
      simp only [List.filter_cons, Issue.isError, Issue.isDuplicate, Issue.isUnknown, if_true,
        Bool.false_eq_true, if_false, List.length_cons] <;> omega

end Report

/-! ## Calls one to one with tables -/

/-- The table that each call names, the calls counted by their positions. -/
def tableOf (calls : List FactoryCall) (position : Fin calls.length) : String :=
  calls[position].table

theorem tableOf_injective_iff (calls : List FactoryCall) :
    Function.Injective (tableOf calls) ↔ (calls.map (·.table)).Nodup := by
  rw [List.nodup_iff_pairwise_ne, List.pairwise_map, List.pairwise_iff_getElem]
  constructor
  · intro h i j hi hj hlt heq
    have hsame : (⟨i, hi⟩ : Fin calls.length) = ⟨j, hj⟩ := h heq
    exact absurd (congrArg Fin.val hsame) (by simp only; omega)
  · intro h i j heq
    rcases lt_trichotomy i.val j.val with hlt | hsame | hlt
    · exact absurd heq (h i j i.isLt j.isLt hlt)
    · exact Fin.ext hsame
    · exact absurd heq.symm (h j i j.isLt i.isLt hlt)

theorem nodup_iff_card_namedTables (calls : List FactoryCall) :
    (calls.map (·.table)).Nodup ↔ (namedTables calls).card = calls.length := by
  rw [namedTables, ← Multiset.coe_nodup, ← Multiset.toFinset_card_eq_card_iff_nodup]
  simp

theorem surjOn_tableOf_iff (tables : List String) (calls : List FactoryCall) :
    Set.SurjOn (tableOf calls) Set.univ {table | table ∈ tables} ↔
      ∀ table ∈ tables, table ∈ calls.map (·.table) := by
  constructor
  · intro h table htable
    obtain ⟨position, -, rfl⟩ := h htable
    exact List.mem_map_of_mem (List.getElem_mem position.isLt)
  · intro h table htable
    obtain ⟨call, hcall, rfl⟩ := List.mem_map.mp (h table htable)
    obtain ⟨i, hi, rfl⟩ := List.getElem_of_mem hcall
    exact ⟨⟨i, hi⟩, Set.mem_univ _, rfl⟩

theorem mapsTo_tableOf_iff (tables : List String) (calls : List FactoryCall) :
    Set.MapsTo (tableOf calls) Set.univ {table | table ∈ tables} ↔
      ∀ call ∈ calls, call.table ∈ tables := by
  constructor
  · intro h call hcall
    obtain ⟨i, hi, rfl⟩ := List.getElem_of_mem hcall
    exact h (Set.mem_univ (⟨i, hi⟩ : Fin calls.length))
  · intro h position _
    exact h _ (List.getElem_mem position.isLt)

/-- **Accounts.** With distinct declared tables, a report lists one error for each call but the
first of its table, which names the file of the first; one error for each call of an undeclared
table; and one warning for each declared table without a call. So there is no error and no such
warning exactly if the calls name the declared tables one to one. -/
theorem issues_account {tables : List String} (htables : tables.Nodup) (schemaFile : String)
    (calls : List FactoryCall) (files : List String) :
    let found := issues tables schemaFile calls files
    let missing := found.filter Issue.isMissing
    ((found.filter Issue.isDuplicate).length + (namedTables calls).card = calls.length ∧
      ∀ issue ∈ found, issue.isDuplicate → ∃ before call after first,
        calls = before ++ call :: after ∧ call.table ∈ before.map (·.table) ∧
        calls.find? (fun first => first.table == call.table) = some first ∧
        issue = ⟨call.file, .duplicate call.table first.file⟩) ∧
    found.filter Issue.isUnknown = (calls.filter fun call => call.table ∉ tables).map
      (fun call => ⟨call.file, .unknownTable call.factory call.table⟩) ∧
    (missing.Nodup ∧ ∀ issue, issue ∈ missing ↔ ∃ table ∈ tables,
      table ∉ calls.map (·.table) ∧ issue = ⟨schemaFile, .missingCall table⟩) ∧
    (errorCount found = 0 ∧ missing = [] ↔
      Set.BijOn (fun position : Fin calls.length => calls[position].table) Set.univ
        {table | table ∈ tables}) := by
  intro found missing
  have hduplicates := duplicates_account tables schemaFile calls files
  have hlength : (found.filter Issue.isDuplicate).length + (namedTables calls).card =
      calls.length := hduplicates.1
  have hmissing : missing = (tables.filter fun table => table ∉ calls.map (·.table)).map
      fun table => ⟨schemaFile, .missingCall table⟩ := issues_missing tables schemaFile calls files
  refine ⟨hduplicates, issues_unknown tables schemaFile calls files, ⟨?_, ?_⟩, ?_⟩
  · rw [hmissing]
    refine (htables.filter _).map fun table other heq => ?_
    injection heq with _ heq
    injection heq
  · intro issue
    simp [hmissing, and_assoc, eq_comm]
  · have hempty : missing = [] ↔ ∀ table ∈ tables, table ∈ calls.map (·.table) := by
      simp [hmissing]
    have hknown : (calls.filter fun call => call.table ∉ tables).length = 0 ↔
        ∀ call ∈ calls, call.table ∈ tables := by
      simp
    have hcard : (found.filter Issue.isDuplicate).length = 0 ↔
        (namedTables calls).card = calls.length := by
      omega
    rw [errorCount_issues, Nat.add_eq_zero_iff, hcard, hknown, hempty,
      ← nodup_iff_card_namedTables, ← tableOf_injective_iff, ← mapsTo_tableOf_iff,
      ← surjOn_tableOf_iff, ← Set.injOn_univ]
    exact ⟨fun h => ⟨h.1.2, h.1.1, h.2⟩, fun h => ⟨⟨h.2.1, h.1⟩, h.2.2⟩⟩

/-- Three calls for one table and two for an undeclared one, in three files: the calls past the
first ones name the files of the first, and two tables are left without a call. -/
theorem issues_account_of_repeated_calls :
    let call (table file : String) : FactoryCall := ⟨.crud, table, file, "", {}⟩
    let tables := ["blog", "chat", "wiki"]
    let calls := [call "blog" "a.ts", call "ghost" "b.ts", call "blog" "b.ts",
      call "blog" "c.ts", call "ghost" "c.ts"]
    let found := issues tables "t.ts" calls ["a.ts", "b.ts", "c.ts"]
    tables.Nodup ∧ (namedTables calls).card = 2 ∧
      found.filter Issue.isDuplicate = [⟨"b.ts", .duplicate "blog" "a.ts"⟩,
        ⟨"c.ts", .duplicate "blog" "a.ts"⟩, ⟨"c.ts", .duplicate "ghost" "b.ts"⟩] ∧
      found.filter Issue.isUnknown =
        [⟨"b.ts", .unknownTable .crud "ghost"⟩, ⟨"c.ts", .unknownTable .crud "ghost"⟩] ∧
      ⟨"t.ts", .missingCall "chat"⟩ ∈ found.filter Issue.isMissing ∧
      ¬ Set.BijOn (fun position : Fin calls.length => calls[position].table) Set.univ
        {table | table ∈ tables} := by
  intro call tables calls found
  have htables : tables.Nodup := by decide
  obtain ⟨-, hunknown, ⟨-, hmissing⟩, hclean⟩ :=
    issues_account htables "t.ts" calls ["a.ts", "b.ts", "c.ts"]
  refine ⟨htables, by decide, by decide, hunknown, ?_, fun hbij => ?_⟩
  · exact (hmissing _).mpr ⟨"chat", by decide, by decide, rfl⟩
  · exact absurd (hclean.mpr hbij).1 (by decide)

end ClientBindings.Check
