import ClientBindings.Proofs.Functions.Merging

/-!
# Gaps of the standard functions

Which function a module has under a name: the last standard one, or else the first configured one.
Where that function has a nested dictionary, later ones that have one add arguments to it.

* `Argument.Adds`: the arguments that are added, the first of each new name (`newArguments_adds`).
* `CustomFunction.ExtendedBy`: a function with what others of its name add to it. Merging gives such
  a function (`merge_eq_extended`, `extendedBy_extended`), one after the other or all at once
  (`extended_append`).
* `Candidates`: the function that comes first under a name, and those that may add to it. A lookup
  among the merged functions finds the first candidate, extended by the others
  (`find?_foldl_addConfigured`, `Module.find?_foundFunctions`).
* `FillsGaps`, `Module.customFunctions_fill_gaps`: so a configuration fills gaps only, and to give
  its functions twice changes nothing.
-/

namespace ClientBindings

/-! ## Added arguments -/

/-- Of the arguments that are offered, those that are added to known ones: in order, one for each
new name, the first that has it. -/
structure Argument.Adds (known offered added : List Argument) : Prop where
  sublist : added.Sublist offered
  distinct : (added.map (·.name)).Nodup
  new : ∀ argument ∈ added, argument.name ∉ known.map (·.name)
  first : ∀ argument ∈ added,
    offered.find? (fun other => other.name == argument.name) = some argument
  complete : ∀ argument ∈ offered,
    argument.name ∈ known.map (·.name) ∨ argument.name ∈ added.map (·.name)

/-- Arguments under their names. -/
def Argument.entries (arguments : List Argument) : Entries Argument :=
  arguments.map fun argument => (argument.name, argument)

/-- The first arguments of new names. -/
def newArguments (known offered : List Argument) : List Argument :=
  (Entries.fresh (known.map (·.name)) (Argument.entries offered)).map (·.2)

section Arguments

variable {known offered : List Argument}

theorem Argument.names_entries (arguments : List Argument) :
    (entries arguments).names = arguments.map (·.name) := by
  simp [entries, Entries.names]

/-- The new arguments under their names. -/
theorem entries_newArguments (known offered : List Argument) :
    Argument.entries (newArguments known offered) =
      Entries.fresh (known.map (·.name)) (Argument.entries offered) := by
  rw [newArguments, Argument.entries, List.map_map]
  refine (List.map_congr_left fun entry hentry => ?_).trans (List.map_id _)
  obtain ⟨argument, -, rfl⟩ := List.mem_map.mp (Entries.fresh_subset _ _ hentry)
  rfl

theorem names_newArguments (known offered : List Argument) :
    (newArguments known offered).map (·.name) =
      (Entries.fresh (known.map (·.name)) (Argument.entries offered)).names := by
  rw [← entries_newArguments, Argument.names_entries]

/-- A new argument is the first of its name. -/
theorem find?_newArguments (name : String) (known offered : List Argument) :
    (newArguments known offered).find? (fun argument => argument.name == name) =
      if name ∈ known.map (·.name) then none
      else offered.find? fun argument => argument.name == name := by
  rw [← Entries.find?_map, ← Entries.find?_map, ← Argument.entries, ← Argument.entries,
    entries_newArguments, Entries.find?_fresh]

theorem newArguments_adds (known offered : List Argument) :
    Argument.Adds known offered (newArguments known offered) := by
  obtain ⟨hdistinct, hnew⟩ :=
    Entries.fresh_nodup (known.map (·.name)) (Argument.entries offered)
  rw [← names_newArguments] at hdistinct hnew
  have hnew : ∀ argument ∈ newArguments known offered, argument.name ∉ known.map (·.name) :=
    fun argument hargument => hnew _ (List.mem_map_of_mem hargument)
  refine ⟨?_, hdistinct, hnew, fun argument hargument => ?_, fun argument hargument => ?_⟩
  · have hsub := (Entries.fresh_sublist (known.map (·.name)) (Argument.entries offered)).map (·.2)
    rwa [← newArguments, Argument.entries, List.map_map, List.map_id''] at hsub
    exact fun _ => rfl
  · have hfound := find?_newArguments argument.name known offered
    rw [if_neg (hnew argument hargument)] at hfound
    rw [← hfound, ← Entries.find?_map]
    refine (Entries.find?_eq_some_iff ?_).mpr (List.mem_map_of_mem hargument)
    exact (Argument.names_entries _).symm ▸ hdistinct
  · refine or_iff_not_imp_left.mpr fun hknown => ?_
    have hfound := find?_newArguments argument.name known offered
    rw [if_neg hknown] at hfound
    have hsome : (offered.find? fun other => other.name == argument.name).isSome :=
      List.find?_isSome.mpr ⟨argument, hargument, beq_self_eq_true _⟩
    rw [← hfound] at hsome
    obtain ⟨other, hother, hname⟩ := List.find?_isSome.mp hsome
    exact List.mem_map.mpr ⟨other, hother, beq_iff_eq.mp hname⟩

@[simp] theorem newArguments_nil (known : List Argument) : newArguments known [] = [] := rfl

theorem newArguments_cons (known : List Argument) (argument : Argument) (rest : List Argument) :
    newArguments known (argument :: rest) =
      if argument.name ∈ known.map (·.name) then newArguments known rest
      else argument :: newArguments (known ++ [argument]) rest := by
  rw [newArguments, Argument.entries, List.map_cons, Entries.fresh]
  split
  · rfl
  · simp [newArguments, Argument.entries]

theorem newArguments_append (known offered more : List Argument) :
    newArguments known (offered ++ more) =
      newArguments known offered ++ newArguments (known ++ newArguments known offered) more := by
  simp only [newArguments, Argument.entries, List.map_append, Entries.fresh_append]
  rw [← Argument.entries, ← Argument.entries, ← names_newArguments, newArguments]

/-- Arguments that are known add nothing. -/
theorem newArguments_eq_nil (h : ∀ argument ∈ offered, argument.name ∈ known.map (·.name)) :
    newArguments known offered = [] := by
  have hadds := newArguments_adds known offered
  refine List.eq_nil_iff_forall_not_mem.mpr fun argument hargument => ?_
  exact hadds.new argument hargument (h argument (hadds.sublist.subset hargument))

/-- Arguments that were offered before add nothing. -/
theorem newArguments_append_of_names {more : List Argument}
    (h : ∀ argument ∈ more, argument.name ∈ known.map (·.name) ∨
      argument.name ∈ offered.map (·.name)) :
    newArguments known (offered ++ more) = newArguments known offered := by
  have hknown : ∀ argument ∈ more,
      argument.name ∈ (known ++ newArguments known offered).map (·.name) := by
    intro argument hargument
    rw [List.map_append, List.mem_append]
    refine (h argument hargument).elim .inl fun hoffered => ?_
    obtain ⟨other, hother, hname⟩ := List.mem_map.mp hoffered
    exact hname ▸ (newArguments_adds known offered).complete other hother
  rw [newArguments_append, newArguments_eq_nil hknown, List.append_nil]

end Arguments

/-! ## Extended functions -/

namespace CustomFunction

/-- The arguments of those functions that have a nested dictionary. -/
def nestedArguments (functions : List CustomFunction) : List Argument :=
  (functions.filter (·.isNested)).flatMap (·.arguments)

/-- A function with what others of its name add to it: arguments at the end, and only where both
have a nested dictionary. -/
inductive ExtendedBy (base : CustomFunction) (extras : List CustomFunction) : CustomFunction → Prop
  | plain : base.isNested = false → ExtendedBy base extras base
  | nested {added : List Argument} : base.isNested = true →
      Argument.Adds base.arguments (nestedArguments extras) added →
      ExtendedBy base extras { base with arguments := base.arguments ++ added }

/-- A function with what others add to it. -/
def extended (base : CustomFunction) (extras : List CustomFunction) : CustomFunction :=
  if base.isNested then
    { base with
      arguments := base.arguments ++ newArguments base.arguments (nestedArguments extras) }
  else base

variable (base extra : CustomFunction) (extras : List CustomFunction)

theorem extendedBy_extended : ExtendedBy base extras (base.extended extras) := by
  rw [extended]
  split
  · next h => exact .nested h (newArguments_adds _ _)
  · next h => exact .plain (eq_false_of_ne_true h)

@[simp] theorem extended_name : (base.extended extras).name = base.name := by
  rw [extended]
  split <;> rfl

@[simp] theorem extended_nil : base.extended [] = base := by
  rw [extended]
  split
  · simp [nestedArguments]
  · rfl

theorem nestedArguments_append (more : List CustomFunction) :
    nestedArguments (extras ++ more) = nestedArguments extras ++ nestedArguments more := by
  simp [nestedArguments]

/-- What is added first is known to what is added next. -/
theorem extended_append (more : List CustomFunction) :
    base.extended (extras ++ more) = (base.extended extras).extended more := by
  by_cases h : base.isNested <;>
    simp [extended, h, nestedArguments_append, newArguments_append]

/-- Functions whose arguments are known or were offered before add nothing. -/
theorem extended_append_of_names {more : List CustomFunction}
    (h : base.isNested = true → ∀ argument ∈ nestedArguments more,
      argument.name ∈ base.arguments.map (·.name) ∨
        argument.name ∈ (nestedArguments extras).map (·.name)) :
    base.extended (extras ++ more) = base.extended extras := by
  rw [extended, extended]
  split
  · next hnested =>
    rw [nestedArguments_append, newArguments_append_of_names (h hnested)]
  · rfl

theorem withArgument_eq (argument : Argument) : base.withArgument argument =
    if argument.name ∈ base.arguments.map (·.name) then base
    else { base with arguments := base.arguments ++ [argument] } := by
  have hknown : (base.arguments.any fun known => known.name == argument.name) =
      decide (argument.name ∈ base.arguments.map (·.name)) := by
    rw [Bool.eq_iff_iff]
    simp
  simp only [withArgument, hknown, decide_eq_true_eq]

theorem foldl_withArgument (offered : List Argument) : offered.foldl withArgument base =
    { base with arguments := base.arguments ++ newArguments base.arguments offered } := by
  induction offered generalizing base with
  | nil => simp
  | cons argument rest ih =>
    rw [List.foldl_cons, withArgument_eq, newArguments_cons]
    split
    · exact ih base
    · simp [ih]

/-- Merging extends. -/
theorem merge_eq_extended : (if base.isNested && extra.isNested then
    extra.arguments.foldl withArgument base else base) = base.extended [extra] := by
  rw [foldl_withArgument, extended, nestedArguments]
  by_cases hbase : base.isNested
  · by_cases hextra : extra.isNested
    · simp [hbase, hextra]
    · rw [if_neg (by simp [hextra]), if_pos hbase]
      simp [hextra]
  · simp [hbase]

end CustomFunction

/-! ## The functions found under a name -/

/-- The first function with what the later ones add to it. -/
def firstExtended : List CustomFunction → Option CustomFunction
  | [] => none
  | base :: extras => some (base.extended extras)

/-- The functions of a name. -/
def functionsNamed (name : String) (functions : List CustomFunction) : List CustomFunction :=
  functions.filter fun function => function.name == name

theorem find?_addConfigured (name : String) (found : Entries CustomFunction)
    (extra : CustomFunction) : (addConfigured found extra).find? name =
      if extra.name = name then firstExtended ((found.find? name).toList ++ [extra])
      else found.find? name := by
  by_cases h : extra.name = name
  · subst h
    rw [if_pos rfl, addConfigured]
    cases hfind : found.find? extra.name with
    | none => simp [firstExtended, Entries.find?_putSorted_self]
    | some known =>
      simp only [Option.toList_some, List.singleton_append, firstExtended]
      rw [← CustomFunction.merge_eq_extended]
      split
      · rw [Entries.find?_putSorted_self]
      · exact hfind
  · rw [if_neg h, addConfigured]
    split
    · rw [Entries.find?_putSorted_of_ne (Ne.symm h)]
    · split
      · rw [Entries.find?_putSorted_of_ne (Ne.symm h)]
      · rfl

/-- The first function of a name is extended by the configured ones after it. -/
theorem find?_foldl_addConfigured (name : String) (extras : List CustomFunction)
    (found : Entries CustomFunction) : (extras.foldl addConfigured found).find? name =
      firstExtended ((found.find? name).toList ++ functionsNamed name extras) := by
  induction extras generalizing found with
  | nil => cases h : found.find? name <;> simp [functionsNamed, firstExtended, h]
  | cons extra rest ih =>
    rw [List.foldl_cons, ih, find?_addConfigured]
    by_cases h : extra.name = name
    · have hnamed : functionsNamed name (extra :: rest) = extra :: functionsNamed name rest :=
        List.filter_cons_of_pos (beq_iff_eq.mpr h)
      -- The function found so far, if any, takes its addition before the rest is looked at.
      rw [if_pos h, hnamed]
      cases found.find? name <;>
        simp [firstExtended, ← CustomFunction.extended_append]
    · have hnamed : functionsNamed name (extra :: rest) = functionsNamed name rest :=
        List.filter_cons_of_neg (by simp [h])
      rw [if_neg h, hnamed]

/-- The function that comes first under a name, the last standard one or else the first configured
one, and the functions that may add to it. -/
inductive Candidates (standard configured : List CustomFunction) :
    CustomFunction → List CustomFunction → Prop
  | standard {before after : List CustomFunction} {base : CustomFunction} :
      standard = before ++ base :: after → base.name ∉ after.map (·.name) →
      Candidates standard configured base (functionsNamed base.name configured)
  | configured {before after : List CustomFunction} {base : CustomFunction} :
      configured = before ++ base :: after → base.name ∉ before.map (·.name) →
      base.name ∉ standard.map (·.name) →
      Candidates standard configured base (functionsNamed base.name after)

/-- The last standard function of a name, if there is one, comes before the configured ones. -/
theorem Candidates.of_eq_cons {standard configured extras : List CustomFunction} {name : String}
    {base : CustomFunction}
    (h : (standard.reverse.find? fun function => function.name == name).toList ++
      functionsNamed name configured = base :: extras) :
    base.name = name ∧ Candidates standard configured base extras := by
  cases hlast : standard.reverse.find? fun function => function.name == name with
  | some last =>
    rw [hlast, Option.toList_some, List.singleton_append, List.cons.injEq] at h
    obtain ⟨rfl, rfl⟩ := h
    obtain ⟨hname, after, before, hsplit, hafter⟩ := List.find?_eq_some_iff_append.mp hlast
    obtain rfl := beq_iff_eq.mp hname
    have hstandard : standard = before.reverse ++ last :: after.reverse := by
      simpa using congrArg List.reverse hsplit
    exact ⟨rfl, .standard hstandard (by simpa using hafter)⟩
  | none =>
    rw [hlast, Option.toList_none, List.nil_append] at h
    obtain ⟨before, after, rfl, hbefore, hname, rfl⟩ := List.filter_eq_cons_iff.mp h
    obtain rfl := beq_iff_eq.mp hname
    refine ⟨rfl, .configured rfl ?_ ?_⟩
    · simpa using hbefore
    · simpa using List.find?_eq_none.mp hlast

/-- Functions that were there before add nothing. -/
theorem firstExtended_append_of_subset {functions more : List CustomFunction}
    (h : more ⊆ functions) : firstExtended (functions ++ more) = firstExtended functions := by
  cases functions with
  | nil => rw [List.subset_nil.mp h, List.append_nil]
  | cons base extras =>
    -- An argument of the first function is known to it, one of the others was offered before.
    refine congrArg some (base.extended_append_of_names extras fun hnested argument hargument => ?_)
    obtain ⟨function, hfunction, hmem⟩ := List.mem_flatMap.mp hargument
    obtain ⟨hmore, hisNested⟩ := List.mem_filter.mp hfunction
    rcases List.mem_cons.mp (h hmore) with rfl | hextra
    · exact .inl (List.mem_map_of_mem hmem)
    · exact .inr (List.mem_map_of_mem
        (List.mem_flatMap.mpr ⟨function, List.mem_filter.mpr ⟨hextra, hisNested⟩, hmem⟩))

/-! ## The custom functions of a module -/

/-- The functions of a module, put together from standard and configured ones: each is the last
standard one of its name, or else the first configured one, with what the other configured ones of
the name add to it. -/
structure FillsGaps (exports : List String) (standard configured functions : List CustomFunction) :
    Prop where
  ascending : (functions.map (·.name)).Pairwise (· < ·)
  names : ∀ name, name ∈ functions.map (·.name) ↔
    name ∈ exports ∧ (name ∈ standard.map (·.name) ∨ name ∈ configured.map (·.name))
  origin : ∀ function ∈ functions, ∃ base extras,
    Candidates standard configured base extras ∧ base.ExtendedBy extras function

/-- The configuration with the functions of a module given twice. -/
def Config.repeated (config : Config) (module : String) : Config :=
  { config with
    functions := config.functions.putSorted module
      (config.functionsFor module ++ config.functionsFor module) }

theorem Config.functionsFor_repeated (config : Config) (module : String) :
    (config.repeated module).functionsFor module =
      config.functionsFor module ++ config.functionsFor module := by
  rw [functionsFor, repeated, Entries.find?_putSorted_self, Option.getD_some]

namespace Module

variable (module : Module) (model : Model) (config : Config)

/-- The last standard function of a name counts. -/
theorem find?_standardEntries (name : String) :
    (module.standardEntries model).find? name =
      (module.standardFunctions model).reverse.find? fun function => function.name == name := by
  rw [standardEntries, Entries.find?_sortedOfPairs, ← List.map_reverse, Entries.find?_map]

/-- The functions of a name from which the one that the module has is made. -/
def candidates (name : String) : List CustomFunction :=
  ((module.standardFunctions model).reverse.find? fun function => function.name == name).toList ++
    functionsNamed name (config.functionsFor module.name)

/-- The functions of the module by name, whether or not it exports them. -/
def foundFunctions : Entries CustomFunction :=
  (config.functionsFor module.name).foldl addConfigured (module.standardEntries model)

theorem foundFunctions_byName : ByName (module.foundFunctions model config) :=
  (ByName.sortedOfPairs _).foldl_addConfigured _

theorem find?_foundFunctions (name : String) :
    (module.foundFunctions model config).find? name =
      firstExtended (module.candidates model config name) := by
  rw [foundFunctions, find?_foldl_addConfigured, find?_standardEntries, candidates]

theorem mem_customFunctions {function : CustomFunction} :
    function ∈ module.customFunctions model config ↔
      function.name ∈ module.exports ∧
        firstExtended (module.candidates model config function.name) = some function := by
  have hfound := module.foundFunctions_byName model config
  rw [customFunctions, List.mem_filter, ← find?_foundFunctions,
    Entries.find?_eq_some_iff (hfound.ascending.imp ne_of_lt), and_comm]
  refine and_congr (by simp [exportsName]) ⟨fun h => ?_, fun h => List.mem_map.mpr ⟨_, h, rfl⟩⟩
  obtain ⟨entry, hentry, rfl⟩ := List.mem_map.mp h
  exact hfound.named entry hentry ▸ hentry

/-- A name has candidates if a standard or configured function has it. -/
theorem candidates_eq_nil_iff (name : String) : module.candidates model config name = [] ↔
    name ∉ (module.standardFunctions model).map (·.name) ∧
      name ∉ (config.functionsFor module.name).map (·.name) := by
  rw [candidates, List.append_eq_nil_iff, Option.toList_eq_nil_iff, List.find?_eq_none,
    functionsNamed, List.filter_eq_nil_iff]
  simp

/-- The module has a function under each name that it exports and that has candidates. -/
theorem mem_names_customFunctions (name : String) :
    name ∈ (module.customFunctions model config).map (·.name) ↔
      name ∈ module.exports ∧ module.candidates model config name ≠ [] := by
  constructor
  · intro h
    obtain ⟨function, hfunction, rfl⟩ := List.mem_map.mp h
    obtain ⟨hexported, hfirst⟩ := (module.mem_customFunctions model config).mp hfunction
    refine ⟨hexported, fun hnil => ?_⟩
    rw [hnil] at hfirst
    cases hfirst
  · rintro ⟨hexported, hne⟩
    obtain ⟨base, extras, hcandidates⟩ := List.exists_cons_of_ne_nil hne
    obtain ⟨rfl, -⟩ := Candidates.of_eq_cons hcandidates
    refine List.mem_map.mpr ⟨base.extended extras, ?_, base.extended_name extras⟩
    rw [mem_customFunctions, base.extended_name, hcandidates]
    exact ⟨hexported, rfl⟩

theorem exists_candidates {function : CustomFunction}
    (h : function ∈ module.customFunctions model config) : ∃ base extras,
      Candidates (module.standardFunctions model) (config.functionsFor module.name) base extras ∧
        base.ExtendedBy extras function := by
  obtain ⟨-, hfirst⟩ := (module.mem_customFunctions model config).mp h
  cases hcandidates : module.candidates model config function.name with
  | nil =>
    rw [hcandidates] at hfirst
    cases hfirst
  | cons base extras =>
    rw [hcandidates] at hfirst
    obtain ⟨-, hbase⟩ := Candidates.of_eq_cons hcandidates
    exact ⟨base, extras, hbase, Option.some.inj hfirst ▸ base.extendedBy_extended extras⟩

/-- Functions that are configured again are known by then. -/
theorem foundFunctions_repeated : module.foundFunctions model (config.repeated module.name) =
    module.foundFunctions model config := by
  refine Entries.ext_find? (module.foundFunctions_byName model _).ascending
    (module.foundFunctions_byName model _).ascending fun name => ?_
  have hcandidates : module.candidates model (config.repeated module.name) name =
      module.candidates model config name ++
        functionsNamed name (config.functionsFor module.name) := by
    simp [candidates, Config.functionsFor_repeated, functionsNamed]
  rw [find?_foundFunctions, find?_foundFunctions, hcandidates]
  exact firstExtended_append_of_subset (List.subset_append_right _ _)

/-- **Gaps.** The configuration fills gaps only, and a second time it finds none. -/
theorem customFunctions_fill_gaps :
    FillsGaps module.exports (module.standardFunctions model) (config.functionsFor module.name)
      (module.customFunctions model config) ∧
    module.customFunctions model (config.repeated module.name) =
      module.customFunctions model config := by
  refine ⟨⟨module.customFunctions_ascending model config, fun name => ?_,
    fun function => module.exists_candidates model config⟩, ?_⟩
  · rw [mem_names_customFunctions, ne_eq, candidates_eq_nil_iff, not_and_or, not_not, not_not]
  · have hfound := module.foundFunctions_repeated model config
    rw [foundFunctions, foundFunctions] at hfound
    simp only [customFunctions, hfound]

end Module

end ClientBindings
