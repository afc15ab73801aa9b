import ClientBindings.Proofs.Client.WireValues
import ClientBindings.Proofs.Entries

/-!
# What becomes of parameters

What the parameters of a custom function's method bring to the backend call. The local dictionaries
of the method are followed from the statement that makes them to the call, by their names: a
parameter that has the name of one is hidden by it.

* `Locals`, `Statement.run`: the local dictionaries with what they hold, statement by statement.
  `Method.contributions`: what the call sends in the end.
* `CustomFunction.shares`: the parameters, each with what it should bring: an entry, a copy, or the
  dictionaries of its elements.
* `CustomFunction.contributions_perm`: a call sends the share of every argument once, and the outer
  parameters beside a nested dictionary.
* `CustomFunction.sends_shares_iff`: so it sends what every parameter should bring exactly if the
  function is nested or has no outer parameters.
-/

namespace ClientBindings

/-! ## What reaches a call -/

/-- A part of what a call sends. -/
inductive Contribution
  /-- An entry of a dictionary literal. -/
  | entry (entry : DictEntry)
  /-- An entry that is copied where a parameter has a value. -/
  | copy (parameter : String) (entry : DictEntry)
  /-- An array of records, each element as a dictionary of the given fields. -/
  | elements (array : String) (required optional : List ElementField)
  deriving DecidableEq, Repr

/-- The local dictionaries of a method, with what they hold. -/
abbrev Locals := Entries (List Contribution)

namespace Locals

/-- What an expression brings: what the local dictionary of that name holds, or else its own
contribution. -/
def resolve (locals : Locals) (text : String) (own : Contribution) : List Contribution :=
  (locals.find? text).getD [own]

/-- What a dictionary literal holds. -/
def literal (locals : Locals) (entries : List DictEntry) : List Contribution :=
  entries.flatMap fun entry => locals.resolve entry.value.text (.entry entry)

/-- Copies a parameter into a dictionary, unless a local dictionary hides the parameter. -/
def copy (locals : Locals) (parameter dictionary : String) (entry : DictEntry) : Locals :=
  match locals.find? parameter, locals.find? dictionary with
  | none, some held =>
    locals.put dictionary (held ++ locals.resolve entry.value.text (.copy parameter entry))
  | _, _ => locals

end Locals

/-- The local dictionaries past a statement. -/
def Statement.run (locals : Locals) : Statement → Locals
  | .dictionary _ name entries => locals.put name (locals.literal entries)
  | .copy parameter target entry => locals.copy parameter target entry
  | .cursor => locals.copy "cursor" "paginationOpts" (.same "cursor")
  | .elements array dictionaries required optional =>
    locals.put dictionaries (locals.resolve array (.elements array required optional))

/-- What the payload sends, given the local dictionaries. -/
def Payload.contributions (locals : Locals) : Payload → List Contribution
  | .literal entries => locals.literal entries
  | .variable name => (locals.find? name).getD []
  | .listArgs arguments =>
    locals.literal (arguments.map fun (label, value) => ⟨label, ⟨value, .plain⟩⟩)

/-- What the call of a method sends. -/
def Method.contributions (method : Method) : List Contribution :=
  method.payload.contributions (method.setup.foldl Statement.run [])

/-! ## What parameters should bring -/

/-- What an argument of its own brings. -/
def Argument.share (argument : Argument) : Contribution :=
  if argument.isOptional then .copy argument.name argument.entry else .entry argument.entry

/-- What the array brings that is encoded element by element. -/
def RecordArray.share (array : RecordArray) (registry : Registry) : Contribution :=
  .elements array.argument ((array.fields registry).filter fun field => !field.isOptional)
    ((array.fields registry).filter ElementField.isOptional)

namespace CustomFunction

/-- The array that is encoded element by element. In a nested dictionary there is none. -/
def encoded? (function : CustomFunction) : Option RecordArray :=
  if function.isNested then none else function.recordArray?

/-- What an argument should bring. -/
def share (function : CustomFunction) (registry : Registry) (argument : Argument) : Contribution :=
  match function.encoded? with
  | some array => if argument.name = array.argument then array.share registry else argument.share
  | none => argument.share

/-- The outer parameters. -/
def outerShares (function : CustomFunction) : List (Parameter × Contribution) :=
  function.outer.map fun name => ({ name, type := .string }, .entry (.same name))

/-- The parameters of the method, each with what it should bring. -/
def shares (function : CustomFunction) (registry : Registry) : List (Parameter × Contribution) :=
  function.outerShares ++
    function.arguments.map fun argument => (argument.param, function.share registry argument)

/-- The arguments that are not encoded element by element. -/
def others (function : CustomFunction) : List Argument :=
  function.arguments.filter fun argument =>
    function.encoded?.all fun array => argument.name != array.argument

/-- The names of the dictionaries of elements. -/
def elementLocals (function : CustomFunction) : List String :=
  function.encoded?.toList.map RecordArray.dictionaries

/-- The names of the local dictionaries that the method may have. -/
def localNames (function : CustomFunction) : List String :=
  (if function.isNested then "data" else "args") :: function.elementLocals

/-- No local dictionary hides a parameter, or what is sent for it, where it is used. -/
structure Unhidden (function : CustomFunction) : Prop where
  outer : function.isNested = true → "data" ∉ function.outer
  required : ∀ argument ∈ function.others, argument.isOptional = false →
    argument.wireExpr ∉ function.elementLocals
  optional : ∀ argument ∈ function.others, argument.isOptional = true →
    argument.name ∉ function.localNames ∧ argument.wireExpr ∉ function.localNames

end CustomFunction

/-! ## Following the dictionaries -/

namespace Locals

variable {locals : Locals}

theorem resolve_of_not_mem {text : String} (h : text ∉ locals.names) (own : Contribution) :
    locals.resolve text own = [own] := by
  rw [resolve, Entries.find?_eq_none_iff.mpr h, Option.getD_none]

theorem literal_append (entries rest : List DictEntry) :
    locals.literal (entries ++ rest) = locals.literal entries ++ locals.literal rest :=
  List.flatMap_append

/-- Entries whose values name no local dictionary are sent as they are. -/
theorem literal_of_not_mem {entries : List DictEntry}
    (h : ∀ entry ∈ entries, entry.value.text ∉ locals.names) :
    locals.literal entries = entries.map .entry := by
  rw [literal, List.map_eq_flatMap]
  exact List.flatMap_congr fun entry hentry => resolve_of_not_mem (h entry hentry) _

/-- Arguments that must be given bring their shares to a literal. -/
theorem literal_requiredEntries {arguments : List Argument}
    (h : ∀ argument ∈ arguments, argument.isOptional = false →
      argument.wireExpr ∉ locals.names) :
    locals.literal (requiredEntries arguments) =
      (arguments.filter fun argument => !argument.isOptional).map Argument.share := by
  rw [requiredEntries, literal_of_not_mem, List.map_map]
  · refine List.map_congr_left fun argument hargument => ?_
    have hrequired : argument.isOptional = false := by
      simpa using (List.mem_filter.mp hargument).2
    simp [Argument.share, hrequired]
  · intro entry hentry
    obtain ⟨argument, hargument, rfl⟩ := List.mem_map.mp hentry
    obtain ⟨hmem, hrequired⟩ := List.mem_filter.mp hargument
    exact h argument hmem (by simpa using hrequired)

theorem names_copy (locals : Locals) (parameter dictionary : String) (entry : DictEntry) :
    (locals.copy parameter dictionary entry).names = locals.names := by
  rw [copy]
  split
  · next held _ hheld => rw [Entries.names_put, if_pos (Entries.mem_names_of_find? hheld)]
  · rfl

theorem foldl_optionalCopies_cons (locals : Locals) (dictionary : String) (argument : Argument)
    (rest : List Argument) :
    (optionalCopies dictionary (argument :: rest)).foldl Statement.run locals =
      (optionalCopies dictionary rest).foldl Statement.run
        (if argument.isOptional then locals.copy argument.name dictionary argument.entry
          else locals) := by
  rw [optionalCopies, List.filter_cons]
  split <;> rfl

theorem names_optionalCopies (locals : Locals) (dictionary : String) (arguments : List Argument) :
    ((optionalCopies dictionary arguments).foldl Statement.run locals).names = locals.names := by
  induction arguments generalizing locals with
  | nil => rfl
  | cons argument rest ih =>
    rw [foldl_optionalCopies_cons, ih]
    split
    · exact names_copy _ _ _ _
    · rfl

/-- Arguments that may be left out bring their shares to the dictionary that they are copied to. -/
theorem find?_optionalCopies {dictionary : String} {held : List Contribution}
    {arguments : List Argument} (hheld : locals.find? dictionary = some held)
    (h : ∀ argument ∈ arguments, argument.isOptional = true →
      argument.name ∉ locals.names ∧ argument.wireExpr ∉ locals.names) :
    ((optionalCopies dictionary arguments).foldl Statement.run locals).find? dictionary =
      some (held ++ (arguments.filter Argument.isOptional).map Argument.share) := by
  induction arguments generalizing locals held with
  | nil => simpa [optionalCopies] using hheld
  | cons argument rest ih =>
    have hrest := fun other hother => h other (List.mem_cons_of_mem argument hother)
    rw [foldl_optionalCopies_cons, List.filter_cons]
    by_cases hoptional : argument.isOptional = true
    · obtain ⟨hname, hexpr⟩ := h argument List.mem_cons_self hoptional
      have hcopy : locals.copy argument.name dictionary argument.entry =
          locals.put dictionary (held ++ [argument.share]) := by
        rw [copy, Entries.find?_eq_none_iff.mpr hname, hheld, Argument.share, if_pos hoptional]
        exact congrArg (fun own => locals.put dictionary (held ++ own)) (resolve_of_not_mem hexpr _)
      have hput := ih (Entries.find?_put_self dictionary (held ++ [argument.share]) locals)
        (by rwa [← hcopy, names_copy])
      rw [if_pos hoptional, if_pos hoptional, hcopy, hput, List.append_assoc,
        List.singleton_append, List.map_cons]
    · rw [if_neg hoptional, if_neg hoptional]
      exact ih hheld hrest

end Locals

/-- The shares of arguments, those that must be given first. -/
theorem Argument.shares_perm (arguments : List Argument) :
    ((arguments.filter fun argument => !argument.isOptional).map share ++
      (arguments.filter isOptional).map share).Perm (arguments.map share) := by
  rw [← List.map_append]
  exact (filter_not_append_perm _ _).map _

section Payloads

variable {locals : Locals} {arguments : List Argument}

/-- A dictionary that arguments are put into holds the share of each, past the leading entries. -/
theorem exists_held (isMutable : Bool) (dictionary : String) (leading : List DictEntry)
    (hrequired : ∀ argument ∈ arguments, argument.isOptional = false →
      argument.wireExpr ∉ locals.names)
    (hoptional : ∀ argument ∈ arguments, argument.isOptional = true →
      argument.name ∉ dictionary :: locals.names ∧
        argument.wireExpr ∉ dictionary :: locals.names) :
    ∃ held, ((.dictionary isMutable dictionary (leading ++ requiredEntries arguments) ::
        optionalCopies dictionary arguments).foldl Statement.run locals).find? dictionary =
          some held ∧
      held.Perm (locals.literal leading ++ arguments.map Argument.share) := by
  have hnames {name : String} (held : List Contribution) (h : name ∉ dictionary :: locals.names) :
      name ∉ (locals.put dictionary held).names := by
    rw [Entries.names_put]
    split <;> simp_all
  refine ⟨_, Locals.find?_optionalCopies (Entries.find?_put_self _ _ _) ?_, ?_⟩
  · intro argument hargument hisOptional
    obtain ⟨hname, hexpr⟩ := hoptional argument hargument hisOptional
    exact ⟨hnames _ hname, hnames _ hexpr⟩
  · rw [Locals.literal_append, Locals.literal_requiredEntries hrequired, List.append_assoc]
    exact List.Perm.append_left _ (Argument.shares_perm arguments)

/-- Arguments in one dictionary bring their shares, past the leading entries. -/
theorem plainPayload_contributions (locals : Locals) (leading : List DictEntry)
    (hrequired : ∀ argument ∈ arguments, argument.isOptional = false →
      argument.wireExpr ∉ locals.names)
    (hoptional : ∀ argument ∈ arguments, argument.isOptional = true →
      argument.name ∉ "args" :: locals.names ∧ argument.wireExpr ∉ "args" :: locals.names) :
    ((plainPayload leading arguments).2.contributions
      ((plainPayload leading arguments).1.foldl Statement.run locals)).Perm
        (locals.literal leading ++ arguments.map Argument.share) := by
  rw [plainPayload]
  split
  · obtain ⟨held, hheld, hperm⟩ := exists_held true "args" leading hrequired hoptional
    rw [Payload.contributions, hheld, Option.getD_some]
    exact hperm
  · next hnone =>
    have hnil : arguments.filter Argument.isOptional = [] := by
      simpa [List.filter_eq_nil_iff] using hnone
    have hshares := Argument.shares_perm arguments
    rw [hnil, List.map_nil, List.append_nil] at hshares
    rw [Payload.contributions, List.foldl_nil, Locals.literal_append,
      Locals.literal_requiredEntries hrequired]
    exact hshares.append_left _

/-- Arguments in a nested dictionary bring their shares, and so do the outer ones beside it. -/
theorem nestedPayload_contributions {outer : List String} (houter : "data" ∉ outer)
    (hoptional : ∀ argument ∈ arguments, argument.isOptional = true →
      argument.name ∉ ["data"] ∧ argument.wireExpr ∉ ["data"]) :
    ((nestedPayload outer arguments).2.contributions
      ((nestedPayload outer arguments).1.foldl Statement.run [])).Perm
        (outer.map (fun name => .entry (.same name)) ++ arguments.map Argument.share) := by
  have hrequired : ∀ argument ∈ arguments, argument.isOptional = false →
      argument.wireExpr ∉ Entries.names ([] : Locals) := fun _ _ _ => List.not_mem_nil
  obtain ⟨held, hheld, hperm⟩ :=
    exists_held (arguments.any Argument.isOptional) "data" [] hrequired hoptional
  have hnames : ((nestedPayload outer arguments).1.foldl Statement.run []).names = ["data"] :=
    Locals.names_optionalCopies _ _ _
  have houter : ((nestedPayload outer arguments).1.foldl Statement.run []).literal
      (outer.map .same) = outer.map fun name => .entry (.same name) := by
    rw [Locals.literal_of_not_mem, List.map_map]
    · rfl
    · intro entry hentry
      obtain ⟨name, hname, rfl⟩ := List.mem_map.mp hentry
      rw [hnames, List.mem_singleton]
      rintro rfl
      exact houter hname
  have hdata : ((nestedPayload outer arguments).1.foldl Statement.run []).literal
      [.same "data"] = held := by
    rw [Locals.literal, List.flatMap_singleton, Locals.resolve]
    exact congrArg (Option.getD · _) hheld
  change (Locals.literal _ (outer.map .same ++ [.same "data"])).Perm _
  rw [Locals.literal_append, houter, hdata]
  exact hperm.append_left _

/-- The dictionaries of an array that is encoded element by element stand beside the other
arguments. -/
theorem recordArrayPayload_contributions (registry : Registry) (array : RecordArray)
    (hrequired : ∀ argument ∈ arguments.filter (fun argument => argument.name != array.argument),
      argument.isOptional = false → argument.wireExpr ∉ [array.dictionaries])
    (hoptional : ∀ argument ∈ arguments.filter (fun argument => argument.name != array.argument),
      argument.isOptional = true → argument.name ∉ ["args", array.dictionaries] ∧
        argument.wireExpr ∉ ["args", array.dictionaries]) :
    ((recordArrayPayload registry array arguments).2.contributions
      ((recordArrayPayload registry array arguments).1.foldl Statement.run [])).Perm
        (array.share registry :: (arguments.filter fun argument =>
          argument.name != array.argument).map Argument.share) := by
  let locals : Locals := [(array.dictionaries, [array.share registry])]
  have hleading : locals.literal [⟨array.argument, ⟨array.dictionaries, .plain⟩⟩] =
      [array.share registry] := by
    simp [locals, Locals.literal, Locals.resolve, WireValue.text, Entries.find?]
  have hplain := plainPayload_contributions locals
    [⟨array.argument, ⟨array.dictionaries, .plain⟩⟩] hrequired hoptional
  rw [hleading, List.singleton_append] at hplain
  rw [recordArrayPayload, List.partition_eq_filter_filter]
  exact hplain

end Payloads

/-! ## Methods -/

/-- An item and those of other names, where names are distinct. -/
theorem cons_filter_perm {α : Type} {nameOf : α → String} {items : List α} {item : α}
    (h : (items.map nameOf).Nodup) (hitem : item ∈ items) :
    (item :: items.filter fun other => nameOf other != nameOf item).Perm items := by
  induction items with
  | nil => cases hitem
  | cons first rest ih =>
    obtain ⟨hfirst, hrest⟩ := List.nodup_cons.mp h
    rcases List.mem_cons.mp hitem with rfl | hmem
    · have hkept : rest.filter (fun other => nameOf other != nameOf item) = rest :=
        List.filter_eq_self.mpr fun other hother =>
          bne_iff_ne.mpr fun heq => hfirst (heq ▸ List.mem_map_of_mem hother)
      simp [hkept]
    · have hne : nameOf first ≠ nameOf item := fun heq => hfirst (heq ▸ List.mem_map_of_mem hmem)
      rw [List.filter_cons, if_pos (bne_iff_ne.mpr hne)]
      exact (List.Perm.swap _ _ _).trans ((ih hrest hmem).cons first)

namespace CustomFunction

variable {function : CustomFunction}

/-- The shares of the arguments: that of the array that is encoded, and those of the others. -/
theorem share_perm (hnames : (function.arguments.map (·.name)).Nodup) (registry : Registry)
    {array : RecordArray} (hencoded : function.encoded? = some array)
    (harray : array.argument ∈ function.arguments.map (·.name)) :
    (array.share registry :: function.others.map Argument.share).Perm
      (function.arguments.map (function.share registry)) := by
  obtain ⟨argument, hargument, hname⟩ := List.mem_map.mp harray
  have hothers : function.others =
      function.arguments.filter fun other => other.name != argument.name := by
    simp only [others, hencoded, Option.all_some, hname]
  have hshare : function.share registry argument = array.share registry := by
    rw [share, hencoded]
    exact if_pos hname
  have hshares : function.others.map (function.share registry) =
      function.others.map Argument.share := by
    refine List.map_congr_left fun other hother => ?_
    rw [hothers] at hother
    rw [share, hencoded]
    exact if_neg (hname ▸ bne_iff_ne.mp (List.mem_filter.mp hother).2)
  rw [← hshares, ← hshare, ← List.map_cons, hothers]
  exact (cons_filter_perm hnames hargument).map _

/-- Without an array that is encoded, every argument brings a share of its own. -/
theorem share_eq (h : function.encoded? = none) (registry : Registry) :
    function.arguments.map (function.share registry) =
      function.arguments.map Argument.share := by
  refine List.map_congr_left fun argument _ => ?_
  rw [share, h]

theorem others_eq (h : function.encoded? = none) : function.others = function.arguments :=
  List.filter_eq_self.mpr fun argument _ => by rw [h, Option.all_none]

/-- What a call sends: the share of every argument, and those of the outer parameters only beside a
nested dictionary. -/
theorem contributions_perm {around : Surroundings} {target : Target} {method : Method}
    (hmethod : function.method? around target = some method)
    (hnames : (function.arguments.map (·.name)).Nodup)
    (harray : ∀ array, function.recordArray? = some array →
      array.argument ∈ function.arguments.map (·.name))
    (hunhidden : function.Unhidden) :
    method.contributions.Perm ((if function.isNested then function.outerShares.map (·.2) else []) ++
      function.arguments.map (function.share around.registry)) := by
  obtain ⟨houter, hrequired, hoptional⟩ := hunhidden
  have harrange := method?_arrange hmethod
  have hsetup : method.setup = (function.arrange around.registry).1 := congrArg Prod.fst harrange
  have hpayload : method.payload = (function.arrange around.registry).2 :=
    congrArg Prod.snd harrange
  rw [Method.contributions, hsetup, hpayload, arrange]
  rw [localNames, elementLocals] at hoptional
  rw [elementLocals] at hrequired
  by_cases hnested : function.isNested = true
  · have hencoded : function.encoded? = none := if_pos hnested
    rw [others_eq hencoded, hencoded, if_pos hnested] at hoptional
    rw [if_pos hnested, if_pos hnested, share_eq hencoded, outerShares, List.map_map]
    exact nestedPayload_contributions (houter hnested) hoptional
  · rw [if_neg hnested] at hoptional
    rw [if_neg hnested, if_neg hnested, List.nil_append]
    cases hrecord : function.recordArray? with
    | none =>
      have hencoded : function.encoded? = none := (if_neg hnested).trans hrecord
      rw [others_eq hencoded, hencoded] at hrequired hoptional
      rw [share_eq hencoded]
      exact plainPayload_contributions [] [] hrequired hoptional
    | some array =>
      have hencoded : function.encoded? = some array := (if_neg hnested).trans hrecord
      refine .trans ?_ (share_perm hnames around.registry hencoded (harray array hrecord))
      simp only [others, hencoded, Option.all_some] at hrequired hoptional ⊢
      exact recordArrayPayload_contributions around.registry array hrequired hoptional

theorem method?_params {around : Surroundings} {target : Target} {method : Method}
    (hmethod : function.method? around target = some method) :
    method.params = (function.shares around.registry).map (·.1) := by
  rw [method?] at hmethod
  split at hmethod
  · cases hmethod
  · cases hmethod
    rw [shares, outerShares, List.map_append, List.map_map, List.map_map]
    rfl

/-- **What becomes of parameters.** Where names are distinct and no local dictionary hides one, a
call sends what each parameter of the method should bring, once and nothing else, exactly if the
function has a nested dictionary or no outer parameters. -/
theorem sends_shares_iff {around : Surroundings} {target : Target} {method : Method}
    (hmethod : function.method? around target = some method)
    (hnames : (function.outer ++ function.arguments.map (·.name)).Nodup)
    (harray : ∀ array, function.recordArray? = some array →
      array.argument ∈ function.arguments.map (·.name))
    (hunhidden : function.Unhidden) :
    method.params = (function.shares around.registry).map (·.1) ∧
    (method.contributions.Perm ((function.shares around.registry).map (·.2)) ↔
      function.isNested = true ∨ function.outer = []) := by
  have hperm := contributions_perm hmethod (List.nodup_append.mp hnames).2.1 harray hunhidden
  have hshares : (function.shares around.registry).map (·.2) = function.outerShares.map (·.2) ++
      function.arguments.map (function.share around.registry) := by
    rw [shares, List.map_append, List.map_map]
    rfl
  rw [hshares]
  refine ⟨method?_params hmethod, fun hsends => ?_, fun h => ?_⟩
  · by_contra hnone
    obtain ⟨hnested, hne⟩ := not_or.mp hnone
    rw [if_neg hnested, List.nil_append] at hperm
    have hlength := (hperm.symm.trans hsends).length_eq
    have houter : function.outer.length = 0 := by
      simpa [outerShares] using hlength
    exact hne (List.length_eq_zero_iff.mp houter)
  · rcases h with hnested | houter
    · rwa [if_pos hnested] at hperm
    · simpa [outerShares, houter] using hperm

/-- Messages are created with an array of parts that is encoded part by part, a chat, and a note if
there is one. -/
theorem sends_shares_of_parts :
    let text : ElementField := { name := "text", isOptional := true }
    let type : ElementField := { name := "type", isEnum := true }
    let parts : RecordArray :=
      { argument := "parts", record := "MessagePart", fields? := some [text, type] }
    let function : CustomFunction :=
      { name := "create"
        kind := .mutation
        arguments := [.optional "note" "String", .required "parts" "[MessagePart]",
          .required "chatId" "String"]
        recordArray? := some parts }
    let around : Surroundings := ⟨⟨"message", ["create"], "message", none, []⟩, none, none, {}⟩
    ∃ method, function.method? around .full = some method ∧
      (function.outer ++ function.arguments.map (·.name)).Nodup ∧
      parts.argument ∈ function.arguments.map (·.name) ∧ function.Unhidden ∧
      method.contributions.Perm [.copy "note" (.same "note"), .elements "parts" [type] [text],
        .entry (.same "chatId")] := by
  intro text type parts function around
  have hnames : (function.outer ++ function.arguments.map (·.name)).Nodup := by decide
  have harray : parts.argument ∈ function.arguments.map (·.name) := by decide
  have hunhidden : function.Unhidden := ⟨nofun, by decide, by decide⟩
  obtain ⟨method, hmethod⟩ : ∃ method, function.method? around .full = some method := ⟨_, rfl⟩
  have hsends := sends_shares_iff hmethod hnames
    (fun array h => Option.some.inj h ▸ harray) hunhidden
  exact ⟨method, hmethod, hnames, harray, hunhidden, hsends.2.mpr (.inr rfl)⟩

/-- A function has an outer parameter, but no nested dictionary: its method takes the parameter, and
the call sends nothing. -/
theorem outer_parameter_lost :
    let function : CustomFunction := { name := "publish", kind := .mutation, outer := ["orgId"] }
    let around : Surroundings := ⟨⟨"blog", ["publish"], "blog", none, []⟩, none, none, {}⟩
    (function.outer ++ function.arguments.map (·.name)).Nodup ∧ function.recordArray? = none ∧
      ∃ method, function.method? around .full = some method ∧
        method.params.map (·.name) = ["orgId"] ∧ method.payload.text = "[:]" ∧
        method.contributions = [] := by
  exact ⟨by decide, rfl, _, rfl, rfl, rfl, rfl⟩

/-- The nested dictionary hides a parameter of its name. -/
example :
    let function : CustomFunction :=
      { name := "publish", kind := .mutation, isNested := true, outer := ["data"] }
    let around : Surroundings := ⟨⟨"blog", ["publish"], "blog", none, []⟩, none, none, {}⟩
    (function.method? around .full).map Method.contributions = some [] := rfl

end CustomFunction

end ClientBindings
