import ClientBindings.Client.File
import ClientBindings.Proofs.Client.Endpoints

/-!
# Links between the clients

What the two clients refer to: declarations of functions that are extended, constants that are
subscribed to, and calls of `listArgs`.

* `Supplies`: the labels of a call go with the parameters of what is called.
* `Linked`: every reference of the two clients goes to something that the full client declares.
* `Subscription.Resolves`: what a configured subscription needs of the modules.
* `linked_iff`: the clients are linked exactly if every configured subscription resolves. All other
  references do. Nothing checks a subscription against the exports of its module
  (`not_linked_missing_export`).
-/

namespace ClientBindings

/-! ## Calls -/

/-- The label of an argument for the parameter. Quotes around a keyword are no part of it. -/
def Parameter.callLabel (parameter : Parameter) : String :=
  String.ofList ((parameter.label.getD parameter.name).toList.filter (· ≠ '`'))

/-- A call with the given labels gives every parameter an argument, in order, or leaves it out where
it may be. -/
inductive Supplies : List Parameter → List String → Prop
  | nil : Supplies [] []
  | given {parameter : Parameter} {params : List Parameter} {labels : List String} :
      Supplies params labels → Supplies (parameter :: params) (parameter.callLabel :: labels)
  | omitted {parameter : Parameter} {params : List Parameter} {labels : List String} :
      parameter.fallback.isSome → Supplies params labels → Supplies (parameter :: params) labels

theorem supplies_nil_iff {labels : List String} : Supplies [] labels ↔ labels = [] := by
  constructor
  · rintro ⟨⟩
    rfl
  · rintro rfl
    exact .nil

theorem supplies_cons_iff {parameter : Parameter} {params : List Parameter} {labels : List String} :
    Supplies (parameter :: params) labels ↔
      (∃ rest, labels = parameter.callLabel :: rest ∧ Supplies params rest) ∨
        parameter.fallback.isSome ∧ Supplies params labels := by
  constructor
  · intro h
    cases h with
    | given h => exact .inl ⟨_, rfl, h⟩
    | omitted hfallback h => exact .inr ⟨hfallback, h⟩
  · rintro (⟨rest, rfl, h⟩ | ⟨hfallback, h⟩)
    · exact .given h
    · exact .omitted hfallback h

/-- The labels of a payload that calls `listArgs`. -/
def Payload.listCall? : Payload → Option (List String)
  | .listArgs arguments => some (arguments.map Prod.fst)
  | .literal _ => none
  | .variable _ => none

/-- The labels of the calls of `listArgs` in a subscription. -/
def SubscriptionMethod.listCalls (method : SubscriptionMethod) : List (List String) :=
  method.paging.toList.map (·.map Prod.fst) ++ (method.payload.bind Payload.listCall?).toList

/-! ## Links -/

namespace ApiDecl

/-- The labels of the calls of `listArgs` in a declaration. -/
def listCalls (api : ApiDecl) : List (List String) :=
  api.methods.filterMap (·.payload.listCall?)

/-- The declaration has a `listArgs` for the labels. -/
def Answers (api : ApiDecl) (labels : List String) : Prop :=
  ∃ helper ∈ api.listArgs, Supplies helper.params labels

end ApiDecl

/-- The labels of the calls of `listArgs` in an extension. -/
def ApiExtension.listCalls (api : ApiExtension) : List (List String) :=
  api.methods.filterMap (·.payload.listCall?) ++
    api.subscriptions.flatMap SubscriptionMethod.listCalls

/-- Every reference of the two clients goes to something that the full client declares. -/
structure Linked (full : FullClient) (reduced : ReducedClient) : Prop where
  /-- What is extended is declared. -/
  extensions : ∀ extended ∈ reduced.extensions, ∃ api ∈ full.apis, api.name = extended.name
  /-- What is subscribed to is a constant of its declaration. -/
  constants : ∀ extended ∈ reduced.extensions, ∀ subscription ∈ extended.subscriptions,
    ∃ api ∈ full.apis, api.name = subscription.api ∧
      subscription.function ∈ api.constants.map Prod.fst
  /-- A declaration answers its own calls of `listArgs`. -/
  calls : ∀ api ∈ full.apis, ∀ labels ∈ api.listCalls, api.Answers labels
  /-- What is extended answers those of the extension. -/
  extensionCalls : ∀ extended ∈ reduced.extensions, ∀ labels ∈ extended.listCalls,
    ∃ api ∈ full.apis, api.name = extended.name ∧ api.Answers labels

/-! ## Declared helpers -/

section Helpers

variable (around : Surroundings)

/-- The parameters of a module's `listArgs`. -/
def Surroundings.listParams : List Parameter :=
  around.scopeParams ++ pageParams 50 ++ around.filterParams

theorem callLabel_named {name label : String}
    (h : String.ofList (name.toList.filter (· ≠ '`')) = label) (type : TypeExpr)
    (fallback : Option String) : ({ name, type, fallback } : Parameter).callLabel = label := h

theorem callLabel_orgId : ({ name := "orgId", type := .string } : Parameter).callLabel = "orgId" :=
  callLabel_named (by decide) _ _

theorem callLabel_numItems (type : TypeExpr) (fallback : Option String) :
    ({ name := "numItems", type, fallback } : Parameter).callLabel = "numItems" :=
  callLabel_named (by decide) _ _

theorem callLabel_cursor (type : TypeExpr) :
    (Parameter.optional "cursor" type).callLabel = "cursor" := callLabel_named (by decide) _ _

theorem callLabel_where (type : TypeExpr) :
    (Parameter.optional "`where`" type).callLabel = "where" := callLabel_named (by decide) _ _

theorem optional_fallback (name : String) (type : TypeExpr) :
    (Parameter.optional name type).fallback = some "nil" := rfl

/-- The list endpoint gives its `listArgs` all of the arguments. -/
theorem supplies_list : Supplies around.listParams
    ((if around.isOrgScoped then ["orgId"] else []) ++ ["numItems", "cursor"] ++
      if around.filter.isSome then ["where"] else []) := by
  have hpage {params : List Parameter} {labels : List String} (h : Supplies params labels) :
      Supplies (pageParams 50 ++ params) ("numItems" :: "cursor" :: labels) := by
    rw [← callLabel_numItems (.named "Int") (some (toString 50)), ← callLabel_cursor .string]
    exact .given (.given h)
  have hfilter : Supplies around.filterParams
      (if around.filter.isSome then ["where"] else []) := by
    rw [Surroundings.filterParams]
    split
    · rw [← callLabel_where (.named (filterName around.module.table))]
      exact .given .nil
    · exact .nil
  rw [Surroundings.listParams, Surroundings.scopeParams, List.append_assoc, List.append_assoc]
  split
  · rw [← callLabel_orgId]
    exact .given (hpage hfilter)
  · exact hpage hfilter

/-- A call with the organization and the filter alone leaves out the page. It goes with `listArgs` if
the organization is given where it is asked for, and the filter only where there is one. -/
theorem supplies_paging_iff (hasOrg hasFilter : Bool) : Supplies around.listParams
      ((if hasOrg then ["orgId"] else []) ++ if hasFilter then ["where"] else []) ↔
    hasOrg = around.isOrgScoped ∧ (hasFilter → around.filter.isSome) := by
  rw [Surroundings.listParams, Surroundings.scopeParams, Surroundings.filterParams, pageParams]
  generalize around.isOrgScoped = isOrgScoped
  generalize around.filter.isSome = isFiltered
  -- Sixteen cases, in each of which the labels are compared one after the other.
  cases isOrgScoped <;> cases isFiltered <;> cases hasOrg <;> cases hasFilter
  all_goals
    simp [supplies_cons_iff, supplies_nil_iff, callLabel_orgId, callLabel_numItems,
      callLabel_cursor, callLabel_where, optional_fallback]

theorem ListArgs.mem_ofModule? {helper : ListArgs} : helper ∈ ListArgs.ofModule? around ↔
    ((around.kind.map TableKind.isFilterable).getD false ∧ around.module.exportsName "list") ∧
      helper = ⟨around.listParams, around.scopeEntries ++ [pagingEntry], around.filter.isSome⟩ := by
  rw [ListArgs.ofModule?]
  split
  next h =>
    simp only [h, and_self, true_and, Option.mem_def, Option.some_inj]
    exact eq_comm
  next h => simp [h]

/-- The declaration of a module answers a call if it serves a filtered table, exports its list, and
the labels go with the parameters of a page. -/
theorem ApiDecl.answers_iff {inputs : Inputs} {module : Module} {labels : List String} :
    (ApiDecl.ofModule inputs module).Answers labels ↔
      (((Surroundings.ofModule inputs.model module).kind.map TableKind.isFilterable).getD false ∧
        module.exportsName "list") ∧
      Supplies (Surroundings.ofModule inputs.model module).listParams labels := by
  constructor
  · rintro ⟨helper, hhelper, hlabels⟩
    obtain ⟨hlist, rfl⟩ := (ListArgs.mem_ofModule? _).mp hhelper
    exact ⟨hlist, hlabels⟩
  · rintro ⟨hlist, hlabels⟩
    exact ⟨_, (ListArgs.mem_ofModule? _).mpr ⟨hlist, rfl⟩, hlabels⟩

end Helpers

/-! ## Calls of methods -/

theorem CrudFunction.list_mem_offered {table : Table} {target : Target} :
    .list ∈ offered table target ↔ target = .full ∧ table.kind.isFilterable := by
  cases target with
  | reduced => rw [offered]; cases table.kind <;> simp
  | full =>
    rw [offered]
    cases table.kind with
    | child => dsimp only; split <;> simp [TableKind.isFilterable]
    | owned | orgScoped | base | singleton => simp [TableKind.isFilterable]

/-- No table endpoint but the list calls `listArgs`. -/
theorem CrudFunction.listCall?_method (function : CrudFunction) (around : Surroundings)
    (table : Table) (target : Target) {labels : List String}
    (h : (function.method around table target).payload.listCall? = some labels) :
    function = .list ∧ labels = (if around.isOrgScoped then ["orgId"] else []) ++
      ["numItems", "cursor"] ++ if around.filter.isSome then ["where"] else [] := by
  cases function with
  | list =>
    refine ⟨rfl, ?_⟩
    rw [← Option.some.inj h]
    split <;> split <;> rfl
  | search | create | update | rm | read | restore | bulkRm | upsert | get => cases h

theorem listCall?_plainPayload (leading : List DictEntry) (arguments : List Argument) :
    (plainPayload leading arguments).2.listCall? = none := by
  rw [plainPayload]
  split
  · rfl
  · rfl

/-- No custom function calls `listArgs`. -/
theorem CustomFunction.listCall?_method {function : CustomFunction} {around : Surroundings}
    {target : Target} {method : Method} (h : function.method? around target = some method) :
    method.payload.listCall? = none := by
  have harrange : (function.arrange around.registry).2.listCall? = none := by
    rw [arrange]
    split
    · rfl
    · split
      · exact listCall?_plainPayload _ _
      · exact listCall?_plainPayload _ _
  rw [method?] at h
  split at h
  · cases h
  · cases h
    exact harrange

/-- The calls of `listArgs` in the methods of a module: that of the full client's list, which the
helper of the module answers. -/
theorem moduleMethods_listCall? {inputs : Inputs} {module : Module} {target : Target}
    {method : Method} (hmethod : method ∈ moduleMethods inputs.model inputs.config
      (.ofModule inputs.model module) target) {labels : List String}
    (hlabels : method.payload.listCall? = some labels) :
    target = .full ∧ (ApiDecl.ofModule inputs module).Answers labels := by
  rcases List.mem_append.mp (moduleMethods_eq ▸ hmethod) with hcrud | hcustom
  · obtain ⟨table, function, htable, hoffered, hexported, rfl⟩ := mem_crudMethods.mp hcrud
    obtain ⟨rfl, rfl⟩ := function.listCall?_method _ _ _ hlabels
    obtain ⟨htarget, hfiltered⟩ := CrudFunction.list_mem_offered.mp hoffered
    refine ⟨htarget, ApiDecl.answers_iff.mpr ⟨⟨?_, hexported⟩, supplies_list _⟩⟩
    rw [Surroundings.kind, htable]
    exact hfiltered
  · obtain ⟨function, -, -, hfound⟩ := mem_customMethods.mp hcustom
    rw [CustomFunction.listCall?_method hfound] at hlabels
    cases hlabels

/-! ## Subscriptions -/

/-- What a paginated subscription needs of a module: a filtered table with its list exported, an
organization exactly where the table has one, and no filter where it has none. -/
structure Surroundings.Pages (around : Surroundings) (subscription : Subscription) : Prop where
  filtered : ∃ table, around.table = some table ∧ table.kind.isFilterable
  exported : "list" ∈ around.module.exports
  organization : "orgId" ∈ subscription.arguments.map (·.name) ↔ around.isOrgScoped
  filter : subscription.filterType?.isSome → around.filter.isSome

/-- What a subscription of a module needs, of that module or of another one whose declaration has
the same name. -/
structure Subscription.Resolves (inputs : Inputs) (module : Module) (subscription : Subscription) :
    Prop where
  constant : ∃ other ∈ inputs.modules, apiName other.name = apiName module.name ∧
    subscription.function ∈ other.exports
  paging : subscription.isPaginated → ∃ other ∈ inputs.modules,
    apiName other.name = apiName module.name ∧
      (Surroundings.ofModule inputs.model other).Pages subscription

/-- The labels of the paging of a subscription. -/
theorem pagingOf_labels (subscription : Subscription) :
    (SubscriptionMethod.pagingOf subscription).map Prod.fst =
      (if subscription.arguments.any (·.name == "orgId") then ["orgId"] else []) ++
        if subscription.filterType?.isSome then ["where"] else [] := by
  rw [SubscriptionMethod.pagingOf]
  split <;> split <;> rfl

/-- The declaration of a module answers the call of a paginated subscription exactly if the module
has the pages for it. -/
theorem answers_pagingOf_iff {inputs : Inputs} {module : Module} {subscription : Subscription} :
    (ApiDecl.ofModule inputs module).Answers
        ((SubscriptionMethod.pagingOf subscription).map Prod.fst) ↔
      (Surroundings.ofModule inputs.model module).Pages subscription := by
  rw [ApiDecl.answers_iff, pagingOf_labels, supplies_paging_iff]
  have htable : ((Surroundings.ofModule inputs.model module).kind.map
        TableKind.isFilterable).getD false ↔
      ∃ table, (Surroundings.ofModule inputs.model module).table = some table ∧
        table.kind.isFilterable := by
    rw [Surroundings.kind]
    cases (Surroundings.ofModule inputs.model module).table with
    | none => simp
    | some table => simp
  have hexported : module.exportsName "list" ↔ "list" ∈ module.exports := List.contains_iff_mem
  have horganization : subscription.arguments.any (·.name == "orgId") ↔
      "orgId" ∈ subscription.arguments.map (·.name) := by simp
  rw [htable, hexported, Bool.eq_iff_iff, horganization]
  constructor
  · rintro ⟨⟨hfiltered, hlist⟩, horg, hfilter⟩
    exact ⟨hfiltered, hlist, horg, hfilter⟩
  · rintro ⟨hfiltered, hlist, horg, hfilter⟩
    exact ⟨⟨hfiltered, hlist⟩, horg, hfilter⟩

/-- A subscription calls `listArgs` if it is paginated, and otherwise not. -/
theorem SubscriptionMethod.listCalls_ofSubscription (module : String)
    (subscription : Subscription) : (ofSubscription module subscription).listCalls =
      if subscription.isPaginated then [(pagingOf subscription).map Prod.fst] else [] := by
  rw [listCalls, ofSubscription, payloadOf]
  split
  · rfl
  · split
    · split
      · rfl
      · rfl
    · rfl

/-- The calls of `listArgs` in an extension are those of its paginated subscriptions. -/
theorem ApiExtension.mem_listCalls {inputs : Inputs} {module : Module} {labels : List String} :
    labels ∈ (ApiExtension.ofModule inputs module).listCalls ↔
      ∃ subscription ∈ inputs.config.subscriptionsFor module.name, subscription.isPaginated ∧
        labels = (SubscriptionMethod.pagingOf subscription).map Prod.fst := by
  have hmethods : (ApiExtension.ofModule inputs module).methods.filterMap
      (·.payload.listCall?) = [] := by
    rw [List.filterMap_eq_nil_iff]
    intro method hmethod
    cases hlabels : method.payload.listCall? with
    | none => rfl
    | some labels => cases (moduleMethods_listCall? hmethod hlabels).1
  rw [listCalls, hmethods, List.nil_append, ofModule]
  simp only [List.mem_flatMap, List.mem_map, exists_exists_and_eq_and,
    SubscriptionMethod.listCalls_ofSubscription]
  refine exists_congr fun subscription => and_congr_right fun _ => ?_
  split
  next h => simp [h]
  next h => simp [h]

/-! ## Linked clients -/

theorem FullClient.exists_api {inputs : Inputs} {P : ApiDecl → Prop} :
    (∃ api ∈ (FullClient.ofInputs inputs).apis, P api) ↔
      ∃ module ∈ inputs.modules, P (ApiDecl.ofModule inputs module) := by
  simp [ofInputs]

/-- The constants of a declaration are the exports of its module. -/
theorem ApiDecl.constants_names (inputs : Inputs) (module : Module) :
    (ApiDecl.ofModule inputs module).constants.map Prod.fst = module.exports := by
  simp [ofModule, Function.comp_def]

/-- **Linked clients.** The clients are linked exactly if every configured subscription resolves:
its constant is exported, and a paginated one has a list to go through. -/
theorem linked_iff (inputs : Inputs) :
    Linked (FullClient.ofInputs inputs) (ReducedClient.ofInputs inputs) ↔
      ∀ module ∈ inputs.modules, ∀ subscription ∈ inputs.config.subscriptionsFor module.name,
        subscription.Resolves inputs module := by
  constructor
  · intro h module hmodule subscription hsubscription
    have hextended : ApiExtension.ofModule inputs module ∈
        (ReducedClient.ofInputs inputs).extensions := List.mem_map.mpr ⟨module, hmodule, rfl⟩
    constructor
    · have hconstant := h.constants _ hextended _ (List.mem_map.mpr ⟨_, hsubscription, rfl⟩)
      obtain ⟨other, hother, hname, hexported⟩ := FullClient.exists_api.mp hconstant
      exact ⟨other, hother, hname, ApiDecl.constants_names inputs other ▸ hexported⟩
    · intro hpaginated
      have hcall := h.extensionCalls _ hextended _
        (ApiExtension.mem_listCalls.mpr ⟨_, hsubscription, hpaginated, rfl⟩)
      obtain ⟨other, hother, hname, hanswers⟩ := FullClient.exists_api.mp hcall
      exact ⟨other, hother, hname, answers_pagingOf_iff.mp hanswers⟩
  · intro h
    constructor
    case extensions =>
      intro extended hextended
      obtain ⟨module, hmodule, rfl⟩ := List.mem_map.mp hextended
      exact FullClient.exists_api.mpr ⟨module, hmodule, rfl⟩
    case constants =>
      intro extended hextended method hmethod
      obtain ⟨module, hmodule, rfl⟩ := List.mem_map.mp hextended
      obtain ⟨subscription, hsubscription, rfl⟩ := List.mem_map.mp hmethod
      obtain ⟨other, hother, hname, hexported⟩ :=
        (h module hmodule subscription hsubscription).constant
      refine FullClient.exists_api.mpr ⟨other, hother, hname, ?_⟩
      rw [ApiDecl.constants_names]
      exact hexported
    case calls =>
      -- These resolve with any configuration: only the list of the full client makes them, and
      -- only where the module has the helper.
      intro api hapi labels hlabels
      obtain ⟨module, -, rfl⟩ := List.mem_map.mp hapi
      obtain ⟨method, hmethod, hcall⟩ := List.mem_filterMap.mp hlabels
      exact (moduleMethods_listCall? hmethod hcall).2
    case extensionCalls =>
      intro extended hextended labels hlabels
      obtain ⟨module, hmodule, rfl⟩ := List.mem_map.mp hextended
      obtain ⟨subscription, hsubscription, hpaginated, rfl⟩ := ApiExtension.mem_listCalls.mp hlabels
      obtain ⟨other, hother, hname, hpages⟩ :=
        (h module hmodule subscription hsubscription).paging hpaginated
      exact FullClient.exists_api.mpr ⟨other, hother, hname, answers_pagingOf_iff.mpr hpages⟩

/-- A configured subscription to the list of a module that does not export it: the constant that it
subscribes to is not declared. -/
theorem not_linked_missing_export :
    let subscription : Subscription :=
      { methodName := "subscribeList", function := "list", updateType := "Blog",
        bridgeMethod := "subscribeBlogs" }
    let modules := modulesOf {} [⟨"blog.ts", "export const create = 1\n"⟩]
    let inputs : Inputs := ⟨{}, modules, { subscriptions := [("blog", [subscription])] }⟩
    Model.ofSchema {} = .ok {} ∧ modules = [⟨"blog", ["create"], "blog", none, []⟩] ∧
      ¬ Linked (FullClient.ofInputs inputs) (ReducedClient.ofInputs inputs) := by
  have hmodules : modulesOf {} [⟨"blog.ts", "export const create = 1\n"⟩] =
      [⟨"blog", ["create"], "blog", none, []⟩] := by decide +kernel
  refine ⟨rfl, hmodules, fun h => ?_⟩
  rw [hmodules] at h
  obtain ⟨api, hapi, -, hlist⟩ := h.constants _ (.head _) _ (.head _)
  obtain rfl := List.mem_singleton.mp hapi
  exact absurd hlist (by decide)

end ClientBindings
