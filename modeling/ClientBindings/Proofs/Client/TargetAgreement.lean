import ClientBindings.Proofs.Client.Endpoints

/-!
# Agreement of the two clients

What a method of the full client and its counterpart in the reduced client have in common.

* `Exchange`: what a method passes to the backend, as texts: parameters past those of the client,
  statements before the call, key and argument expression.
* `Exchange.CallLines`, `Exchange.Written`: the ways in which a client writes an exchange. They
  differ in the receiver, in what becomes of the result and in the bridge of the reduced client.
* `Method.written`: every method is written from its exchange.
* `methods_agree`: a method of the full client and its counterpart are written from one exchange.
-/

namespace ClientBindings

/-! ## Exchanges -/

/-- What a method passes to the backend, as texts. -/
structure Exchange where
  name : String
  /-- The parameters past those of the client. -/
  params : List String
  /-- Whether the parameters stand on one line. -/
  isInline : Bool
  /-- The lines before the call. -/
  setup : List String
  /-- The function called. -/
  key : String
  /-- The argument expression. -/
  arguments : String
  deriving DecidableEq, Repr

namespace Exchange

/-- The call of the exchange: `label` comes before the key, `extra` after the arguments. -/
def call (exchange : Exchange) (callee label extra : String) : String :=
  s!"try await {callee}({label}\"{exchange.key}\", args: {exchange.arguments}{extra})"

/-- The opening lines, with the parameters of the client first. -/
def opening (exchange : Exchange) (leading : List String) (tail : String) : List String :=
  if exchange.isInline then
    [Lines.inlineSignature exchange.name (leading ++ exchange.params) tail]
  else Lines.multilineSignature exchange.name (leading ++ exchange.params) tail

/-- The ways in which a client writes the call of an exchange. The type is the one that the method
returns, if it returns one. -/
inductive CallLines (exchange : Exchange) : Target → CallKind → Option String → List String → Prop
  | direct {target : Target} {kind : CallKind} (h : ¬ (target = .reduced ∧ kind = .action)) :
      CallLines exchange target kind none
        [Lines.line 2 (exchange.call (target.call kind) "" "")]
  | directDropped {target : Target} {kind : CallKind} (type : String)
      (h : ¬ (target = .reduced ∧ kind = .action)) :
      CallLines exchange target kind none
        [Lines.line 2 (s!"let _: {type} = " ++ exchange.call (target.call kind) "" "")]
  | directReturned {target : Target} {kind : CallKind} (type : String) {lead : String}
      (hlead : lead = "" ∨ lead = "return ") (h : ¬ (target = .reduced ∧ kind = .action)) :
      CallLines exchange target kind (some type)
        [Lines.line 2 (lead ++ exchange.call (target.call kind) "" "")]
  /-- The result is decoded by the service, and not at all on the other side of the bridge. -/
  | bridgedDropped (type : String) :
      CallLines exchange .reduced .action none
        [Lines.line 2 "#if !SKIP",
          Lines.line 2 (s!"let _: {type} = " ++
            exchange.call "ConvexService.shared.action" "" s!", returning: {type}.self"),
          Lines.line 2 "#else",
          Lines.line 2 (exchange.call "ConvexService.shared.action" "name: " ""),
          Lines.line 2 "#endif"]
  /-- The result is decoded by the service, and by a method of its own on the other side. -/
  | bridgedReturned (type method : String) (isArray : Bool) :
      CallLines exchange .reduced .action (some type)
        [Lines.line 2 "#if !SKIP",
          Lines.line 2 ("return " ++
            exchange.call "ConvexService.shared.action" "" s!", returning: {type}.self"),
          Lines.line 2 "#else",
          Lines.line 2 (
            let bridged := exchange.call s!"ConvexService.shared.{method}" "name: " ""
            if isArray then s!"return Array({bridged})" else s!"return {bridged}"),
          Lines.line 2 "#endif"]

/-- What follows the parameters of a method that returns the type, if it returns one. -/
def tail : Option String → String
  | some type => s!"async throws -> {type} \x7b"
  | none => "async throws \x7b"

/-- The lines are those of the exchange in a client: its parameters after those of the client, its
statements, its call and the closing brace. -/
def Written (exchange : Exchange) (target : Target) (kind : CallKind) (lines : List String) : Prop :=
  ∃ returns calls, exchange.CallLines target kind returns calls ∧
    lines = exchange.opening (target.params.map Parameter.text) (tail returns) ++
      exchange.setup ++ calls ++ [Lines.line 1 "\x7d"]

end Exchange

/-! ## Methods -/

namespace Method

/-- The exchange of a method. -/
def exchange (method : Method) : Exchange where
  name := method.name
  params := method.params.map Parameter.text
  isInline := method.isInline
  setup := method.setup.flatMap Statement.lines
  key := method.key
  arguments := method.payload.text

/-- The type that the method returns. -/
def returns? (method : Method) : Option String :=
  match method.outcome with
  | .value type => some type.text
  | .none | .discard _ => none

variable {method : Method}

theorem tail_eq : method.tail = Exchange.tail method.returns? := by
  rw [tail, returns?]
  cases method.outcome <;> rfl

theorem signature_eq : method.signature =
    method.exchange.opening (method.target.params.map Parameter.text) (Exchange.tail method.returns?) := by
  rw [signature, Exchange.opening, tail_eq]
  simp only [List.map_append]
  rfl

theorem directCall_eq (callee : String) :
    s!"try await {callee}(\"{method.key}\", " ++ s!"args: {method.payload.text})" =
      method.exchange.call callee "" "" := by
  unfold Exchange.call exchange
  simp [← String.toList_inj, toString]

/-- A call that the client makes itself. -/
theorem directLine_callLines (h : ¬ (method.target = .reduced ∧ method.kind = .action)) :
    method.exchange.CallLines method.target method.kind method.returns? [method.directLine] := by
  simp only [directLine, directCall_eq, returns?]
  cases method.outcome with
  | none => exact .direct h
  | discard type => exact .directDropped type h
  | value type =>
    dsimp only
    by_cases hsetup : method.setup.isEmpty
    · rw [if_pos hsetup]
      exact .directReturned type.text (.inl rfl) h
    · rw [if_neg hsetup]
      exact .directReturned type.text (.inr rfl) h

theorem discardLines_callLines (type : String) :
    method.exchange.CallLines .reduced .action none (method.discardLines type) := by
  let service := "try await ConvexService.shared.action"
  let arguments := s!"args: {method.payload.text}"
  have hdecoded :
      s!"let _: {type} = {service}(\"{method.key}\", {arguments}, returning: {type}.self)" =
        s!"let _: {type} = " ++ method.exchange.call "ConvexService.shared.action" ""
          s!", returning: {type}.self" := by
    unfold Exchange.call exchange
    simp [← String.toList_inj, toString, service, arguments]
  have hbridged : s!"{service}(name: \"{method.key}\", {arguments})" =
      method.exchange.call "ConvexService.shared.action" "name: " "" := by
    unfold Exchange.call exchange
    simp [← String.toList_inj, toString, service, arguments]
  unfold discardLines
  dsimp only
  rw [hdecoded, hbridged]
  exact .bridgedDropped type

theorem bridgedLines_callLines (type : String) :
    method.exchange.CallLines .reduced .action (some type) (method.bridgedLines type) := by
  let service := "try await ConvexService.shared.action"
  let arguments := s!"args: {method.payload.text}"
  have hdecoded : s!"return {service}(\"{method.key}\", {arguments}, returning: {type}.self)" =
      "return " ++ method.exchange.call "ConvexService.shared.action" ""
        s!", returning: {type}.self" := by
    unfold Exchange.call exchange
    simp [← String.toList_inj, toString, service, arguments]
  have hbridged (name : String) :
      s!"try await ConvexService.shared.{name}(name: \"{method.key}\", {arguments})" =
        method.exchange.call s!"ConvexService.shared.{name}" "name: " "" := by
    unfold Exchange.call exchange
    simp [← String.toList_inj, toString, arguments]
  unfold bridgedLines
  dsimp only
  rw [hdecoded, hbridged]
  exact .bridgedReturned type (method.bridge type).1 (method.bridge type).2

/-- A call on both sides of the bridge. -/
theorem callLines_of_bridged (htarget : method.target = .reduced) (hkind : method.kind = .action) :
    method.exchange.CallLines .reduced .action method.returns? method.callLines := by
  rw [callLines, htarget, hkind, returns?]
  cases method.outcome with
  | none => exact discardLines_callLines voidType
  | discard type => exact discardLines_callLines type
  | value type => exact bridgedLines_callLines type.text

theorem callLines_eq_directLine (h : ¬ (method.target = .reduced ∧ method.kind = .action)) :
    method.callLines = [method.directLine] := by
  rw [callLines]
  split
  · next htarget hkind => exact absurd ⟨htarget, hkind⟩ h
  · rfl

/-- Whatever the target and the kind, the backend call is one of the exchange. -/
theorem callLines_callLines (method : Method) :
    method.exchange.CallLines method.target method.kind method.returns? method.callLines := by
  by_cases h : method.target = .reduced ∧ method.kind = .action
  · have hbridged := callLines_of_bridged h.1 h.2
    rwa [← h.1, ← h.2] at hbridged
  · rw [callLines_eq_directLine h]
    exact directLine_callLines h

/-- A method is written from its exchange. -/
theorem written (method : Method) :
    method.exchange.Written method.target method.kind method.lines := by
  refine ⟨method.returns?, method.callLines, callLines_callLines method, ?_⟩
  rw [lines, signature_eq]
  rfl

end Method

/-! ## Counterparts -/

/-- The same method in both clients: one exchange, from which each client writes its lines. A result
that only the full client has is that of a mutation. -/
structure Counterparts (full reduced : Method) : Prop where
  kind_eq : reduced.kind = full.kind
  exchange_eq : reduced.exchange = full.exchange
  full_written : full.exchange.Written .full full.kind full.lines
  reduced_written : full.exchange.Written .reduced full.kind reduced.lines
  outcome_eq : reduced.outcome = full.outcome ∨
    full.kind = .mutation ∧ reduced.outcome = .none

/-- Target and outcome are no part of the exchange. -/
theorem Counterparts.of_target {full : Method} (htarget : full.target = .full) {outcome : Outcome}
    (houtcome : outcome = full.outcome ∨ full.kind = .mutation ∧ outcome = .none) :
    Counterparts full { full with target := .reduced, outcome } where
  kind_eq := rfl
  exchange_eq := rfl
  full_written := by
    have hwritten := full.written
    rwa [htarget] at hwritten
  reduced_written := Method.written { full with target := .reduced, outcome }
  outcome_eq := houtcome

section Counterparts

variable {around : Surroundings}

/-- The method of an endpoint depends on the client in its target alone. -/
theorem CrudFunction.method_reduced (function : CrudFunction) (table : Table) :
    function.method around table .reduced =
      { function.method around table .full with target := .reduced } := by
  cases function <;> rfl

theorem CrudFunction.counterparts (function : CrudFunction) (table : Table) :
    Counterparts (function.method around table .full) (function.method around table .reduced) := by
  rw [method_reduced]
  exact .of_target (by cases function <;> rfl) (.inl rfl)

/-- Methods of one name are those of one endpoint. -/
theorem crudMethods_counterparts {full reduced : Method} (hfull : full ∈ crudMethods around .full)
    (hreduced : reduced ∈ crudMethods around .reduced) (hname : full.name = reduced.name) :
    Counterparts full reduced := by
  obtain ⟨table, function, htable, -, -, rfl⟩ := mem_crudMethods.mp hfull
  obtain ⟨table', function', htable', -, -, rfl⟩ := mem_crudMethods.mp hreduced
  obtain rfl : table = table' := Option.some.inj (htable.symm.trans htable')
  rw [CrudFunction.method_name, CrudFunction.method_name] at hname
  obtain rfl : function = function' := CrudFunction.name_injective hname
  exact function.counterparts table

/-- Only the result of a mutation depends on the client. -/
theorem CustomFunction.outcome_reduced (function : CustomFunction) (struct : String) :
    function.outcome struct .reduced = function.outcome struct .full ∨
      function.kind = .mutation ∧ function.outcome struct .reduced = .none := by
  unfold outcome
  cases function.discardType? with
  | some type => exact .inl rfl
  | none =>
    by_cases hkind : function.kind = .mutation
    · exact .inr ⟨hkind, by simp [hkind]⟩
    · exact .inl (by simp [hkind])

theorem CustomFunction.exists_counterparts {function : CustomFunction}
    (hkind : function.kind ≠ .query) :
    ∃ full reduced, function.method? around .full = some full ∧
      function.method? around .reduced = some reduced ∧ Counterparts full reduced := by
  have hfull : ¬ (Target.full = .reduced ∧ function.kind = .query) := by simp
  have hreduced : ¬ (Target.reduced = .reduced ∧ function.kind = .query) := by simp [hkind]
  refine ⟨_, _, if_neg hfull, if_neg hreduced, ?_⟩
  exact .of_target rfl (function.outcome_reduced around.struct)

end Counterparts

/-- **Agreement.** Every table endpoint of the reduced client has a counterpart in the full client,
and every mutation and every action has a method in both. The two have the same name, parameters
past those of the client, statements before the call, key and argument expression, and each client
writes its lines from these: only the receiver, what becomes of the result and the bridge around
the actions of the reduced client differ. -/
theorem methods_agree (around : Surroundings) :
    (∀ reduced ∈ crudMethods around .reduced,
      (∃ full ∈ crudMethods around .full, full.name = reduced.name) ∧
      ∀ full ∈ crudMethods around .full, full.name = reduced.name → Counterparts full reduced) ∧
    ∀ function : CustomFunction, function.kind ≠ .query →
      ∃ full reduced, function.method? around .full = some full ∧
        function.method? around .reduced = some reduced ∧ Counterparts full reduced := by
  refine ⟨fun reduced hreduced => ⟨?_, fun full hfull hname => ?_⟩, fun function hkind => ?_⟩
  · have hname := crudMethods_reduced_subset around (List.mem_map_of_mem hreduced)
    obtain ⟨full, hfull, hname⟩ := List.mem_map.mp hname
    exact ⟨full, hfull, hname⟩
  · exact crudMethods_counterparts hfull hreduced hname
  · exact function.exists_counterparts hkind

/-- An action with an argument that may be left out, in both clients. -/
theorem methods_agree_of_action :
    let around : Surroundings := ⟨⟨"movie", ["search"], "movie", none, []⟩, none, none, {}⟩
    let search : CustomFunction :=
      { name := "search", kind := .action, returnType? := some "[Movie]"
        arguments := [.required "query" "String", .optional "page" "Int"] }
    search.kind ≠ .query ∧
      (search.method? around .full).map Method.lines = some
        ["    public static func search(_ client: ConvexClientProtocol, query: String, page: Int? = nil) async throws -> [Movie] \x7b",
          "        var args: [String: Any] = [\"query\": query]",
          "        if let page \x7b args[\"page\"] = page \x7d",
          "        return try await client.action(\"movie:search\", args: args)",
          "    \x7d"] ∧
      (search.method? around .reduced).map Method.lines = some
        ["    public static func search(query: String, page: Int? = nil) async throws -> [Movie] \x7b",
          "        var args: [String: Any] = [\"query\": query]",
          "        if let page \x7b args[\"page\"] = page \x7d",
          "        #if !SKIP",
          "        return try await ConvexService.shared.action(\"movie:search\", args: args, returning: [Movie].self)",
          "        #else",
          "        return Array(try await ConvexService.shared.actionMovies(name: \"movie:search\", args: args))",
          "        #endif",
          "    \x7d"] ∧
      ∃ full reduced, search.method? around .full = some full ∧
        search.method? around .reduced = some reduced ∧ Counterparts full reduced := by
  intro around search
  have hkind : search.kind ≠ .query := by decide
  exact ⟨hkind, by decide +kernel, by decide +kernel, (methods_agree around).2 search hkind⟩

end ClientBindings
