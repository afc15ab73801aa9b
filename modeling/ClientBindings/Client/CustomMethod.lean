import ClientBindings.Client.Crud
import ClientBindings.Functions.Merge

/-!
# Methods of custom functions

* `CustomFunction.arrange`: the statements and the payload that send the arguments: a nested
  dictionary, an array of records encoded element by element, or one dictionary.
* `CustomFunction.method?`: the method for a target; the reduced client has none for queries.
-/

namespace ClientBindings

/-- The parameter of an argument. -/
def Argument.param (argument : Argument) : Parameter :=
  if argument.isOptional then .optional argument.name (.verbatim argument.type)
  else { name := argument.name, type := .verbatim argument.type }

/-- The entry of an argument. -/
def Argument.entry (argument : Argument) : DictEntry :=
  ⟨argument.wireName, ⟨argument.wireExpr, .plain⟩⟩

/-- The arguments that must be given, as entries. -/
def requiredEntries (arguments : List Argument) : List DictEntry :=
  (arguments.filter fun argument => !argument.isOptional).map Argument.entry

/-- The arguments that may be left out, copied into a dictionary where they have a value. -/
def optionalCopies (dictionary : String) (arguments : List Argument) : List Statement :=
  (arguments.filter Argument.isOptional).map fun argument =>
    .copy argument.name dictionary argument.entry

/-- Arguments in one dictionary past the given entries. It has a name only if some argument may be
left out. -/
def plainPayload (leading : List DictEntry) (arguments : List Argument) :
    List Statement × Payload :=
  let entries := leading ++ requiredEntries arguments
  if arguments.any Argument.isOptional then
    (.dictionary true "args" entries :: optionalCopies "args" arguments, .variable "args")
  else ([], .literal entries)

/-- Arguments in a dictionary `data` beside the outer ones. -/
def nestedPayload (outer : List String) (arguments : List Argument) : List Statement × Payload :=
  let isMutable := arguments.any Argument.isOptional
  (.dictionary isMutable "data" (requiredEntries arguments) :: optionalCopies "data" arguments,
    .literal (outer.map .same ++ [.same "data"]))

/-- The array of records encoded element by element, and the other arguments in one dictionary. -/
def recordArrayPayload (registry : Registry) (array : RecordArray) (arguments : List Argument) :
    List Statement × Payload :=
  let dictionaries := Text.dropEnding "s" array.argument ++ "Dicts"
  let (optional, required) := (array.fields registry).partition ElementField.isOptional
  let others := arguments.filter fun argument => argument.name != array.argument
  let (setup, payload) := plainPayload [⟨array.argument, ⟨dictionaries, .plain⟩⟩] others
  (.elements array.argument dictionaries required optional :: setup, payload)

namespace CustomFunction

/-- The statements and the payload that send the arguments. -/
def arrange (function : CustomFunction) (registry : Registry) : List Statement × Payload :=
  if function.isNested then nestedPayload function.outer function.arguments
  else match function.recordArray? with
    | some array => recordArrayPayload registry array function.arguments
    | none => plainPayload [] function.arguments

/-- What becomes of the result. Mutations of the reduced client have none. -/
def outcome (function : CustomFunction) (struct : String) (target : Target) : Outcome :=
  match function.discardType? with
  | some type => .discard type
  | none =>
    if target = .reduced ∧ function.kind = .mutation then .none
    else match function.returnType struct with
      | some type => .value (.verbatim type)
      | none => .none

/-- The method of a function. -/
def method? (function : CustomFunction) (around : Surroundings) (target : Target) :
    Option Method :=
  if target = .reduced ∧ function.kind = .query then none
  else
    let (setup, payload) := function.arrange around.registry
    let outer : List Parameter := function.outer.map fun name => { name, type := .string }
    some {
      target
      name := function.name
      kind := function.kind
      params := outer ++ function.arguments.map Argument.param
      isInline := true
      setup
      key := around.key function.name
      payload
      outcome := function.outcome around.struct target
      bridgeMethod? := function.bridgeMethod?
      bridgeArray := function.bridgeArray }

end CustomFunction

/-- The methods of a module: table endpoints, then the custom functions that no endpoint of the
target covers. -/
def moduleMethods (model : Model) (config : Config) (around : Surroundings) (target : Target) :
    List Method :=
  let crud := crudMethods around target
  let taken := crud.map Method.name
  let custom := (around.module.customFunctions model config).filter fun function =>
    !taken.contains function.name
  crud ++ custom.filterMap fun function => function.method? around target

end ClientBindings
