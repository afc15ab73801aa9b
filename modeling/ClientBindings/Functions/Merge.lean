import ClientBindings.Functions.Standard

/-!
# Functions of a module

The standard functions and the configured ones together. A configured function fills a gap that the
standard ones leave and never replaces one of them; two functions with a nested dictionary merge
their arguments.

* `Module.customFunctions`: the functions that the module exports, in the order of their names.
-/

namespace ClientBindings

/-- Adds an argument whose name is new. -/
def CustomFunction.withArgument (function : CustomFunction) (argument : Argument) :
    CustomFunction :=
  if function.arguments.any fun known => known.name == argument.name then function
  else { function with arguments := function.arguments ++ [argument] }

/-- Adds a configured function to those found before. -/
def addConfigured (found : Entries CustomFunction) (extra : CustomFunction) :
    Entries CustomFunction :=
  match found.find? extra.name with
  | none => found.putSorted extra.name extra
  | some known =>
    if known.isNested && extra.isNested then
      found.putSorted extra.name (extra.arguments.foldl CustomFunction.withArgument known)
    else found

namespace Module

/-- The standard functions by name; the last one of a name counts. -/
def standardEntries (module : Module) (model : Model) : Entries CustomFunction :=
  Entries.sortedOfPairs ((module.standardFunctions model).map fun function => (function.name, function))

/-- The custom functions of the module. -/
def customFunctions (module : Module) (model : Model) (config : Config) : List CustomFunction :=
  let found := (config.functionsFor module.name).foldl addConfigured (module.standardEntries model)
  (found.map (·.2)).filter fun function => module.exportsName function.name

end Module

end ClientBindings
