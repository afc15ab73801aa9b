import ClientBindings.Check.Run
import ClientBindings.CommandLine.Arguments
import ClientBindings.Generate.Run

/-!
# Tools

The two tools and their command lines.

* `Generator.options?`, `Checker.options?`: what the arguments ask for; none if they are refused.
* `Tool.run`: a run of a tool on a file tree. Refused arguments end it with exit code 2 and without
  output, a failure with 1.
-/

namespace ClientBindings.CommandLine

/-- The flag for more diagnostics; it changes nothing that is printed. -/
def verbose : Flag := ⟨"verbose", .counter, some 'v'⟩

/-- The flag that names the schema. -/
def schemaFlag : Flag := ⟨"schema", .path, none⟩

/-- The flag that names the function directory. -/
def functionsFlag : Flag := ⟨"convex", .path, none⟩

namespace Generator

/-- The flag that names the destination of the full client. -/
def outputFlag : Flag := ⟨"output", .path, none⟩

/-- The flag that names the destination of the reduced client. -/
def mobileFlag : Flag := ⟨"mobile-output", .path, none⟩

/-- The flag that names the configuration. -/
def configFlag : Flag := ⟨"custom", .path, none⟩

/-- What the arguments ask for. Schema, functions and output have to be there. -/
def options? (arguments : List String) : Option Options := do
  let flags := [schemaFlag, functionsFlag, outputFlag, mobileFlag, configFlag, verbose]
  let settings ← settings? flags arguments
  return {
    schema := ← settings.value? schemaFlag
    functions := ← settings.value? functionsFlag
    output := ← settings.value? outputFlag
    mobile := settings.value? mobileFlag
    config := settings.value? configFlag }

end Generator

namespace Checker

/-- The flag that asks for the endpoints. -/
def endpointsFlag : Flag := ⟨"endpoints", .switch, none⟩

/-- What the arguments ask for. -/
def options? (arguments : List String) : Option Check.Options := do
  let settings ← settings? [functionsFlag, schemaFlag, endpointsFlag, verbose] arguments
  return {
    functions := settings.value? functionsFlag
    schema := settings.value? schemaFlag
    endpoints := settings.has endpointsFlag }

end Checker

/-- The tools. -/
inductive Tool
  | generator
  | checker
  deriving DecidableEq, Repr

/-- What a tool leaves behind: its printed text, its exit code, the cause of a failure that the text
does not tell, and the file tree. -/
structure Outcome where
  text : String
  exitCode : Nat
  cause : Option String
  tree : Tree
  deriving DecidableEq, Repr

/-- Refused arguments. -/
def Outcome.refused (tree : Tree) : Outcome := ⟨"", 2, some "unusable arguments", tree⟩

/-- A run of the tool with the arguments. -/
def Tool.run (palette : Check.Palette) (tree : Tree) (arguments : List String) : Tool → Outcome
  | generator =>
    match Generator.options? arguments with
    | none => .refused tree
    | some options =>
      match ClientBindings.run tree options with
      | (.ok summary, tree) => ⟨summary, 0, none, tree⟩
      | (.error error, tree) => ⟨"", 1, some error.message, tree⟩
  | checker =>
    match Checker.options? arguments with
    | none => .refused tree
    | some options =>
      let output := Check.run palette tree options
      ⟨output.text, output.exitCode, output.cause, tree⟩

end ClientBindings.CommandLine
