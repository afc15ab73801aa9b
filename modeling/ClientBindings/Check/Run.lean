import ClientBindings.Check.Issue
import ClientBindings.Check.Layout
import ClientBindings.Generate.Run

/-!
# Runs of the checker

* `Check.Options`: the parts of the layout that are given, and what is asked for.
* `Check.run`: the text that a run prints and its exit code.
-/

namespace ClientBindings.Check

/-- What a run is asked for. -/
structure Options where
  /-- The function directory, unless it is searched for. -/
  functions : Option String := none
  /-- The schema module, unless it is searched for. -/
  schema : Option String := none
  /-- List endpoints instead of checking. -/
  endpoints : Bool := false
  deriving DecidableEq, Repr

/-- What a run leaves behind. -/
structure Output where
  /-- What it prints. -/
  text : String
  exitCode : Nat
  /-- The cause of a failure that the printed text does not tell. -/
  cause : Option String := none
  deriving DecidableEq, Repr

namespace Output

/-- The output after a text printed before. -/
def after (text : String) (output : Output) : Output := { output with text := text ++ output.text }

/-- A failure that is explained. -/
def failure (palette : Palette) (message hint : String) : Output where
  text := palette.paint .red ("✗ " ++ message) ++ "\n" ++ palette.paint .dimmed ("  " ++ hint) ++ "\n"
  exitCode := 1

/-- A failure that prints nothing. -/
def silent (cause : String) : Output := ⟨"", 1, some cause⟩

end Output

/-- The calls of some source files. -/
def callsOf (sources : List SourceFile) : List FactoryCall :=
  sources.flatMap fun source => Source.factoryCalls source.name source.text

/-- The report on the sources, for the tables of a schema. -/
def report (palette : Palette) (schema : SchemaFile) (sources : List SourceFile) : Output :=
  let calls := callsOf sources
  let tables := declaredTables schema.text
  let listed := if tables.isEmpty then "none" else ", ".intercalate tables
  let found := issues tables schema.name calls (sources.map (·.name))
  { text := palette.paint .dimmed "tables in schema:" ++ " " ++ listed ++ "\n" ++
      palette.paint .dimmed "factory calls:" ++ s!"    {calls.length}\n\n" ++
      issuesText palette found
    exitCode := if errorCount found = 0 then 0 else 1 }

/-- The part of a run past the schema. -/
def runSources (palette : Palette) (tree : Tree) (options : Options) (functions : String)
    (schema : SchemaFile) : Output :=
  match readSources tree functions SourceFile.isChecked with
  | .error error => .silent error.message
  | .ok sources =>
    if options.endpoints then ⟨endpointsText palette (callsOf sources), 0, none⟩
    else report palette schema sources

/-- The part of a run past the function directory. -/
def runSchema (palette : Palette) (tree : Tree) (options : Options) (functions : String) :
    Output :=
  let found : Except LayoutError SchemaFile := match options.schema with
    | some path =>
      match tree.readText? path with
      | some text => .ok ⟨path, text⟩
      | none => .error (.unreadable path)
    | none => findSchema tree functions
  match found with
  | .error (.noSchema _) =>
    .failure palette "Could not find schema file with lazyconvex markers"
      "Expected a .ts file calling makeOwned/makeOrgScoped/etc."
  | .error error => .silent error.message
  | .ok schema =>
    (runSources palette tree options functions schema).after
      (palette.paint .dimmed "schema:" ++ s!"    {schema.path}\n\n")

/-- A run of the checker. -/
def run (palette : Palette) (tree : Tree) (options : Options) : Output :=
  let heading := palette.paint .bold "\nlazyconvex check\n" ++ "\n"
  let found : Except LayoutError String := match options.functions with
    | some path => .ok path
    | none => findFunctions tree tree.currentPath
  let rest : Output := match found with
    | .error (.noFunctions _) =>
      .failure palette "Could not find convex/ directory with _generated/"
        "Run from project root or a directory containing convex/"
    | .error error => .silent error.message
    | .ok functions =>
      (runSchema palette tree options functions).after
        (palette.paint .dimmed "convex dir:" ++ s!" {functions}\n")
  rest.after heading

end ClientBindings.Check
