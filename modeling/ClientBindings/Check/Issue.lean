import ClientBindings.Entries
import ClientBindings.Source.FactoryCall
import ClientBindings.Text.Cut

/-!
# Consistency reports

Every table of the schema should have exactly one factory call, in a module of its own name.

* `issues`: what is wrong, as data; `errorCount`: how many issues are errors.
* `issuesText`, `endpointsText`: the reports that are printed, in colour or without.
-/

namespace ClientBindings.Check

/-! ## Issues -/

/-- What is wrong. -/
inductive Finding
  /-- A second call for a table whose first call stands in the file `first`. -/
  | duplicate (table first : String)
  /-- A call for a table that the schema does not declare. -/
  | unknownTable (factory : Factory) (table : String)
  /-- A declared table without a call. -/
  | missingCall (table : String)
  /-- A call in a file of another name, for a table that has no file of its own. -/
  | misplaced (factory : Factory) (table : String)
  deriving DecidableEq, Repr

/-- A finding and the file that it is attributed to. -/
structure Issue where
  file : String
  finding : Finding
  deriving DecidableEq, Repr

namespace Issue

/-- Whether the issue is an error; the others are warnings. -/
def isError (issue : Issue) : Bool :=
  match issue.finding with
  | .duplicate _ _ => true
  | .unknownTable _ _ => true
  | _ => false

/-- The message of the issue. -/
def message (issue : Issue) : String :=
  match issue.finding with
  | .duplicate table first => s!"Duplicate factory for table \"{table}\" (also in {first})"
  | .unknownTable factory table =>
    s!"{factory.name}('{table}') but no \"{table}\" table found in schema"
  | .missingCall table => s!"Table \"{table}\" defined in schema but no factory call found"
  | .misplaced factory table =>
    s!"{factory.name}('{table}') in {issue.file}: table name doesn't match filename"

end Issue

/-- The issues of one call, the calls before it being `earlier`: a repetition, an unknown table. -/
def callIssues (tables : List String) (earlier : List FactoryCall) (call : FactoryCall) :
    List Issue :=
  let repetition := match earlier.find? fun first => first.table == call.table with
    | some first => [⟨call.file, .duplicate call.table first.file⟩]
    | none => []
  let unknown := if tables.contains call.table then []
    else [⟨call.file, .unknownTable call.factory call.table⟩]
  repetition ++ unknown

/-- The issues of calls that come after `earlier`. -/
def callIssuesAfter (tables : List String) (earlier : List FactoryCall) :
    List FactoryCall → List Issue
  | [] => []
  | call :: rest =>
    callIssues tables earlier call ++ callIssuesAfter tables (earlier ++ [call]) rest

/-- The warnings for tables without a call. -/
def missingIssues (tables : List String) (schemaFile : String) (calls : List FactoryCall) :
    List Issue :=
  (tables.filter fun table => !calls.any fun call => call.table == table).map fun table =>
    ⟨schemaFile, .missingCall table⟩

/-- A file name less the ending of source files. -/
def stem (file : String) : String := Text.dropEnding ".ts" file

/-- The warnings for calls in files of other names. -/
def misplacedIssues (calls : List FactoryCall) (files : List String) : List Issue :=
  let stems := files.map stem
  (calls.filter fun call => call.table != stem call.file && !stems.contains call.table).map
    fun call => ⟨call.file, .misplaced call.factory call.table⟩

/-- What is wrong with the calls in the checked files for the tables of a schema. -/
def issues (tables : List String) (schemaFile : String) (calls : List FactoryCall)
    (files : List String) : List Issue :=
  callIssuesAfter tables [] calls ++ missingIssues tables schemaFile calls ++
    misplacedIssues calls files

/-- The number of errors. -/
def errorCount (issues : List Issue) : Nat := (issues.filter Issue.isError).length

/-! ## Styles -/

/-- A style of printed text. -/
inductive Style
  | bold
  | dimmed
  | red
  | green
  | yellow
  deriving DecidableEq, Repr

/-- The parameter of the terminal sequence that starts the style. -/
def Style.code : Style → String
  | bold => "1"
  | dimmed => "2"
  | red => "31"
  | green => "32"
  | yellow => "33"

/-- Whether styles are printed. -/
inductive Palette
  | plain
  | styled
  deriving DecidableEq, Repr

/-- The terminal sequence that starts the style. -/
def Style.start (style : Style) : String := "\x1b[" ++ style.code ++ "m"

/-- The terminal sequence that ends every style. -/
def Style.reset : String := "\x1b[0m"

/-- A text in a style. Where the text itself ends every style, the style starts again. -/
def Palette.paint (palette : Palette) (style : Style) (text : String) : String :=
  match palette with
  | plain => text
  | styled =>
    let again := (Style.reset ++ style.start).toList
    let body := Text.replaceAll Style.reset.toList again text.toList
    style.start ++ String.ofList body ++ Style.reset

/-! ## Texts -/

/-- The line of an issue. -/
def issueLine (palette : Palette) (issue : Issue) : String :=
  let mark := if issue.isError then palette.paint .red "✗" else palette.paint .yellow "⚠"
  mark ++ " " ++ palette.paint .dimmed issue.file ++ " " ++ issue.message ++ "\n"

/-- The number of issues of one level, if there are any. -/
def total (palette : Palette) (style : Style) (count : Nat) (level : String) : List String :=
  if count = 0 then [] else [palette.paint style s!"{count} {level}(s)"]

/-- The issues, errors first, and their totals. -/
def issuesText (palette : Palette) (issues : List Issue) : String :=
  if issues.isEmpty then palette.paint .green "✓ All checks passed" ++ "\n\n"
  else
    let (errors, warnings) := issues.partition Issue.isError
    let totals := total palette .red errors.length "error" ++
      total palette .yellow warnings.length "warning"
    String.join ((errors ++ warnings).map (issueLine palette)) ++
      "\n" ++ ", ".intercalate totals ++ "\n\n"

/-- The endpoints of a call: those behind a login on one line, the public ones on another. -/
def callText (palette : Palette) (call : FactoryCall) : String :=
  let (exposed, guarded) := call.endpoints.partition Endpoint.isPublic
  let plainLine := if guarded.isEmpty then "" else
    "    " ++ ", ".intercalate (guarded.map (·.name)) ++ "\n"
  let publicMark := palette.paint .dimmed "pub."
  let publicLine := if exposed.isEmpty then "" else
    "    " ++ ", ".intercalate (exposed.map fun endpoint => publicMark ++ endpoint.name) ++ "\n"
  "  " ++ palette.paint .bold call.table ++ " " ++
    palette.paint .dimmed s!"({call.factory.name})" ++ " " ++
    palette.paint .dimmed s!"in {call.file}" ++ "\n" ++ plainLine ++ publicLine ++ "\n"

/-- The endpoints of every call, and their number. -/
def endpointsText (palette : Palette) (calls : List FactoryCall) : String :=
  let count := calls.foldl (fun count call => count + call.endpoints.length) 0
  palette.paint .bold "Generated Endpoints" ++ "\n\n" ++
    String.join (calls.map (callText palette)) ++
    palette.paint .bold (toString count) ++ " endpoints from " ++
    palette.paint .bold (toString calls.length) ++ " factory calls\n\n"

end ClientBindings.Check
