import ClientBindings.Entries
import ClientBindings.Source.Lexing
import ClientBindings.Source.Pattern
import ClientBindings.Text.Cut

/-!
# Tables of a schema source

The schema module of a backend declares its tables in maps, `makeOwned({ blog: object({…}) })`, and
its child tables anywhere, as `message: child({…})`.

* `declaredTables`: the tables of the maps, builder by builder, then the child tables.
* `isSchemaSource`: whether a source looks like the schema module at all.
-/

namespace ClientBindings.Check

open Source

/-- The builders of table maps, in the order in which their tables are listed. -/
def mapBuilders : List String := ["makeOwned", "makeOrgScoped", "makeSingleton", "makeBase"]

/-- What only a schema source is expected to contain. -/
def schemaMarks : List String :=
  ["makeOwned(", "makeOrgScoped(", "makeSingleton(", "makeBase(", "child("]

/-- Whether a source has a mark of the schema module. -/
def isSchemaSource (source : String) : Bool := schemaMarks.any fun mark => Text.hasPart mark source

/-- The opening of a table map: the builder, and the text past the brace. -/
def mapOpening? (last : Option Char) (text : List Char) : Option ((String × List Char) × Nat) := do
  if outsideWord id last then
    let (builder, rest) ← dropAny? id text (mapBuilders.map fun name => (name, name))
    let rest ← dropMark? id ['('] rest
    let rest ← dropMark? id ['\x7b'] (skipBlanks id rest)
    return upTo text rest (builder, rest)
  else none

/-- An entry `name: builder(`, and its name. -/
def openedTable? (builder : String) (_ : Option Char) (text : List Char) :
    Option (String × Nat) := do
  let name := text.takeWhile Text.isWord
  if name.isEmpty then none
  else
    let rest ← dropMark? id [':'] (skipBlanks id (text.dropWhile Text.isWord))
    let rest ← dropMark? id (builder.toList ++ ['(']) (skipBlanks id rest)
    return upTo text rest (String.ofList name)

/-- The text up to the brace that closes the one opened before it, with `depth` more open inside;
all of it if that one is not closed. -/
def blockBody : Nat → List Char → List Char
  | _, [] => []
  | depth, c :: rest =>
    if c = '\x7b' then c :: blockBody (depth + 1) rest
    else if c = '\x7d' then
      match depth with
      | 0 => []
      | depth + 1 => c :: blockBody depth rest
    else c :: blockBody depth rest

/-- The tables in the maps of one builder, with repetitions. -/
def mapTables (text : List Char) (builder : String) : List String :=
  ((scan mapOpening? text).filter fun opening => opening.1 == builder).flatMap
    fun opening => scan (openedTable? "object") (blockBody 0 opening.2)

/-- The tables that a schema source declares, each where it is first listed. -/
def declaredTables (source : String) : List String :=
  let text := shownText source
  firstSeen (mapBuilders.flatMap (mapTables text) ++ scan (openedTable? "child") text)

end ClientBindings.Check
