import ClientBindings.Entries
import ClientBindings.Source.Bracket
import ClientBindings.Source.Lexing
import ClientBindings.Source.Pattern

/-!
# Exported names

The names that a module source exports, read from its masked text.

* `export const` and `export let` statements: the names that their declarators bind, by an
  identifier or by a pattern of any depth.
* `export` lists in braces: the names that the entries have outside.
* `exportedNames`: all of them, statements before lists, each once.
-/

namespace ClientBindings.Source

/-! ## Statements -/

/-- Whether the text after a line feed goes on with the statement before it. -/
def continues (text : List Char) : Bool :=
  match Text.trimStart text with
  | c :: _ => c == ',' || c == '{'
  | [] => false

/-- The statement at the start of a text, `depth` brackets being open. It ends before a bracket
that closes none, and before a line feed outside brackets that is not continued. -/
def statementFrom (depth : Nat) : List Char → List Char
  | [] => []
  | c :: rest =>
    if isOpening c then c :: statementFrom (depth + 1) rest
    else if isClosing c then
      match depth with
      | 0 => []
      | depth + 1 => c :: statementFrom depth rest
    else if c = '\n' ∧ depth = 0 ∧ !continues rest then []
    else c :: statementFrom depth rest

/-- The statement at the start of a text. -/
def statement (text : List Char) : List Char := statementFrom 0 text

/-! ## Declarators -/

/-- The part of a declarator that a character stands in. -/
inductive DeclaratorPart
  | target
  /-- The type annotation, with the number of angle brackets open in it. -/
  | typed (angles : Nat)
  | initializer
  deriving DecidableEq, Repr

/-- The part past the character `c` outside brackets, with its neighbours; none if `c` separates
declarators. An arrow `=>` neither closes an angle bracket nor starts an initializer. -/
def DeclaratorPart.after? (part : DeclaratorPart) (last : Option Char) (c : Char)
    (next : Option Char) : Option DeclaratorPart :=
  match part with
  | .target =>
    if c = ',' then none
    else if c = ':' then some (.typed 0)
    else if c = '=' ∧ next ≠ some '>' then some .initializer
    else some part
  | .typed angles =>
    if c = ',' ∧ angles = 0 then none
    else if c = '<' then some (.typed (angles + 1))
    else if c = '>' ∧ last ≠ some '=' then some (.typed (angles - 1))
    else if c = '=' ∧ next ≠ some '>' ∧ angles = 0 then some .initializer
    else some part
  | .initializer => if c = ',' then none else some part

/-- `declarators` of a text that starts at the given bracket depth and part. -/
def declaratorsFrom (depth : Int) (part : DeclaratorPart) (last : Option Char) :
    List Char → List (List Char)
  | [] => [[]]
  | c :: rest =>
    if isOpening c || isClosing c then
      Text.consFirst c (declaratorsFrom (depthAfter depth c) part (some c) rest)
    else if 0 < depth then Text.consFirst c (declaratorsFrom depth part (some c) rest)
    else
      match part.after? last c rest.head? with
      | none => [] :: declaratorsFrom depth .target (some c) rest
      | some part => Text.consFirst c (declaratorsFrom depth part (some c) rest)

/-- The declarators of a statement: its parts between commas outside brackets and outside the
angle brackets of type annotations. -/
def declarators (statement : List Char) : List (List Char) :=
  declaratorsFrom 0 .target none statement

/-- What a declarator binds: a bracketed pattern, or the characters of an identifier. -/
def declaratorTarget (declarator : List Char) : List Char :=
  let text := Text.trim declarator
  match text with
  | [] => []
  | c :: _ =>
    if c = '{' ∨ c = '[' then (group? text).getD text
    else text.takeWhile fun c => Text.isLetterOrNumber c || c == '_' || c == '$'

/-! ## Patterns -/

/-- An identifier: an ASCII letter or underscore, then word characters. -/
def isIdentifier : List Char → Bool
  | [] => false
  | c :: rest => (c.isAlpha || c == '_') && rest.all Text.isWord

/-- The text between an opening and a closing delimiter at its ends. -/
def between? (opening closing : Char) : List Char → Option (List Char)
  | [] => none
  | c :: rest =>
    if c = opening ∧ rest.getLast? = some closing then some rest.dropLast else none

/-- The text before a default value, trimmed. -/
def withoutDefault (text : List Char) : List Char :=
  match cutTop? '=' text with
  | some (before, _) => Text.trim before
  | none => Text.trim text

/-- The dots of a rest element. -/
def restDots : List Char := ['.', '.', '.']

/-- The word between a name and its new name. -/
def asWord : List Char := [' ', 'a', 's', ' ']

/-- The names bound by a pattern of at most `fuel` nested brackets: an identifier, an object
pattern, or an array pattern. -/
def patternNamesFrom : Nat → List Char → List String
  | 0, _ => []
  | fuel + 1, text =>
    let pattern := Text.trim text
    match between? '{' '}' pattern with
    | some inner =>
      (splitTop ',' inner).flatMap fun element =>
        let element := Text.trim element
        if element.isEmpty then []
        else match dropMark? id restDots element with
          | some rest => patternNamesFrom fuel rest
          | none =>
            match cutTop? ':' element with
            | some (_, target) => patternNamesFrom fuel (withoutDefault target)
            | none => patternNamesFrom fuel (Text.before asWord (withoutDefault element))
    | none =>
      match between? '[' ']' pattern with
      | some inner =>
        (splitTop ',' inner).flatMap fun element =>
          let element := Text.trim element
          patternNamesFrom fuel (withoutDefault ((dropMark? id restDots element).getD element))
      | none => if isIdentifier pattern then [String.ofList pattern] else []

/-- The names bound by a pattern, in order. -/
def patternNames (pattern : List Char) : List String :=
  patternNamesFrom (pattern.length + 1) pattern

/-- The names bound by the declarators of a statement. -/
def boundNames (statement : List Char) : List String :=
  (declarators statement).flatMap fun declarator => patternNames (declaratorTarget declarator)

/-! ## Exports -/

/-- The text past `export`, if the word stands here. -/
def exportWord? (last : Option Char) (text : List Char) : Option (List Char) :=
  if outsideWord id last then dropMark? id ['e', 'x', 'p', 'o', 'r', 't'] text else none

/-- A blank after the word, and the text past it. -/
def blank? : List Char → Option (List Char)
  | [] => none
  | c :: rest => if Text.isBlank c then some rest else none

/-- The text past `export const` or `export let` and one blank. -/
def exportBinding? (last : Option Char) (text : List Char) : Option (List Char × Nat) := do
  let rest ← exportWord? last text
  let rest ← blank? rest
  let (_, rest) ← dropAny? id (skipBlanks id rest) [("const", ()), ("let", ())]
  let rest ← blank? rest
  return upTo text rest rest

/-- The text between the braces of an export list. -/
def exportList? (last : Option Char) (text : List Char) : Option (List Char × Nat) := do
  let rest ← exportWord? last text
  let rest ← dropMark? id ['{'] (skipBlanks id rest)
  let past ← dropMark? id ['}'] (rest.dropWhile (· ≠ '}'))
  return upTo text past (rest.takeWhile (· ≠ '}'))

/-- The name that an entry of an export list has outside; none for types and for what is no
identifier. -/
def listEntryName? (entry : List Char) : Option String :=
  let entry := Text.trim entry
  if entry.isEmpty || (dropMark? id ['t', 'y', 'p', 'e', ' '] entry).isSome then none
  else
    let name := match Text.afterLast? asWord entry with
      | some renamed => Text.trim renamed
      | none => entry
    if isIdentifier name then some (String.ofList name) else none

/-- The names that a masked source exports, with repetitions. -/
def exportsOf (text : List Char) : List String :=
  (scan exportBinding? text).flatMap (fun rest => boundNames (statement rest)) ++
    (scan exportList? text).flatMap fun list => (splitTop ',' list).filterMap listEntryName?

/-- The names that a source exports, each where it is first seen. -/
def exportedNames (source : String) : List String := firstSeen (exportsOf (shownText source))

end ClientBindings.Source
