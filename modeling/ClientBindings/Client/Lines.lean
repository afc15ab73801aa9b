/-!
# Lines of the client

The client is a list of lines. A level of indentation is four spaces, and an empty line has none.

* `line`: a text at a level.
* `commaSeparated`: texts on lines of their own with commas between them.
* `multilineSignature`, `inlineSignature`: the opening of a function.
* `fileText`: the text of a file, every line ended.
-/

namespace ClientBindings.Lines

/-- A text at a level of indentation. -/
def line (level : Nat) (text : String) : String :=
  if text.isEmpty then "" else String.ofList (List.replicate (4 * level) ' ') ++ text

/-- Texts on lines of their own, a comma after each but the last. -/
def commaSeparated (level : Nat) : List String → List String
  | [] => []
  | [text] => [line level text]
  | text :: rest => line level (text ++ ",") :: commaSeparated level rest

/-- The texts with a comma and a space between them. -/
def joined (texts : List String) : String := ", ".intercalate texts

/-- The opening of a function with every parameter on a line of its own. `tail` follows the closing
parenthesis. -/
def multilineSignature (name : String) (params : List String) (tail : String) : List String :=
  line 1 s!"public static func {name}(" :: commaSeparated 2 params ++ [line 1 (") " ++ tail)]

/-- The opening of a function on one line. -/
def inlineSignature (name : String) (params : List String) (tail : String) : String :=
  line 1 s!"public static func {name}({joined params}) {tail}"

/-- Blocks of lines with an empty line between neighbours. -/
def separated : List (List String) → List String
  | [] => []
  | [block] => block
  | block :: rest => block ++ "" :: separated rest

/-- The text of a file with the given lines. -/
def fileText (lines : List String) : String := "\n".intercalate lines ++ "\n"

end ClientBindings.Lines
