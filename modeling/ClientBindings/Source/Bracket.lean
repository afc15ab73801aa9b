import ClientBindings.Text.Cut

/-!
# Bracket depth

Cutting text at separators outside brackets. The kinds of brackets are not told apart, and text may
close more of them than it opens: depth is an integer, and only depth zero counts as outside.

* `splitTop`: the parts between separators outside brackets.
* `cutTop?`: the text before and past the first such separator.
* `group?`: the bracketed text at the start.
-/

namespace ClientBindings.Source

/-- Opening bracket. -/
def isOpening (c : Char) : Bool := c == '(' || c == '{' || c == '['

/-- Closing bracket. -/
def isClosing (c : Char) : Bool := c == ')' || c == '}' || c == ']'

/-- The depth past `c`. -/
def depthAfter (depth : Int) (c : Char) : Int :=
  if isOpening c then depth + 1 else if isClosing c then depth - 1 else depth

/-- `splitTop` of a text that starts at the given depth. -/
def splitTopFrom (separator : Char) : Int → List Char → List (List Char)
  | _, [] => [[]]
  | depth, c :: rest =>
    if c = separator ∧ depth = 0 then [] :: splitTopFrom separator 0 rest
    else Text.consFirst c (splitTopFrom separator (depthAfter depth c) rest)

/-- The parts of a text between the separators outside brackets; at least one, possibly empty. -/
def splitTop (separator : Char) (text : List Char) : List (List Char) :=
  splitTopFrom separator 0 text

/-- `cutTop?` of a text that starts at the given depth. -/
def cutTopFrom? (separator : Char) : Int → List Char → Option (List Char × List Char)
  | _, [] => none
  | depth, c :: rest =>
    if c = separator ∧ depth = 0 then some ([], rest)
    else (cutTopFrom? separator (depthAfter depth c) rest).map
      fun (before, past) => (c :: before, past)

/-- The text before and past the first separator outside brackets. -/
def cutTop? (separator : Char) (text : List Char) : Option (List Char × List Char) :=
  cutTopFrom? separator 0 text

/-- The text up to the bracket that closes the last of `depth` open ones, that bracket
included. -/
def closeFrom? : Nat → List Char → Option (List Char)
  | _, [] => none
  | depth, c :: rest =>
    if isOpening c then (closeFrom? (depth + 1) rest).map (c :: ·)
    else if isClosing c then
      if depth ≤ 1 then some [c] else (closeFrom? (depth - 1) rest).map (c :: ·)
    else (closeFrom? depth rest).map (c :: ·)

/-- The bracketed text at the start of a text that starts with an opening bracket; none if it is
not closed. -/
def group? (text : List Char) : Option (List Char) := closeFrom? 0 text

end ClientBindings.Source
