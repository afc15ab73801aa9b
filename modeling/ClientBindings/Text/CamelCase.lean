import ClientBindings.Text.Alphabet
import ClientBindings.Text.Case
import ClientBindings.Text.Cut

/-!
# Camel case

Words of a text and their spelling as one camel-case name.

* `wordsOf`: the words; a word ends at a character that is neither letter nor number, before an
  upper-case letter that follows a lower-case one, and before the last of several upper-case
  letters that a lower-case one follows.
* `lowerCamel`: the first word in lower case, each later one capitalized.
-/

namespace ClientBindings.Text

/-! ## Words -/

/-- The case of the last letter with case in the current word. -/
inductive WordCase
  | none
  | lower
  | upper
  deriving DecidableEq, Repr

/-- The case of the word once it has taken `c`. -/
def WordCase.after (state : WordCase) (c : Char) : WordCase :=
  if isLower c then .lower else if isUpper c then .upper else state

/-- The words of a run of letters and numbers. The first one goes on with the current word, whose
case is `state`. -/
def splitRun (state : WordCase) : List Char → List (List Char)
  | [] => []
  | [c] => [[c]]
  | c :: next :: rest =>
    if state.after c = .lower ∧ isUpper next then
      [c] :: splitRun .none (next :: rest)
    else if state = .upper ∧ isUpper c ∧ isLower next then
      [] :: consFirst c (splitRun .none (next :: rest))
    else consFirst c (splitRun (state.after c) (next :: rest))

/-- The runs of letters and numbers, empty ones between neighbouring separators included. -/
def alphanumericRuns : List Char → List (List Char)
  | [] => [[]]
  | c :: rest =>
    if isLetterOrNumber c then consFirst c (alphanumericRuns rest) else [] :: alphanumericRuns rest

/-- The words of a text. -/
def wordsOf (cs : List Char) : List (List Char) := (alphanumericRuns cs).flatMap (splitRun .none)

/-! ## Spelling -/

/-- A word in lower case; a sigma at its end takes the final form. -/
def lowerWord : List Char → List Char
  | [] => []
  | [c] => if c = 'Σ' then ['ς'] else lower c
  | c :: rest => lower c ++ lowerWord rest

/-- A word with its first letter in upper case and the others in lower case. -/
def capitalWord : List Char → List Char
  | [] => []
  | c :: rest => upper c ++ lowerWord rest

/-- The words of the text as one name, each but the first capitalized. -/
def lowerCamel (cs : List Char) : List Char :=
  match wordsOf cs with
  | [] => []
  | word :: rest => lowerWord word ++ rest.flatMap capitalWord

end ClientBindings.Text
