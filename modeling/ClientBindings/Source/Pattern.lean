import ClientBindings.Text.Alphabet
import ClientBindings.Text.Blank

/-!
# Patterns in sources

What the searches of this folder are made of. They run over characters or over cells; `view` gives
the character to look at.

* `scan`: the occurrences of a pattern from left to right, without overlap.
* `dropMark?`, `skipBlanks`, `outsideWord`: the parts that patterns are put together from.
-/

namespace ClientBindings.Source

variable {α : Type} {β : Type}

/-- `scan` with `skip` elements of an occurrence still to pass over; `last` is the element before
the text. -/
def scanFrom (find? : Option α → List α → Option (β × Nat)) : Option α → Nat → List α → List β
  | _, _, [] => []
  | _, skip + 1, c :: rest => scanFrom find? (some c) skip rest
  | last, 0, c :: rest =>
    match find? last (c :: rest) with
    | some (found, length) => found :: scanFrom find? (some c) (length - 1) rest
    | none => scanFrom find? (some c) 0 rest

/-- The occurrences of a pattern. `find?` gets the element before a place and the text from there;
it answers with what stands there and the number of elements it takes up. -/
def scan (find? : Option α → List α → Option (β × Nat)) (text : List α) : List β :=
  scanFrom find? none 0 text

/-- The text past `mark`, if it starts so. -/
def dropMark? (view : α → Char) : List Char → List α → Option (List α)
  | [], text => some text
  | _ :: _, [] => none
  | m :: mark, c :: rest => if view c = m then dropMark? view mark rest else none

/-- The text past the first of the named marks it starts with, and the value of that mark. -/
def dropAny? (view : α → Char) (text : List α) : List (String × β) → Option (β × List α)
  | [] => none
  | (mark, value) :: others =>
    match dropMark? view mark.toList text with
    | some rest => some (value, rest)
    | none => dropAny? view text others

/-- The text past the blanks it starts with. -/
def skipBlanks (view : α → Char) (text : List α) : List α :=
  text.dropWhile fun c => Text.isBlank (view c)

/-- Whether a word may start after `last`. -/
def outsideWord (view : α → Char) : Option α → Bool
  | none => true
  | some last => !Text.isWord (view last)

/-- An occurrence that reaches from `text` to `rest`. -/
def upTo (text rest : List α) (found : β) : β × Nat := (found, text.length - rest.length)

end ClientBindings.Source
