/-!
# Masked sources

Which characters of a module source are code, and which stand inside a comment or a literal.
Everything that looks for brackets or words in a source looks at the characters shown here.

* `Cell`: a character of the source and whether it is hidden; a hidden one is shown as a blank,
  except for a line feed. The delimiters of a literal are not hidden.
* `mask`: one cell for every character, by one pass that looks one character ahead.
* A quoted literal ends at its quote or at the end of its line. Inside the interpolation of a
  template, literals nest, and a comment is not seen.
-/

namespace ClientBindings.Source

/-! ## Cells -/

/-- A character of the source and whether a comment or literal hides it. -/
structure Cell where
  char : Char
  hidden : Bool
  deriving DecidableEq, Repr

namespace Cell

/-- The character that scanning sees. -/
def shown (cell : Cell) : Char := if cell.hidden ∧ cell.char ≠ '\n' then ' ' else cell.char

/-- The cell as text of the same length in bytes: one blank for every byte of a hidden
character. -/
def blanked (cell : Cell) : List Char :=
  if cell.hidden ∧ cell.char ≠ '\n' then List.replicate cell.char.utf8Size ' ' else [cell.char]

end Cell

/-! ## Lexical regions -/

/-- A literal, or an interpolation inside one. -/
inductive Frame
  /-- A literal between two of the given quotes. -/
  | quote (mark : Char)
  /-- The text of a template. -/
  | template
  /-- An interpolation of a template, with the number of braces open in it. -/
  | hole (braces : Nat)
  deriving DecidableEq, Repr

/-- Where a character stands. -/
inductive Region
  /-- Inside the frames, innermost first; code outside any. -/
  | nested (frames : List Frame)
  | lineComment
  | blockComment
  deriving DecidableEq, Repr

/-- Code. -/
def Region.code : Region := .nested []

/-- Between two characters: in a region, or inside a mark of two characters with the region that
follows it. -/
inductive Lexing
  | at (region : Region)
  | within (next : Region)
  deriving DecidableEq, Repr

/-- One character of code. -/
def stepCode (c : Char) (next : Option Char) : Bool × Lexing :=
  if c = '/' ∧ next = some '/' then (true, .within .lineComment)
  else if c = '/' ∧ next = some '*' then (true, .within .blockComment)
  else if c = '"' ∨ c = '\'' then (false, .at (.nested [.quote c]))
  else if c = '`' then (false, .at (.nested [.template]))
  else (false, .at .code)

/-- One character inside a frame with the outer frames around it. The end of the outermost literal
is shown. -/
def stepFrame (frame : Frame) (outer : List Frame) (c : Char) (next : Option Char) :
    Bool × Lexing :=
  let stay : Lexing := .at (.nested (frame :: outer))
  let leave : Lexing := .at (.nested outer)
  match frame with
  | .quote mark =>
    if c = '\\' then (true, .within (.nested (frame :: outer)))
    else if c = '\n' then (true, leave)
    else if c = mark then (!outer.isEmpty, leave)
    else (true, stay)
  | .template =>
    if c = '\\' then (true, .within (.nested (frame :: outer)))
    else if c = '`' then (!outer.isEmpty, leave)
    else if c = '$' ∧ next = some '{' then (true, .within (.nested (.hole 0 :: frame :: outer)))
    else (true, stay)
  | .hole braces =>
    if c = '{' then (true, .at (.nested (.hole (braces + 1) :: outer)))
    else if c = '}' then
      match braces with
      | 0 => (true, leave)
      | braces + 1 => (true, .at (.nested (.hole braces :: outer)))
    else if c = '"' ∨ c = '\'' then (true, .at (.nested (.quote c :: frame :: outer)))
    else if c = '`' then (true, .at (.nested (.template :: frame :: outer)))
    else (true, stay)

/-- Whether the character `c` is hidden, and the state past it; `next` is the character that
follows. -/
def step (state : Lexing) (c : Char) (next : Option Char) : Bool × Lexing :=
  match state with
  | .within region => (true, .at region)
  | .at .lineComment => if c = '\n' then (false, .at .code) else (true, state)
  | .at .blockComment =>
    if c = '*' ∧ next = some '/' then (true, .within .code) else (true, state)
  | .at (.nested []) => stepCode c next
  | .at (.nested (frame :: outer)) => stepFrame frame outer c next

/-! ## Masking -/

/-- The cells of a text that starts in the given state. -/
def maskFrom (state : Lexing) : List Char → List Cell
  | [] => []
  | c :: rest =>
    let (hidden, state) := step state c rest.head?
    ⟨c, hidden⟩ :: maskFrom state rest

/-- The cells of a source. -/
def mask (source : List Char) : List Cell := maskFrom (.at .code) source

/-- The characters of a source that scanning sees, one for every character. -/
def shownText (source : String) : List Char := (mask source.toList).map Cell.shown

/-- The source with everything hidden blanked out, at its length in bytes. -/
def maskedText (source : String) : String :=
  String.ofList ((mask source.toList).flatMap Cell.blanked)

theorem map_char_maskFrom (state : Lexing) (source : List Char) :
    (maskFrom state source).map Cell.char = source := by
  induction source generalizing state with
  | nil => rfl
  | cons c rest ih => simp [maskFrom, ih]

/-- No character is lost or changed. -/
theorem map_char_mask (source : List Char) : (mask source).map Cell.char = source :=
  map_char_maskFrom _ source

end ClientBindings.Source
