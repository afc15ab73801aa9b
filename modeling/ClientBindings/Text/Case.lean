import ClientBindings.Text.CaseTable

/-!
# Letter case

Upper and lower case of characters and texts by the full mappings of the Unicode standard, in
which one letter may become several.

* `upper`, `lower`: the mapping of one character.
* `capitalize`: the first character of a text in upper case.
* `lowercase`: a text in lower case, with the final form of sigma at the end of a word.
-/

namespace ClientBindings.Text

/-! ## Classes -/

/-- Upper-case letter. -/
def isUpper (c : Char) : Bool :=
  if c.toNat < 128 then c.isUpper else upperRuns.any (·.has c.toNat)

/-- Lower-case letter. -/
def isLower (c : Char) : Bool :=
  if c.toNat < 128 then c.isLower else lowerRuns.any (·.has c.toNat)

/-- A letter with case. -/
def isCased (c : Char) : Bool := isUpper c || isLower c || titleRuns.any (·.has c.toNat)

/-- A character that a search for a neighbouring letter passes over. -/
def isIgnorable (c : Char) : Bool := ignorableRuns.any (·.has c.toNat)

/-! ## Mappings -/

/-- The upper case of a character: one letter, or several. -/
def upper (c : Char) : List Char :=
  if c.toNat < 128 then [c.toUpper]
  else match toUpperExpansions.lookup c.toNat with
    | some codes => codes.map Char.ofNat
    | none => [((shifted? toUpperShifts c.toNat).map Char.ofNat).getD c]

/-- The lower case of a character: one letter, except for the dotted capital `İ`, whose dot is
kept as a combining mark. -/
def lower (c : Char) : List Char :=
  if c.toNat < 128 then [c.toLower]
  else if c = 'İ' then ['i', '\u0307']
  else [((shifted? toLowerShifts c.toNat).map Char.ofNat).getD c]

/-- Whether the nearest character that is not passed over is a letter with case. -/
def facesLetter (cs : List Char) : Bool :=
  match cs.dropWhile isIgnorable with
  | c :: _ => isCased c
  | [] => false

/-- `lowercase` of the rest of a text whose earlier characters are `seen`, nearest first. A capital
sigma takes its final form after a letter and before none. -/
def lowercaseAfter (seen : List Char) : List Char → List Char
  | [] => []
  | c :: rest =>
    (if c = 'Σ' then [if facesLetter seen && !facesLetter rest then 'ς' else 'σ'] else lower c) ++
      lowercaseAfter (c :: seen) rest

/-- The text in lower case. -/
def lowercase (s : String) : String := String.ofList (lowercaseAfter [] s.toList)

/-- The first character in upper case and the rest as it is. -/
def capitalizeChars : List Char → List Char
  | [] => []
  | c :: rest => upper c ++ rest

/-- The string with its first character in upper case. -/
def capitalize (s : String) : String := String.ofList (capitalizeChars s.toList)

end ClientBindings.Text
