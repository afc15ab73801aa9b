import ClientBindings.Json.Basic

/-!
# Tokens of JSON documents

* `Token.list?`: the tokens of a text, blanks between them passed over; none where no token of the
  format stands.
* A string token is read to its closing quote and then put together from its characters and
  escapes; two escapes that are the halves of a surrogate pair make one character.
-/

namespace ClientBindings.Json

/-- A token of a document. -/
inductive Token
  | arrayOpen
  | arrayClose
  | objectOpen
  | objectClose
  | colon
  | comma
  | null
  | bool (value : Bool)
  | number (numeral : Numeral)
  | string (text : Option String)

namespace Token

/-! ## Strings -/

/-- A piece of a string: a character, or the code unit of a numeric escape. -/
inductive Piece
  | char (c : Char)
  | unit (code : Nat)

/-- The value of a hexadecimal digit. -/
def hexDigit? (c : Char) : Option Nat :=
  if '0' ≤ c ∧ c ≤ '9' then some (c.toNat - '0'.toNat)
  else if 'a' ≤ c ∧ c ≤ 'f' then some (c.toNat - 'a'.toNat + 10)
  else if 'A' ≤ c ∧ c ≤ 'F' then some (c.toNat - 'A'.toNat + 10)
  else none

/-- The code unit that four hexadecimal digits give. -/
def hexUnit? (a b c d : Char) : Option Nat := do
  let a ← hexDigit? a
  let b ← hexDigit? b
  let c ← hexDigit? c
  let d ← hexDigit? d
  return ((a * 16 + b) * 16 + c) * 16 + d

/-- The character of a one-letter escape. -/
def escaped? (c : Char) : Option Char :=
  if c = '"' ∨ c = '\\' ∨ c = '/' then some c
  else if c = 'b' then some '\x08'
  else if c = 'f' then some '\x0c'
  else if c = 'n' then some '\n'
  else if c = 'r' then some '\r'
  else if c = 't' then some '\t'
  else none

/-- The pieces of a string up to its closing quote, and the text past the quote. -/
def pieces? : List Char → Option (List Piece × List Char)
  | [] => none
  | '\\' :: 'u' :: a :: b :: c :: d :: rest => do
    let code ← hexUnit? a b c d
    let (pieces, rest) ← pieces? rest
    return (.unit code :: pieces, rest)
  | '\\' :: c :: rest => do
    let char ← escaped? c
    let (pieces, rest) ← pieces? rest
    return (.char char :: pieces, rest)
  | c :: rest =>
    if c = '"' then some ([], rest)
    else if c.toNat < 0x20 then none
    else do
      let (pieces, rest) ← pieces? rest
      return (.char c :: pieces, rest)

/-- First half of a surrogate pair. -/
def isHighSurrogate (code : Nat) : Bool := 0xD800 ≤ code && code ≤ 0xDBFF

/-- Second half of a surrogate pair. -/
def isLowSurrogate (code : Nat) : Bool := 0xDC00 ≤ code && code ≤ 0xDFFF

/-- The characters that pieces make; none if half a surrogate pair is left alone. -/
def assemble? : List Piece → Option (List Char)
  | [] => some []
  | .char c :: rest => (assemble? rest).map (c :: ·)
  | [.unit code] =>
    if isHighSurrogate code || isLowSurrogate code then none else some [Char.ofNat code]
  | .unit code :: .char c :: rest =>
    if isHighSurrogate code || isLowSurrogate code then none
    else (assemble? (.char c :: rest)).map (Char.ofNat code :: ·)
  | .unit code :: .unit next :: rest =>
    if isHighSurrogate code && isLowSurrogate next then
      let char := Char.ofNat (0x10000 + (code - 0xD800) * 0x400 + (next - 0xDC00))
      (assemble? rest).map (char :: ·)
    else if isHighSurrogate code || isLowSurrogate code then none
    else (assemble? (.unit next :: rest)).map (Char.ofNat code :: ·)

/-! ## Numbers -/

/-- The digits at the start of a text, and the rest. -/
def digits (cs : List Char) : List Nat × List Char :=
  ((cs.takeWhile Char.isDigit).map fun c => c.toNat - '0'.toNat, cs.dropWhile Char.isDigit)

/-- The fraction at the start of a text, if a point stands there; a point needs a digit. -/
def fraction? : List Char → Option (List Nat × List Char)
  | '.' :: rest =>
    let (found, rest) := digits rest
    if found.isEmpty then none else some (found, rest)
  | cs => some ([], cs)

/-- The exponent at the start of a text, if its mark stands there; a mark needs a digit. -/
def exponent? : List Char → Option (Option (Bool × List Nat) × List Char)
  | [] => some (none, [])
  | c :: rest =>
    if c = 'e' ∨ c = 'E' then
      let (negative, rest) := match rest with
        | '-' :: rest => (true, rest)
        | '+' :: rest => (false, rest)
        | cs => (false, cs)
      let (found, rest) := digits rest
      if found.isEmpty then none else some (some (negative, found), rest)
    else some (none, c :: rest)

/-- The numeral at the start of a text. Its whole part has no leading zero unless it is zero. -/
def numeral? (cs : List Char) : Option (Numeral × List Char) := do
  let (negative, cs) := match cs with
    | '-' :: rest => (true, rest)
    | cs => (false, cs)
  let (whole, cs) := digits cs
  if whole.isEmpty || (whole.head? == some 0 && 1 < whole.length) then none
  else
    let (fraction, cs) ← fraction? cs
    let (exponent, cs) ← exponent? cs
    return (⟨negative, whole, fraction, exponent⟩, cs)

/-! ## Tokens -/

/-- The blanks that may stand between tokens. -/
def isSpace (c : Char) : Bool := c == ' ' || c == '\t' || c == '\n' || c == '\r'

/-- The token of one character. -/
def ofMark? (c : Char) : Option Token :=
  if c = '[' then some .arrayOpen
  else if c = ']' then some .arrayClose
  else if c = '{' then some .objectOpen
  else if c = '}' then some .objectClose
  else if c = ':' then some .colon
  else if c = ',' then some .comma
  else none

/-- The token of a word. -/
def ofWord? : List Char → Option (Token × List Char)
  | 'n' :: 'u' :: 'l' :: 'l' :: rest => some (.null, rest)
  | 't' :: 'r' :: 'u' :: 'e' :: rest => some (.bool true, rest)
  | 'f' :: 'a' :: 'l' :: 's' :: 'e' :: rest => some (.bool false, rest)
  | _ => none

/-- The token at the start of a text that does not start with a blank. -/
def next? : List Char → Option (Token × List Char)
  | [] => none
  | c :: rest =>
    match ofMark? c with
    | some token => some (token, rest)
    | none =>
      if c = '"' then
        (pieces? rest).map fun (pieces, rest) =>
          (.string ((assemble? pieces).map String.ofList), rest)
      else if c = '-' ∨ c.isDigit then
        (numeral? (c :: rest)).map fun (numeral, rest) => (.number numeral, rest)
      else ofWord? (c :: rest)

/-- `list?` of a text of at most `fuel` characters. -/
def listFrom? : Nat → List Char → Option (List Token)
  | _, [] => some []
  | 0, _ :: _ => none
  | fuel + 1, c :: rest =>
    if isSpace c then listFrom? fuel rest
    else do
      let (token, rest) ← next? (c :: rest)
      let tokens ← listFrom? fuel rest
      return token :: tokens

/-- The tokens of a text. -/
def list? (cs : List Char) : Option (List Token) := listFrom? cs.length cs

end Token

end ClientBindings.Json
