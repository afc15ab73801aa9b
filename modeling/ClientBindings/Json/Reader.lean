import ClientBindings.Json.Token

/-!
# Reading JSON documents

* `Json.ofTokens?`: the document that tokens spell; none unless they spell exactly one value.
* `Json.parse?`: the document of a text.
-/

namespace ClientBindings.Json

mutual

/-- The value at the start of the tokens, and the tokens past it. Every value takes one unit of
`fuel`. -/
def value? : Nat → List Token → Option (Json × List Token)
  | 0, _ => none
  | fuel + 1, tokens =>
    match tokens with
    | .null :: rest => some (.null, rest)
    | .bool value :: rest => some (.bool value, rest)
    | .number numeral :: rest => some (.number numeral, rest)
    | .string text :: rest => some (.string text, rest)
    | .arrayOpen :: .arrayClose :: rest => some (.array [], rest)
    | .arrayOpen :: rest => (items? fuel rest).map fun (items, rest) => (.array items, rest)
    | .objectOpen :: .objectClose :: rest => some (.object [], rest)
    | .objectOpen :: rest =>
      (members? fuel rest).map fun (entries, rest) => (.object entries, rest)
    | _ => none

/-- The items of an array up to its closing bracket. -/
def items? : Nat → List Token → Option (List Json × List Token)
  | 0, _ => none
  | fuel + 1, tokens => do
    let (item, rest) ← value? fuel tokens
    match rest with
    | .comma :: rest =>
      let (items, rest) ← items? fuel rest
      return (item :: items, rest)
    | .arrayClose :: rest => return ([item], rest)
    | _ => none

/-- The members of an object up to its closing brace. -/
def members? : Nat → List Token → Option (List (Option String × Json) × List Token)
  | 0, _ => none
  | fuel + 1, tokens =>
    match tokens with
    | .string key :: .colon :: rest => do
      let (value, rest) ← value? fuel rest
      match rest with
      | .comma :: rest =>
        let (entries, rest) ← members? fuel rest
        return ((key, value) :: entries, rest)
      | .objectClose :: rest => return ([(key, value)], rest)
      | _ => none
    | _ => none

end

/-- The value that the tokens spell, all of them. -/
def ofTokens? (tokens : List Token) : Option Json :=
  match value? (tokens.length + 1) tokens with
  | some (value, []) => some value
  | _ => none

/-- The document of a text. -/
def parse? (text : String) : Option Json := (Token.list? text.toList).bind ofTokens?

end ClientBindings.Json
