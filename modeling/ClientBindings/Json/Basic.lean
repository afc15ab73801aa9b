import ClientBindings.Json.Numeral

/-!
# JSON documents

A document as it is written: repeated keys, the order of keys and the spelling of numbers are kept.

* A text is `none` if it holds an escape for half a surrogate pair: such a text may stand where it
  is passed over, but not where it is read.
* `Json.readable`: whether a value can be read in full, with a given number of containers left to
  open.
-/

namespace ClientBindings

/-- A value of a JSON document. -/
inductive Json
  | null
  | bool (value : Bool)
  | number (numeral : Numeral)
  | string (text : Option String)
  | array (items : List Json)
  | object (entries : List (Option String × Json))

namespace Json

/-- How many containers may be open at once in the parts of a document that are read. -/
def maxDepth : Nat := 127

/-- Every text and number in the value can be read, and no more than `depth` containers are open
at once. -/
def readable : Nat → Json → Bool
  | _, .null => true
  | _, .bool _ => true
  | _, .number numeral => numeral.value?.isSome
  | _, .string text => text.isSome
  | 0, .array _ => false
  | 0, .object _ => false
  | depth + 1, .array items => items.all (readable depth)
  | depth + 1, .object entries =>
    entries.all fun entry => entry.1.isSome && readable depth entry.2

end Json

end ClientBindings
