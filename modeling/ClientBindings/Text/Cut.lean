/-!
# Cutting texts at marks

Where a mark (a fixed, non-empty text) stands in a text, and what stands around it.

* `occurs`: whether the mark stands anywhere; `before` and `afterLast?`: the text up to the first
  mark, and past the last one.
* `replaceAll`: every mark, from left to right, replaced by another text.
* `withoutEnd?`: a text less an ending.
-/

namespace ClientBindings.Text

/-- `c` in front of the first of several parts. -/
def consFirst (c : Char) : List (List Char) → List (List Char)
  | [] => [[c]]
  | part :: rest => (c :: part) :: rest

/-- Whether `mark` stands somewhere in the text. -/
def occurs (mark : List Char) : List Char → Bool
  | [] => mark.isEmpty
  | c :: rest => mark.isPrefixOf (c :: rest) || occurs mark rest

/-- The text up to the first `mark`, or all of it. -/
def before (mark : List Char) : List Char → List Char
  | [] => []
  | c :: rest => if mark.isPrefixOf (c :: rest) then [] else c :: before mark rest

/-- The text past the last `mark`. Marks may overlap: the one that starts last counts. -/
def afterLast? (mark : List Char) : List Char → Option (List Char)
  | [] => none
  | c :: rest =>
    match afterLast? mark rest with
    | some found => some found
    | none => if mark.isPrefixOf (c :: rest) then some ((c :: rest).drop mark.length) else none

/-- `replaceAll` with `skip` characters of a replaced mark still to pass over. -/
def replaceFrom (mark new : List Char) : Nat → List Char → List Char
  | _, [] => []
  | skip + 1, _ :: rest => replaceFrom mark new skip rest
  | 0, c :: rest =>
    if mark.isPrefixOf (c :: rest) then new ++ replaceFrom mark new (mark.length - 1) rest
    else c :: replaceFrom mark new 0 rest

/-- Every `mark`, taken from left to right without overlap, replaced by `new`. -/
def replaceAll (mark new cs : List Char) : List Char := replaceFrom mark new 0 cs

/-- The text before `ending`, if it ends so. -/
def withoutEnd? (ending cs : List Char) : Option (List Char) :=
  if ending.isSuffixOf cs then some (cs.take (cs.length - ending.length)) else none

/-- The string before `ending`, or all of it. -/
def dropEnding (ending s : String) : String :=
  match withoutEnd? ending.toList s.toList with
  | some cs => String.ofList cs
  | none => s

/-- Whether `part` stands somewhere in the string. -/
def hasPart (part s : String) : Bool := occurs part.toList s.toList

end ClientBindings.Text
