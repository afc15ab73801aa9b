/-!
# Path texts

Paths as they are written: names between slashes, with `.` for the directory itself and `..` for its
parent. A path keeps its spelling; only where a part is taken off are slashes and dots at the end
passed over.

* `segments`: what stands between the slashes.
* `join`, `parent?`, `fileName?`: a path below another, the path of the parent, the last name.
-/

namespace ClientBindings.Path

/-- The texts between slashes. -/
def segmentsOf : List Char → List (List Char)
  | [] => [[]]
  | c :: rest =>
    if c = '/' then [] :: segmentsOf rest
    else match segmentsOf rest with
      | [] => [[c]]
      | segment :: others => (c :: segment) :: others

/-- The texts between slashes. -/
def segments (path : String) : List String := (segmentsOf path.toList).map String.ofList

/-- Whether the path starts at the root. -/
def isAbsolute (path : String) : Bool := path.toList.head? == some '/'

/-- The path `child` below `base`, or `child` itself if it is absolute. -/
def join (base child : String) : String :=
  if isAbsolute child || base.isEmpty then child
  else if base.toList.getLast? == some '/' then base ++ child
  else base ++ "/" ++ child

/-- A reversed path without the slashes, and the dots after a slash, that it starts with. -/
def trimReversed : List Char → List Char
  | [] => []
  | ['/'] => ['/']
  | '/' :: rest => trimReversed rest
  | '.' :: '/' :: rest => trimReversed ('/' :: rest)
  | cs => cs

/-- The path without slashes and dots at its end, cut before its last name. -/
def cut (path : String) : List Char × List Char :=
  let reversed := trimReversed path.toList.reverse
  ((trimReversed (reversed.dropWhile (· ≠ '/'))).reverse, (reversed.takeWhile (· ≠ '/')).reverse)

/-- The path of the parent: empty for a single name, none for the root and the empty path. -/
def parent? (path : String) : Option String :=
  let (before, last) := cut path
  if last.isEmpty then none else some (String.ofList before)

/-- The last name of the path, unless it is a dot or two. -/
def fileName? (path : String) : Option String :=
  let (_, last) := cut path
  if last.isEmpty || last == ['.'] || last == ['.', '.'] then none else some (String.ofList last)

/-- The path with another last name; below the path itself if it has none. -/
def withFileName (path name : String) : String :=
  match fileName? path, parent? path with
  | some _, some parent => join parent name
  | _, _ => join path name

end ClientBindings.Path
