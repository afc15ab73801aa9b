import ClientBindings.Files.Path

/-!
# File trees

A directory with everything below it, as a value.

* `Tree.locate?`: the place that a path text leads to. Every directory on the way must exist.
* `Tree.isFile`, `Tree.isDirectory`, `Tree.readText?`, `Tree.list?`: what is there.
* `Tree.replaceFile`: the content of a file replaced as a whole, by way of a temporary file beside
  it; the tree is left as it was, apart from directories, where that is not possible.
-/

namespace ClientBindings

/-- The content of a file: a text, or bytes that are none. -/
inductive Content
  | text (text : String)
  | binary
  deriving DecidableEq, Repr

/-- What stands at a place. -/
inductive Node
  | directory
  | file (content : Content)
  deriving DecidableEq, Repr

/-- A place: the names that lead to it from the top of the tree. -/
abbrev Place := List String

/-- A file tree. Its top stands at the path text `root`, and relative paths start at `current`. -/
structure Tree where
  root : String
  current : Place := []
  nodes : List (Place × Node) := []
  deriving DecidableEq, Repr

namespace Tree

/-- The path text of the current directory. -/
def currentPath (tree : Tree) : String :=
  tree.current.foldl (fun path name => path ++ "/" ++ name) tree.root

/-- What stands at a place; the top is a directory. -/
def node? (tree : Tree) (place : Place) : Option Node :=
  if place.isEmpty then some .directory else tree.nodes.lookup place

/-- Whether a directory stands at the place. -/
def hasDirectory (tree : Tree) (place : Place) : Bool := tree.node? place = some .directory

/-- The tree with a node put at a place. -/
def put (tree : Tree) (place : Place) (node : Node) : Tree :=
  { tree with nodes := (place, node) :: tree.nodes.filter fun entry => entry.1 != place }

/-- The tree without the node at a place. -/
def erase (tree : Tree) (place : Place) : Tree :=
  { tree with nodes := tree.nodes.filter fun entry => entry.1 != place }

/-! ## Paths -/

/-- Whether something may be called so: a name has at most 255 bytes, and no NUL among them. -/
def isName (segment : String) : Bool := segment.utf8ByteSize ≤ 255 && !segment.toList.contains '\x00'

/-- The place that segments lead to from a place. Only the last one need not exist. -/
def walk? (tree : Tree) (place : Place) : List String → Option Place
  | [] => some place
  | segment :: rest =>
    if !tree.hasDirectory place then none
    else if segment.isEmpty || segment == "." then tree.walk? place rest
    else if segment == ".." then
      if place.isEmpty then none else tree.walk? place.dropLast rest
    else if isName segment then tree.walk? (place ++ [segment]) rest
    else none

/-- Whether a path text may be followed: it is not empty and has at most 4095 bytes. -/
def isPath (path : String) : Bool := !path.isEmpty && path.utf8ByteSize ≤ 4095

/-- Where a path starts, and its segments; none outside the tree and for no path. -/
def start? (tree : Tree) (path : String) : Option (Place × List String) :=
  if !isPath path then none
  else if path = tree.root then some ([], [])
  else if (tree.root ++ "/").toList.isPrefixOf path.toList then
    some ([], Path.segments (String.ofList (path.toList.drop (tree.root.length + 1))))
  else if Path.isAbsolute path then none
  else some (tree.current, Path.segments path)

/-- The place that a path leads to. -/
def locate? (tree : Tree) (path : String) : Option Place := do
  let (place, segments) ← tree.start? path
  tree.walk? place segments

/-- What a path leads to. -/
def find? (tree : Tree) (path : String) : Option Node := (tree.locate? path).bind tree.node?

/-- Whether the path leads to a file. -/
def isFile (tree : Tree) (path : String) : Bool :=
  match tree.find? path with
  | some (.file _) => true
  | _ => false

/-- Whether the path leads to a directory. -/
def isDirectory (tree : Tree) (path : String) : Bool := tree.find? path = some .directory

/-! ## Reading -/

/-- The text of a file; none if there is no file or no text in it. -/
def readText? (tree : Tree) (path : String) : Option String :=
  match tree.find? path with
  | some (.file (.text text)) => some text
  | _ => none

/-- The names in the directory at a place, in the order in which the tree has them. -/
def namesIn (tree : Tree) (place : Place) : List String :=
  tree.nodes.filterMap fun entry =>
    match entry.1.getLast? with
    | some name => if entry.1.dropLast = place then some name else none
    | none => none

/-- The names in a directory, in no particular order; none if the path leads to no directory. -/
def list? (tree : Tree) (path : String) : Option (List String) := do
  let place ← tree.locate? path
  if tree.hasDirectory place then some (tree.namesIn place) else none

/-! ## Writing -/

/-- The tree with the directories that segments lead through, from a place; none if a file is in
the way. -/
def makeDirectories? (tree : Tree) (place : Place) : List String → Option Tree
  | [] => some tree
  | segment :: rest =>
    if segment.isEmpty || segment == "." then tree.makeDirectories? place rest
    else if segment == ".." then
      if place.isEmpty then none else tree.makeDirectories? place.dropLast rest
    else if !isName segment then none
    else
      let next := place ++ [segment]
      match tree.node? next with
      | some .directory => tree.makeDirectories? next rest
      | some (.file _) => none
      | none => (tree.put next .directory).makeDirectories? next rest

/-- The tree with the directory of a path and those above it. -/
def ensureDirectory? (tree : Tree) (path : String) : Option Tree := do
  let (place, segments) ← tree.start? path
  tree.makeDirectories? place segments

/-- The place of a file to be written: its directory exists, and it is no directory itself. -/
def writable? (tree : Tree) (path : String) : Option Place := do
  let place ← tree.locate? path
  if place.isEmpty || tree.hasDirectory place then none
  else if tree.hasDirectory place.dropLast then some place
  else none

/-- The temporary file beside a file. -/
def temporaryPath (path : String) : String :=
  Path.withFileName path ("." ++ (Path.fileName? path).getD "" ++ ".tmp")

/-- The tree with the directory that a path stands in. -/
def ensureParent? (tree : Tree) (path : String) : Option Tree :=
  match Path.parent? path with
  | some parent => if parent.isEmpty then some tree else tree.ensureDirectory? parent
  | none => some tree

/-- The tree with a text in the file at a path, its directories made as needed, and whether that
was possible. The text first goes to a temporary file, which then takes the place of the file. -/
def replaceFile (tree : Tree) (path text : String) : Tree × Bool :=
  match tree.ensureParent? path with
  | none => (tree, false)
  | some tree =>
    match tree.writable? (temporaryPath path) with
    | none => (tree, false)
    | some temporary =>
      let tree := tree.erase temporary
      match tree.writable? path with
      | none => (tree, false)
      | some place => (tree.put place (.file (.text text)), true)

end Tree

end ClientBindings
