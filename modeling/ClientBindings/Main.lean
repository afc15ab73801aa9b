import ClientBindings.CommandLine.Tool

/-!
# The program

The command line of both tools: `generate` and `check`, followed by the arguments of the tool.

The part of the file system that a tool may read is taken as a file tree, the tool runs on the tree,
and the files that it changes are written.
-/

namespace ClientBindings

/-- The tool of a command. -/
def CommandLine.Tool.ofCommand? : String → Option CommandLine.Tool
  | "generate" => some .generator
  | "check" => some .checker
  | _ => none

/-- The place of an absolute path, as far as its text tells. -/
def absolutePlace (path : String) : Place :=
  (Path.segments path).foldl (fun place segment =>
    if segment.isEmpty || segment == "." then place
    else if segment == ".." then place.dropLast
    else place ++ [segment]) []

/-- The path text of a place. -/
def placePath (place : Place) : String := "/" ++ "/".intercalate place

/-- The content of a file. -/
def readContent (path : String) : IO Content := do
  try return .text (← IO.FS.readFile path)
  catch _ => return .binary

/-- The tree with what stands at a place, and below it to a depth. -/
def takeBelow (tree : Tree) (place : Place) : Nat → IO Tree
  | 0 => return tree
  | depth + 1 => do
    let path := placePath place
    let found ← try some <$> (← IO.FS.realPath path).metadata catch _ => pure none
    match found.map fun metadata => metadata.type with
    | some IO.FS.FileType.dir =>
      let names ← try (← IO.FS.realPath path).readDir catch _ => pure #[]
      let tree := if place.isEmpty then tree else tree.put place .directory
      names.foldlM (fun tree entry => takeBelow tree (place ++ [entry.fileName]) depth) tree
    | some IO.FS.FileType.file => return tree.put place (.file (← readContent path))
    | _ => return tree

/-- The tree with the directories above a place. -/
def takeAbove (tree : Tree) (place : Place) : Tree :=
  (List.range place.length).foldl (fun tree length =>
    if length = 0 then tree else tree.put (place.take length) .directory) tree

/-- The part of the file system that a tool with these arguments may read. -/
def takeTree (arguments : List String) : IO Tree := do
  let current := (← IO.currentDir).toString
  let start : Tree := { root := "", current := absolutePlace current }
  let values := arguments.map fun argument =>
    if argument.toList.head? == some '-' then
      String.ofList ((argument.toList.dropWhile (· ≠ '=')).drop 1)
    else argument
  let named := (values.filter fun value => !value.isEmpty).map fun value =>
    absolutePlace (if Path.isAbsolute value then value else current ++ "/" ++ value)
  let tree ← takeBelow (takeAbove start start.current) start.current 4
  named.foldlM (fun tree place =>
    if place.dropLast.isEmpty then takeBelow tree place 2
    else takeBelow (takeAbove tree place.dropLast) place.dropLast 3) tree

/-- Writes the files of a tree that another one does not hold. -/
def writeChanges (before after : Tree) : IO Unit := do
  for (place, node) in after.nodes do
    match node with
    | .file (.text text) =>
      if before.node? place ≠ some node then
        let path := placePath place
        IO.FS.createDirAll (placePath place.dropLast)
        IO.FS.writeFile (Tree.temporaryPath path) text
        IO.FS.rename (Tree.temporaryPath path) path
    | _ => pure ()

/-- A run of a tool: its output, its diagnostics and its exit code. -/
def runTool (tool : CommandLine.Tool) (arguments : List String) : IO UInt32 := do
  let output ← IO.getStdout
  let isStyled := (← output.isTty) && (← IO.getEnv "NO_COLOR").isNone
  let tree ← takeTree arguments
  let outcome := tool.run (if isStyled then .styled else .plain) tree arguments
  writeChanges tree outcome.tree
  output.putStr outcome.text
  output.flush
  match outcome.cause with
  | some cause => IO.eprintln cause
  | none => pure ()
  return outcome.exitCode.toUInt32

end ClientBindings

/-- Runs the tool that the first argument names on the others. -/
def main (arguments : List String) : IO UInt32 := do
  match arguments with
  | [] => IO.eprintln "usage: (generate | check) [arguments]"; return 2
  | command :: rest =>
    match ClientBindings.CommandLine.Tool.ofCommand? command with
    | some tool => ClientBindings.runTool tool rest
    | none => IO.eprintln "usage: (generate | check) [arguments]"; return 2
