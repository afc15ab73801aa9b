import ClientBindings.Proofs.Generate.Destinations
import ClientBindings.Proofs.Schema.Reading

/-!
# What a run depends on

The clients of a run are a function of the schema, the configuration and the module sources. Nothing
else in the tree matters, nor the order in which a directory lists its files.

* `Tree.content?`, `Tree.Holds`: the file that a path leads to, and the files of a directory.
* `readSources_congr`: the same files are read from two directories that hold the same ones among
  those that are included.
* `SameInputs`: two trees have the same inputs for some options.
* `generate_congr`: the clients, or the failure, are then the same.
-/

namespace ClientBindings

namespace Tree

/-! ## Files by path -/

/-- The content of the file that a path leads to. -/
def content? (tree : Tree) (path : String) : Option Content := (tree.locate? path).bind tree.file?

/-- The directory has a file with this name and content. -/
def Holds (tree : Tree) (directory name : String) (content : Content) : Prop :=
  (∃ names ∈ tree.list? directory, name ∈ names) ∧
    tree.content? (Path.join directory name) = some content

/-- The text in the content of a file. -/
def textOf? : Content → Option String
  | .text text => some text
  | .binary => none

theorem isFile_eq (tree : Tree) (path : String) : tree.isFile path = (tree.content? path).isSome := by
  rw [isFile, find?, content?]
  cases tree.locate? path with
  | none => rfl
  | some place =>
    simp only [Option.bind_some, file?]
    rcases tree.node? place with _ | _ | _ <;> rfl

theorem readText?_eq_bind (tree : Tree) (path : String) :
    tree.readText? path = (tree.content? path).bind textOf? := by
  rw [readText?, find?, content?]
  cases tree.locate? path with
  | none => rfl
  | some place =>
    simp only [Option.bind_some, file?]
    rcases tree.node? place with _ | _ | _ | _ <;> rfl

/-- A path to a directory, and no other, leads to a list of names. -/
theorem isSome_list? (tree : Tree) (path : String) :
    (tree.list? path).isSome = tree.isDirectory path := by
  rw [list?, isDirectory, find?]
  cases tree.locate? path with
  | none => rfl
  | some place =>
    by_cases h : tree.node? place = some .directory
    · simp [hasDirectory, h]
    · simp [hasDirectory, h]

end Tree

/-! ## Sources -/

private theorem mapM_congr {α β ε : Type} {f g : α → Except ε β} {items : List α}
    (h : ∀ a ∈ items, f a = g a) : items.mapM f = items.mapM g := by
  induction items with
  | nil => rfl
  | cons a items ih =>
    rw [List.mapM_cons, List.mapM_cons, h a List.mem_cons_self,
      ih fun b hb => h b (List.mem_cons_of_mem a hb)]

section Sources

variable {a b : Tree} {directory : String} {included : String → Bool}

/-- The included names of files are those of the files in the directory. -/
theorem mem_included {tree : Tree} {names : List String} (h : tree.list? directory = some names)
    {name : String} :
    (name ∈ names.filter fun name => included name && tree.isFile (Path.join directory name)) ↔
      included name ∧ ∃ content, tree.Holds directory name content := by
  have hmem : (∃ found ∈ tree.list? directory, name ∈ found) ↔ name ∈ names := by
    simp [h]
  simp only [List.mem_filter, Bool.and_eq_true, Tree.isFile_eq, Option.isSome_iff_exists,
    Tree.Holds, hmem]
  constructor
  · rintro ⟨hname, hincluded, content, hcontent⟩
    exact ⟨hincluded, content, hname, hcontent⟩
  · rintro ⟨hincluded, content, hname, hcontent⟩
    exact ⟨hname, hincluded, content, hcontent⟩

/-- Directories that hold the same files among the included ones have the same sources, in
whatever order they list them. -/
theorem readSources_congr (hdirectory : a.isDirectory directory = b.isDirectory directory)
    (hfiles : ∀ name, included name →
      ∀ content, a.Holds directory name content ↔ b.Holds directory name content) :
    readSources a directory included = readSources b directory included := by
  rw [← Tree.isSome_list?, ← Tree.isSome_list?] at hdirectory
  rw [readSources, readSources]
  cases ha : a.list? directory with
  | none =>
    rw [ha, Option.isSome_none, Eq.comm, Option.isSome_eq_false_iff, Option.isNone_iff_eq_none]
      at hdirectory
    rw [hdirectory]
  | some names =>
    rw [ha, Option.isSome_some, Eq.comm, Option.isSome_iff_exists] at hdirectory
    obtain ⟨others, hb⟩ := hdirectory
    rw [hb]
    dsimp only
    have hnames : sortedSet (names.filter fun name =>
          included name && a.isFile (Path.join directory name)) =
        sortedSet (others.filter fun name =>
          included name && b.isFile (Path.join directory name)) := by
      refine sortedSet_congr fun name => ?_
      rw [mem_included ha, mem_included hb]
      exact and_congr_right fun hincluded => exists_congr (hfiles name hincluded)
    rw [hnames]
    refine mapM_congr fun name hname => ?_
    rw [mem_sortedSet, mem_included hb] at hname
    obtain ⟨hincluded, content, hfile⟩ := hname
    have hread : a.readText? (Path.join directory name) = b.readText? (Path.join directory name) := by
      rw [Tree.readText?_eq_bind, Tree.readText?_eq_bind,
        ((hfiles name hincluded content).mpr hfile).2, hfile.2]
    rw [hread]

end Sources

/-! ## Runs -/

/-- The trees have the same inputs: the schema, the configuration, and the files of modules in the
directory of functions. -/
structure SameInputs (options : Options) (a b : Tree) : Prop where
  schema : a.content? options.schema = b.content? options.schema
  config : ∀ path ∈ options.config, a.content? path = b.content? path
  directory : a.isDirectory options.functions = b.isDirectory options.functions
  modules : ∀ name, SourceFile.isModule name → ∀ content,
    a.Holds options.functions name content ↔ b.Holds options.functions name content

/-- **Determinacy.** Trees with the same inputs lead to the same clients or to the same failure. -/
theorem generate_congr {options : Options} {a b : Tree} (h : SameInputs options a b) :
    generate a options = generate b options := by
  have hsources := readSources_congr h.directory h.modules
  have hschema : loadSchema a options.schema = loadSchema b options.schema := by
    rw [loadSchema, loadSchema, Tree.readText?_eq_bind, Tree.readText?_eq_bind, h.schema]
  have hconfig : loadConfig a options.config = loadConfig b options.config := by
    cases hpath : options.config with
    | none => rfl
    | some path =>
      rw [loadConfig, loadConfig, Tree.readText?_eq_bind, Tree.readText?_eq_bind, h.config path hpath]
  rw [generate, generate, Tree.isFile_eq, Tree.isFile_eq, h.schema, h.directory, hschema, hsources,
    hconfig]
  cases hpath : options.config with
  | none => rfl
  | some path => simp only [Tree.isFile_eq, h.config path hpath]

/-- The same two modules, listed in either order: between them stand tests, a module without a
client and a directory with the name of a module. -/
theorem generate_congr_of_listing :
    let schema : Node := .file (.text "\x7b\x7d")
    let source : Node := .file (.text "export const list = 1\n")
    let a : Tree :=
      { root := "/a"
        nodes := [(["schema.json"], schema), (["convex"], .directory),
          (["convex", "wiki.ts"], source), (["convex", "blog.ts"], source)] }
    let b : Tree :=
      { root := "/b"
        nodes := [(["convex", "blog.ts"], source), (["convex", "blog.test.ts"], .file .binary),
          (["convex"], .directory), (["convex", "lib.ts"], .directory), (["notes"], .directory),
          (["convex", "wiki.ts"], source), (["convex", "http.ts"], source),
          (["schema.json"], schema)] }
    let options : Options :=
      { schema := "schema.json", functions := "convex", output := "Api.swift" }
    SameInputs options a b ∧ generate a options = generate b options ∧
      (generate a options).toOption.map (fun clients => clients.full.apis.map (·.name)) =
        some ["BlogAPI", "WikiAPI"] := by
  intro schema source a b options
  have ha : a.list? "convex" = some ["wiki.ts", "blog.ts"] := by decide
  have hb : b.list? "convex" =
      some ["blog.ts", "blog.test.ts", "lib.ts", "wiki.ts", "http.ts"] := by decide
  have hblog : a.content? (Path.join "convex" "blog.ts") =
      b.content? (Path.join "convex" "blog.ts") := by decide
  have hwiki : a.content? (Path.join "convex" "wiki.ts") =
      b.content? (Path.join "convex" "wiki.ts") := by decide
  have hlib : b.content? (Path.join "convex" "lib.ts") = none := by decide
  -- Of the other three names that `b` lists, two are of no module, and `lib.ts` has no content.
  have hinputs : SameInputs options a b := by
    refine ⟨by decide, by simp [options], by decide, fun name hname content => ?_⟩
    simp only [Tree.Holds, options, ha, hb, Option.mem_some_iff, exists_eq_left', List.mem_cons,
      List.not_mem_nil, or_false]
    constructor
    · rintro ⟨rfl | rfl, hcontent⟩
      · exact ⟨by simp, hwiki ▸ hcontent⟩
      · exact ⟨by simp, hblog ▸ hcontent⟩
    · rintro ⟨rfl | rfl | rfl | rfl | rfl, hcontent⟩
      · exact ⟨by simp, hblog ▸ hcontent⟩
      · exact absurd hname (by decide)
      · rw [hlib] at hcontent
        cases hcontent
      · exact ⟨by simp, hwiki ▸ hcontent⟩
      · exact absurd hname (by decide)
  exact ⟨hinputs, generate_congr hinputs, by decide +kernel⟩

end ClientBindings
