import ClientBindings.Generate.Run

/-!
# Files after a run

What a run of the generator does to the files of a tree. Directories are left out of account.

* `Tree.replaceFile_true`, `Tree.replaceFile_false`: a file that is replaced has its text; all
  others are as before, apart from one in the place of the temporary file.
* `run_ending`: the destinations of a run that succeeds hold both clients. A run that fails leaves
  every file as it was, unless the second destination cannot be written: the first one holds its
  client by then (`run_halfway`).
-/

namespace ClientBindings

namespace Tree

/-! ## Files -/

/-- The file at a place. -/
def file? (tree : Tree) (place : Place) : Option Content :=
  match tree.node? place with
  | some (.file content) => some content
  | _ => none

theorem file?_congr {tree other : Tree} {place : Place} (h : tree.node? place = other.node? place) :
    tree.file? place = other.file? place := by
  rw [file?, h]; rfl

theorem readText?_eq {tree : Tree} {path : String} {place : Place}
    (h : tree.locate? path = some place) : tree.readText? path = some text ↔
      tree.file? place = some (.text text) := by
  rw [readText?, find?, h, Option.bind_some, file?]
  rcases tree.node? place with _ | _ | _ | _ <;> simp

theorem lookup_filter_ne {place other : Place} (h : other ≠ place) (nodes : List (Place × Node)) :
    (nodes.filter fun entry => entry.1 != place).lookup other = nodes.lookup other := by
  induction nodes with
  | nil => rfl
  | cons entry nodes ih =>
    obtain ⟨key, node⟩ := entry
    by_cases hkey : key = place
    · subst hkey
      simpa [List.lookup_cons, beq_false_of_ne h] using ih
    · simp [List.lookup_cons, hkey, ih]

theorem node?_put_self (tree : Tree) {place : Place} (h : place ≠ []) (node : Node) :
    (tree.put place node).node? place = some node := by
  simp [node?, put, h]

theorem node?_put_of_ne (tree : Tree) {place other : Place} (h : other ≠ place) (node : Node) :
    (tree.put place node).node? other = tree.node? other := by
  simp [node?, put, List.lookup_cons, beq_false_of_ne h, lookup_filter_ne h]

theorem node?_erase_self (tree : Tree) {place : Place} (h : place ≠ []) :
    (tree.erase place).node? place = none := by
  simp only [node?, erase, List.isEmpty_iff, h, if_false, List.lookup_eq_none_iff, List.mem_filter]
  rintro ⟨key, node⟩ ⟨-, hkey⟩
  exact bne_iff_ne.mpr (Ne.symm (by simpa using hkey))

theorem node?_erase_of_ne (tree : Tree) {place other : Place} (h : other ≠ place) :
    (tree.erase place).node? other = tree.node? other := by
  simp [node?, erase, lookup_filter_ne h]

/-! ## Places of paths -/

/-- The place that segments name from a place, whether or not anything stands there. -/
def resolve? (place : Place) : List String → Option Place
  | [] => some place
  | segment :: rest =>
    if segment.isEmpty || segment == "." then resolve? place rest
    else if segment == ".." then if place.isEmpty then none else resolve? place.dropLast rest
    else resolve? (place ++ [segment]) rest

/-- The place that a path names. -/
def target? (tree : Tree) (path : String) : Option Place :=
  (tree.start? path).bind fun (place, segments) => resolve? place segments

theorem resolve?_of_walk? {tree : Tree} {place found : Place} {segments : List String}
    (h : tree.walk? place segments = some found) : resolve? place segments = some found := by
  induction segments generalizing place with
  | nil => exact h
  | cons segment rest ih =>
    rw [walk?] at h
    rw [resolve?]
    split at h
    · cases h
    · split
      next hdot => rw [if_pos hdot] at h; exact ih h
      next hdot =>
        rw [if_neg hdot] at h
        split
        next hup =>
          rw [if_pos hup] at h
          split
          next hempty => rw [if_pos hempty] at h; cases h
          next hempty => rw [if_neg hempty] at h; exact ih h
        next hup =>
          rw [if_neg hup] at h
          split at h
          · exact ih h
          · cases h

theorem target?_of_locate? {tree : Tree} {path : String} {place : Place}
    (h : tree.locate? path = some place) : tree.target? path = some place := by
  obtain ⟨⟨start, segments⟩, hstart, hwalk⟩ := Option.bind_eq_some_iff.mp h
  rw [target?, hstart]
  exact resolve?_of_walk? hwalk

/-! ## Growth -/

/-- The tree `after` has the directories of `before`, and its paths start at the same places. -/
structure Grows (before after : Tree) : Prop where
  root : after.root = before.root
  current : after.current = before.current
  directories : ∀ place, before.hasDirectory place → after.hasDirectory place

theorem Grows.refl (tree : Tree) : tree.Grows tree := ⟨rfl, rfl, fun _ => id⟩

theorem Grows.trans {before mid after : Tree} (h : before.Grows mid) (h' : mid.Grows after) :
    before.Grows after where
  root := h'.root.trans h.root
  current := h'.current.trans h.current
  directories place hplace := h'.directories place (h.directories place hplace)

theorem Grows.start? {before after : Tree} (h : before.Grows after) (path : String) :
    after.start? path = before.start? path := by
  simp [Tree.start?, h.root, h.current]

theorem Grows.target? {before after : Tree} (h : before.Grows after) (path : String) :
    after.target? path = before.target? path := by
  rw [Tree.target?, h.start?]
  rfl

theorem Grows.walk? {before after : Tree} (h : before.Grows after) {place found : Place}
    {segments : List String} (hwalk : before.walk? place segments = some found) :
    after.walk? place segments = some found := by
  induction segments generalizing place with
  | nil => exact hwalk
  | cons segment rest ih =>
    rw [Tree.walk?] at hwalk ⊢
    split at hwalk
    · cases hwalk
    next hplace =>
      have hplace' : after.hasDirectory place = true := h.directories place (by simpa using hplace)
      rw [hplace']
      simp only [Bool.not_true, Bool.false_eq_true, if_false]
      split at hwalk
      next hdot => rw [if_pos hdot]; exact ih hwalk
      next hdot =>
        rw [if_neg hdot]
        split at hwalk
        next hup =>
          rw [if_pos hup]
          split at hwalk
          · cases hwalk
          next hempty => rw [if_neg hempty]; exact ih hwalk
        next hup =>
          rw [if_neg hup]
          split at hwalk
          next hname => rw [if_pos hname]; exact ih hwalk
          · cases hwalk

theorem Grows.locate? {before after : Tree} (h : before.Grows after) {path : String}
    {place : Place} (hlocate : before.locate? path = some place) :
    after.locate? path = some place := by
  obtain ⟨⟨start, segments⟩, hstart, hwalk⟩ := Option.bind_eq_some_iff.mp hlocate
  rw [Tree.locate?, h.start?, hstart]
  exact h.walk? hwalk

theorem Grows.put_file {tree : Tree} {place : Place} (h : ¬ tree.hasDirectory place)
    (hplace : place ≠ []) (content : Content) : tree.Grows (tree.put place (.file content)) where
  root := rfl
  current := rfl
  directories other hother := by
    have hne : other ≠ place := by
      rintro rfl
      exact h hother
    rw [hasDirectory, node?_put_of_ne tree hne]
    exact hother

theorem Grows.erase {tree : Tree} {place : Place} (h : ¬ tree.hasDirectory place) :
    tree.Grows (tree.erase place) where
  root := rfl
  current := rfl
  directories other hother := by
    have hne : other ≠ place := by
      rintro rfl
      exact h hother
    rw [hasDirectory, node?_erase_of_ne tree hne]
    exact hother

/-! ## Directories -/

/-- A directory where there is nothing changes no file. -/
theorem file?_put_directory {tree : Tree} {place : Place} (h : tree.node? place = none)
    (other : Place) : (tree.put place .directory).file? other = tree.file? other := by
  by_cases hother : other = place
  · subst hother
    have hplace : other ≠ [] := by
      rintro rfl
      simp [node?] at h
    rw [file?, node?_put_self tree hplace, file?, h]
  · exact file?_congr (node?_put_of_ne tree hother _)

theorem Grows.put_directory {tree : Tree} {place : Place} (h : tree.node? place = none) :
    tree.Grows (tree.put place .directory) where
  root := rfl
  current := rfl
  directories other hother := by
    have hne : other ≠ place := by
      rintro rfl
      rw [hasDirectory, h] at hother
      simp at hother
    rw [hasDirectory, node?_put_of_ne tree hne]
    exact hother

theorem makeDirectories?_files {tree after : Tree} {place : Place} {segments : List String}
    (h : tree.makeDirectories? place segments = some after) :
    tree.Grows after ∧ ∀ other, after.file? other = tree.file? other := by
  induction segments generalizing tree place with
  | nil =>
    cases h
    exact ⟨.refl _, fun _ => rfl⟩
  | cons segment rest ih =>
    rw [makeDirectories?] at h
    split at h
    · exact ih h
    · split at h
      · split at h
        · cases h
        · exact ih h
      · split at h
        · cases h
        · dsimp only at h
          split at h
          · exact ih h
          · cases h
          next hnone =>
            obtain ⟨hgrows, hfiles⟩ := ih h
            refine ⟨(Grows.put_directory hnone).trans hgrows, fun other => ?_⟩
            rw [hfiles, file?_put_directory hnone]

theorem ensureParent?_files {tree after : Tree} {path : String}
    (h : tree.ensureParent? path = some after) :
    tree.Grows after ∧ ∀ other, after.file? other = tree.file? other := by
  rw [ensureParent?] at h
  split at h
  · split at h
    · cases h
      exact ⟨.refl _, fun _ => rfl⟩
    · obtain ⟨⟨place, segments⟩, -, hmake⟩ := Option.bind_eq_some_iff.mp h
      exact makeDirectories?_files hmake
  · cases h
    exact ⟨.refl _, fun _ => rfl⟩

theorem writable?_spec {tree : Tree} {path : String} {place : Place}
    (h : tree.writable? path = some place) :
    tree.locate? path = some place ∧ place ≠ [] ∧ ¬ tree.hasDirectory place := by
  obtain ⟨found, hlocate, h⟩ := Option.bind_eq_some_iff.mp h
  split at h
  · cases h
  next hfound =>
    split at h
    · cases h
      simp only [Bool.or_eq_true, List.isEmpty_iff, not_or] at hfound
      exact ⟨hlocate, hfound⟩
    · cases h

/-! ## Replaced files -/

/-- To take away what is no file changes no file. -/
theorem file?_erase {tree : Tree} {place : Place} (h : tree.file? place = none) (other : Place) :
    (tree.erase place).file? other = tree.file? other := by
  by_cases hother : other = place
  · subst hother
    by_cases hempty : other = []
    · subst hempty
      rfl
    · rw [h, file?, node?_erase_self tree hempty]
  · exact file?_congr (node?_erase_of_ne tree hother)

/-- The trees have the same files, apart from those where the paths lead to. -/
def SameFiles (before after : Tree) (paths : List String) : Prop :=
  ∀ place, (∀ path ∈ paths, before.target? path ≠ some place) →
    after.file? place = before.file? place

theorem SameFiles.trans {before mid after : Tree} {paths others : List String}
    (h : before.SameFiles mid paths) (hgrows : before.Grows mid)
    (h' : mid.SameFiles after others) : before.SameFiles after (paths ++ others) := by
  intro place hplace
  rw [h' place fun path hpath => ?_, h place fun path hpath => ?_]
  · exact hplace path (List.mem_append_left _ hpath)
  · rw [hgrows.target?]
    exact hplace path (List.mem_append_right _ hpath)

/-- A text stays readable while its file and the directories are there. -/
theorem SameFiles.readText? {before after : Tree} {paths : List String} {path text : String}
    (h : before.SameFiles after paths) (hgrows : before.Grows after)
    (hpath : ∀ other ∈ paths, before.target? other ≠ before.target? path)
    (hread : before.readText? path = some text) : after.readText? path = some text := by
  obtain ⟨place, hlocate⟩ : ∃ place, before.locate? path = some place := by
    cases hlocate : before.locate? path with
    | none => simp [Tree.readText?, find?, hlocate] at hread
    | some place => exact ⟨place, rfl⟩
  rw [readText?_eq hlocate] at hread
  rw [readText?_eq (hgrows.locate? hlocate), h place, hread]
  rw [← target?_of_locate? hlocate]
  exact hpath

/-- A file that cannot be replaced changes no file, if none is in the place of the temporary
file. -/
theorem replaceFile_false {tree after : Tree} {path text : String}
    (h : tree.replaceFile path text = (after, false))
    (hspare : ∀ place ∈ tree.target? (temporaryPath path), tree.file? place = none) :
    tree.Grows after ∧ ∀ place, after.file? place = tree.file? place := by
  rw [replaceFile] at h
  split at h
  · cases h
    exact ⟨.refl _, fun _ => rfl⟩
  next mid hmid =>
    obtain ⟨hgrows, hfiles⟩ := ensureParent?_files hmid
    split at h
    · cases h
      exact ⟨hgrows, hfiles⟩
    next temporary htemporary =>
      obtain ⟨hlocate, -, hno⟩ := writable?_spec htemporary
      have htarget := hspare temporary (by rw [← hgrows.target?]; exact target?_of_locate? hlocate)
      dsimp only at h
      split at h
      · cases h
        refine ⟨hgrows.trans (.erase hno), fun place => ?_⟩
        rw [file?_erase ((hfiles _).trans htarget), hfiles]
      · cases h

/-- A file that is replaced holds its text, and the others are as before. -/
theorem replaceFile_true {tree after : Tree} {path text : String}
    (h : tree.replaceFile path text = (after, true))
    (hspare : ∀ place ∈ tree.target? (temporaryPath path), tree.file? place = none) :
    tree.Grows after ∧ after.readText? path = some text ∧ tree.SameFiles after [path] := by
  rw [replaceFile] at h
  split at h
  · cases h
  next mid hmid =>
    obtain ⟨hgrows, hfiles⟩ := ensureParent?_files hmid
    split at h
    · cases h
    next temporary htemporary =>
      obtain ⟨htlocate, -, htno⟩ := writable?_spec htemporary
      have htarget := hspare temporary (by rw [← hgrows.target?]; exact target?_of_locate? htlocate)
      dsimp only at h
      split at h
      · cases h
      next place hplace =>
        obtain ⟨hlocate, hne, hno⟩ := writable?_spec hplace
        have hput := Grows.put_file hno hne (.text text)
        have herase := hgrows.trans (.erase htno)
        cases h
        refine ⟨herase.trans hput, ?_, fun other hother => ?_⟩
        · rw [readText?_eq (hput.locate? hlocate), file?, node?_put_self _ hne]
        · have hne' : other ≠ place := by
            rintro rfl
            refine hother path List.mem_cons_self ?_
            rw [← herase.target?]
            exact target?_of_locate? hlocate
          rw [file?_congr (node?_put_of_ne _ hne' _), file?_erase ((hfiles _).trans htarget),
            hfiles]

end Tree

/-! ## Runs -/

/-- The destinations of a run. -/
def Options.destinations (options : Options) : List String :=
  options.output :: options.mobile.toList

/-- The paths of a run do not meet in the tree: no file is where a temporary file goes, and the
second destination has a place of its own, for its temporary file too. -/
structure Options.Apart (options : Options) (tree : Tree) : Prop where
  spare : ∀ path ∈ options.destinations, ∀ place ∈ tree.target? (Tree.temporaryPath path),
    tree.file? place = none
  mobile : ∀ path ∈ options.mobile, tree.target? path ≠ tree.target? options.output ∧
    tree.target? (Tree.temporaryPath path) ≠ tree.target? options.output

private theorem bind_ok {α β : Type} {x : Except GenerateError α} {f : α → Except GenerateError β}
    {b : β} (h : (x >>= f) = .ok b) : ∃ a, x = .ok a ∧ f a = .ok b := by
  cases x with
  | error error => cases h
  | ok a => exact ⟨a, rfl, h⟩

/-- The clients of a run are made from what it has read: the schema, the sources of the modules and
the configuration. -/
theorem generate_eq_ok {tree : Tree} {options : Options} {generated : Generated}
    (h : generate tree options = .ok generated) : ∃ schema model sources config,
      loadSchema tree options.schema = .ok schema ∧ loadModel schema = .ok model ∧
      readSources tree options.functions SourceFile.isModule = .ok sources ∧
      loadConfig tree options.config = .ok config ∧
      generated.full = FullClient.ofInputs ⟨model, modulesOf model sources, config⟩ ∧
      generated.reduced = options.mobile.map fun _ =>
        ReducedClient.ofInputs ⟨model, modulesOf model sources, config⟩ := by
  unfold generate at h
  obtain ⟨_, -, h⟩ := bind_ok h
  obtain ⟨_, -, h⟩ := bind_ok h
  dsimp only at h
  split at h
  case' h_1 => obtain ⟨_, -, h⟩ := bind_ok h
  all_goals
    obtain ⟨schema, hschema, h⟩ := bind_ok h
    obtain ⟨model, hmodel, h⟩ := bind_ok h
    obtain ⟨sources, hsources, h⟩ := bind_ok h
    obtain ⟨config, hconfig, h⟩ := bind_ok h
    cases h
    exact ⟨schema, model, sources, config, hschema, hmodel, hsources, hconfig, rfl, rfl⟩

/-- There is a reduced client exactly if it has a destination. -/
theorem generate_reduced {tree : Tree} {options : Options} {generated : Generated}
    (h : generate tree options = .ok generated) :
    generated.reduced.isSome = options.mobile.isSome := by
  obtain ⟨_, _, _, _, -, -, -, -, -, hreduced⟩ := generate_eq_ok h
  rw [hreduced]
  exact Option.isSome_map

/-- How a run ends: with its result, and the tree after it. -/
inductive Ending (tree : Tree) (options : Options) : Except GenerateError String × Tree → Prop
  /-- Both clients are written, and no other file has changed. -/
  | written {generated : Generated} {after : Tree} :
      generate tree options = .ok generated →
      after.readText? options.output = some generated.full.text →
      (∀ path ∈ options.mobile, ∃ client, generated.reduced = some client ∧
        after.readText? path = some client.text) →
      tree.SameFiles after options.destinations →
      Ending tree options (.ok (summary options (Stats.ofClient generated.full)), after)
  /-- Every file is as it was, and there is no other. -/
  | unchanged {error : GenerateError} {after : Tree} :
      (∀ place, after.file? place = tree.file? place) → Ending tree options (.error error, after)
  /-- The second destination cannot be written; the first one holds its client. -/
  | halfway {generated : Generated} {path : String} {after : Tree} :
      generate tree options = .ok generated → options.mobile = some path →
      after.readText? options.output = some generated.full.text →
      tree.SameFiles after [options.output] →
      Ending tree options (.error (.unwritable path), after)

/-- **Files after a run.** Either both clients are written, or no file has changed, or the second
destination cannot be written. -/
theorem run_ending {tree : Tree} {options : Options} (h : options.Apart tree) :
    Ending tree options (run tree options) := by
  have houtput := h.spare options.output List.mem_cons_self
  rw [run]
  cases hgenerate : generate tree options with
  | error error => exact .unchanged fun _ => rfl
  | ok generated =>
    dsimp only
    rcases hfirst : tree.replaceFile options.output generated.full.text with ⟨mid, written⟩
    cases written with
    | false => exact .unchanged (Tree.replaceFile_false hfirst houtput).2
    | true =>
      obtain ⟨hgrows, hread, hsame⟩ := Tree.replaceFile_true hfirst houtput
      have hreduced := generate_reduced hgenerate
      cases hmobile : options.mobile with
      | none =>
        refine .written hgenerate hread ?_ ?_
        · simp [hmobile]
        · simpa [Options.destinations, hmobile] using hsame
      | some path =>
        obtain ⟨client, hclient⟩ := Option.isSome_iff_exists.mp (hreduced.trans (by simp [hmobile]))
        obtain ⟨hplace, hspare⟩ := h.mobile path hmobile
        have hpath : path ∈ options.destinations := by simp [Options.destinations, hmobile]
        -- The first client is not where the temporary file of the second one goes.
        have hfree : ∀ place ∈ mid.target? (Tree.temporaryPath path), mid.file? place = none := by
          intro place htarget
          rw [hgrows.target?] at htarget
          rw [hsame place fun other hother => ?_, h.spare path hpath place htarget]
          obtain rfl := List.mem_singleton.mp hother
          exact fun heq => hspare (htarget.trans heq.symm)
        rw [hclient]
        dsimp only
        rcases hsecond : mid.replaceFile path client.text with ⟨after, written⟩
        cases written with
        | false =>
          obtain ⟨hgrows', hfiles⟩ := Tree.replaceFile_false hsecond hfree
          have hsame' : mid.SameFiles after [] := fun place _ => hfiles place
          have hread' := hsame'.readText? hgrows' (by simp) hread
          exact .halfway hgenerate hmobile hread' (hsame.trans hgrows hsame')
        | true =>
          obtain ⟨hgrows', hmread, hsame'⟩ := Tree.replaceFile_true hsecond hfree
          have hread' : after.readText? options.output = some generated.full.text := by
            refine hsame'.readText? hgrows' (fun other hother => ?_) hread
            obtain rfl := List.mem_singleton.mp hother
            rwa [hgrows.target?, hgrows.target?]
          refine .written hgenerate hread' ?_ ?_
          · intro other hother
            obtain rfl : path = other := by simpa [hmobile] using hother
            exact ⟨client, hclient, hmread⟩
          · simpa [Options.destinations, hmobile] using hsame.trans hgrows hsame'

/-- A tree with an empty schema and a directory of functions, and with another directory. -/
def sampleTree : Tree where
  root := "/work"
  nodes := [(["schema.json"], .file (.text "\x7b\x7d")), (["functions"], .directory),
    (["mobile"], .directory)]

/-- The destinations of a run, and their temporary files, have four places with no file there. -/
theorem run_ending_of_two_destinations :
    let options : Options :=
      { schema := "schema.json", functions := "functions", output := "Api.swift",
        mobile := some "mobile/Api.swift" }
    options.Apart sampleTree ∧ Ending sampleTree options (run sampleTree options) := by
  intro options
  have hapart : options.Apart sampleTree := by
    constructor
    · have houtput : sampleTree.target? (Tree.temporaryPath "Api.swift") =
          some [".Api.swift.tmp"] := by decide
      have hmobile : sampleTree.target? (Tree.temporaryPath "mobile/Api.swift") =
          some ["mobile", ".Api.swift.tmp"] := by decide
      intro path hpath place hplace
      obtain rfl | rfl : path = "Api.swift" ∨ path = "mobile/Api.swift" := by
        simpa [options, Options.destinations] using hpath
      · obtain rfl := Option.some.inj (houtput.symm.trans hplace)
        decide
      · obtain rfl := Option.some.inj (hmobile.symm.trans hplace)
        decide
    · intro path hpath
      obtain rfl := Option.some.inj hpath
      decide
  exact ⟨hapart, run_ending hapart⟩

/-- The second destination is a directory: the run fails, and yet there is a new file. -/
theorem run_halfway :
    let options : Options :=
      { schema := "schema.json", functions := "functions", output := "Api.swift",
        mobile := some "mobile" }
    (run sampleTree options).1.toOption = none ∧
      sampleTree.file? ["Api.swift"] = none ∧
      ((run sampleTree options).2.file? ["Api.swift"]).isSome := by
  intro options
  refine ⟨?_, by decide, ?_⟩
  · decide +kernel
  · decide +kernel

end ClientBindings
