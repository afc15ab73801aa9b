import ClientBindings.Proofs.Client.Links
import ClientBindings.Proofs.Generate.Destinations
import ClientBindings.Proofs.Source.Locality

/-!
# Provenance of exported names

Where the exported names of a source come from, whatever the source is: brackets may be open or
closed too often, and statements may be cut off anywhere.

* `Pieces`: what a text is cut into. Every reader of this folder hands on pieces of its text.
* `NamedIn`: an identifier that stands in a text. `mem_exportsOf` is the run through all readers,
  statements and lists alike.
* `ShownIn`: a name that stands in a source outside of its comments and literals. A masked
  character is a blank or a line feed, and no identifier has one.
* `exportedNames_shown`: exported names are different, are identifiers, and are shown; so the
  constants of a run have identifiers for names.
-/

namespace ClientBindings

namespace Source

/-! ## Pieces of a text -/

theorem trim_isInfix (text : List Char) : Text.trim text <:+: text :=
  (Text.trimEnd_prefix (Text.trimStart text)).isInfix.trans (Text.trimStart_suffix text).isInfix

/-- Pieces that a text is cut into: the first one is its start. -/
inductive Pieces (text : List Char) : List (List Char) → Prop
  | mk {first : List Char} {others : List (List Char)} : first <+: text →
      (∀ piece ∈ others, piece <:+: text) → Pieces text (first :: others)

namespace Pieces

variable {text : List Char} {pieces : List (List Char)}

theorem isInfix (h : Pieces text pieces) : ∀ piece ∈ pieces, piece <:+: text := by
  cases h with
  | mk hfirst hothers => exact List.forall_mem_cons.mpr ⟨hfirst.isInfix, hothers⟩

/-- A character goes to the first piece. -/
theorem consFirst (h : Pieces text pieces) (c : Char) :
    Pieces (c :: text) (Text.consFirst c pieces) := by
  cases h with
  | mk hfirst hothers =>
    refine .mk (List.cons_prefix_cons.mpr ⟨rfl, hfirst⟩) fun piece hpiece => ?_
    exact (hothers piece hpiece).trans (List.suffix_cons c text).isInfix

/-- A new piece begins past a separator. -/
theorem separator (h : Pieces text pieces) (c : Char) : Pieces (c :: text) ([] :: pieces) :=
  .mk List.nil_prefix fun piece hpiece =>
    (h.isInfix piece hpiece).trans (List.suffix_cons c text).isInfix

end Pieces

theorem pieces_splitTopFrom (separator : Char) (depth : Int) (text : List Char) :
    Pieces text (splitTopFrom separator depth text) := by
  induction text generalizing depth with
  | nil => exact .mk List.nil_prefix (by simp)
  | cons c text ih =>
    rw [splitTopFrom]
    split
    · exact (ih 0).separator c
    · exact (ih _).consFirst c

theorem pieces_declaratorsFrom (depth : Int) (part : DeclaratorPart) (last : Option Char)
    (text : List Char) : Pieces text (declaratorsFrom depth part last text) := by
  induction text generalizing depth part last with
  | nil => exact .mk List.nil_prefix (by simp)
  | cons c text ih =>
    rw [declaratorsFrom]
    split
    · exact (ih ..).consFirst c
    · split
      · exact (ih ..).consFirst c
      · split
        · exact (ih ..).separator c
        · exact (ih ..).consFirst c

theorem cutTopFrom?_eq_some {separator : Char} {depth : Int} {text before past : List Char}
    (h : cutTopFrom? separator depth text = some (before, past)) :
    text = before ++ separator :: past := by
  induction text generalizing depth before with
  | nil => cases h
  | cons c text ih =>
    rw [cutTopFrom?] at h
    split at h
    next hc =>
      obtain ⟨rfl, rfl⟩ := Prod.mk.inj (Option.some.inj h)
      rw [hc.1]
      rfl
    next =>
      obtain ⟨⟨before, past⟩, hcut, heq⟩ := Option.map_eq_some_iff.mp h
      obtain ⟨rfl, rfl⟩ := Prod.mk.inj heq
      exact congrArg (c :: ·) (ih hcut)

theorem closeFrom?_isPrefix {depth : Nat} {text group : List Char}
    (h : closeFrom? depth text = some group) : group <+: text := by
  induction text generalizing depth group with
  | nil => cases h
  | cons c text ih =>
    have hcons {depth : Nat} (h : (closeFrom? depth text).map (c :: ·) = some group) :
        group <+: c :: text := by
      obtain ⟨group, hgroup, rfl⟩ := Option.map_eq_some_iff.mp h
      exact List.cons_prefix_cons.mpr ⟨rfl, ih hgroup⟩
    rw [closeFrom?] at h
    split at h
    · exact hcons h
    · split at h
      · split at h
        · obtain rfl := Option.some.inj h
          exact List.cons_prefix_cons.mpr ⟨rfl, List.nil_prefix⟩
        · exact hcons h
      · exact hcons h

theorem statementFrom_isPrefix (depth : Nat) (text : List Char) :
    statementFrom depth text <+: text := by
  induction text generalizing depth with
  | nil => exact List.nil_prefix
  | cons c text ih =>
    have hcons (depth : Nat) : c :: statementFrom depth text <+: c :: text :=
      List.cons_prefix_cons.mpr ⟨rfl, ih depth⟩
    rw [statementFrom.eq_def]
    dsimp only
    split
    · exact hcons _
    · split
      · split
        · exact List.nil_prefix
        · exact hcons _
      · split
        · exact List.nil_prefix
        · exact hcons _

theorem between?_isInfix {opening closing : Char} {text inner : List Char}
    (h : between? opening closing text = some inner) : inner <:+: text := by
  cases text with
  | nil => cases h
  | cons c text =>
    rw [between?] at h
    split at h
    · obtain rfl := Option.some.inj h
      exact (List.dropLast_prefix text).isInfix.trans (List.suffix_cons c text).isInfix
    · cases h

theorem withoutDefault_isInfix (text : List Char) : withoutDefault text <:+: text := by
  rw [withoutDefault]
  split
  next before past hcut =>
    obtain rfl := cutTopFrom?_eq_some hcut
    exact (trim_isInfix before).trans (List.prefix_append _ _).isInfix
  next => exact trim_isInfix text

theorem before_isPrefix (mark text : List Char) : Text.before mark text <+: text := by
  induction text with
  | nil => exact List.nil_prefix
  | cons c text ih =>
    rw [Text.before]
    split
    · exact List.nil_prefix
    · exact List.cons_prefix_cons.mpr ⟨rfl, ih⟩

theorem afterLast?_isSuffix {mark text past : List Char}
    (h : Text.afterLast? mark text = some past) : past <:+ text := by
  induction text generalizing past with
  | nil => cases h
  | cons c text ih =>
    rw [Text.afterLast?] at h
    split at h
    next found hfound =>
      obtain rfl := Option.some.inj h
      exact (ih hfound).trans (List.suffix_cons c text)
    next =>
      split at h
      · obtain rfl := Option.some.inj h
        exact List.drop_suffix _ _
      · cases h

theorem declaratorTarget_isInfix (declarator : List Char) :
    declaratorTarget declarator <:+: declarator := by
  have htrim := trim_isInfix declarator
  rw [declaratorTarget]
  cases htext : Text.trim declarator with
  | nil => exact List.nil_infix
  | cons c text =>
    rw [htext] at htrim
    dsimp only
    split
    · cases hgroup : group? (c :: text) with
      | none => exact htrim
      | some group => exact (closeFrom?_isPrefix hgroup).isInfix.trans htrim
    · exact (List.takeWhile_prefix _).isInfix.trans htrim

/-! ## Names in a text -/

/-- An identifier that stands in a text. -/
structure NamedIn (text : List Char) (name : String) : Prop where
  identifier : isIdentifier name.toList
  within : name.toList <:+: text

theorem NamedIn.mono {piece text : List Char} {name : String} (h : NamedIn piece name)
    (hpiece : piece <:+: text) : NamedIn text name :=
  ⟨h.identifier, h.within.trans hpiece⟩

theorem namedIn_ofList {text : List Char} (h : isIdentifier text) :
    NamedIn text (String.ofList text) where
  identifier := by rwa [String.toList_ofList]
  within := by simp [String.toList_ofList]

/-- The names of an entry stand in it, if those of every pattern stand in the pattern. -/
theorem namedIn_entry {kind : Kind} {fuel : Nat} {entry : List Char} {name : String}
    (hpattern : ∀ text, name ∈ patternNamesFrom fuel text → NamedIn text name)
    (h : name ∈ entryNames kind fuel entry) : NamedIn entry name := by
  have htrim := trim_isInfix entry
  cases kind with
  | object =>
    dsimp only [entryNames] at h
    split at h
    · simp at h
    · split at h
      next rest hrest =>
        exact (hpattern _ h).mono ((dropMark?_isSuffix hrest).isInfix.trans htrim)
      next =>
        split at h
        next key target hcut =>
          have hentry := cutTopFrom?_eq_some hcut
          have htarget : target <:+: Text.trim entry := by
            rw [hentry]
            exact (List.suffix_append_of_suffix (List.suffix_cons _ _)).isInfix
          exact (hpattern _ h).mono ((withoutDefault_isInfix target).trans (htarget.trans htrim))
        next =>
          have hbefore := before_isPrefix asWord (withoutDefault (Text.trim entry))
          exact (hpattern _ h).mono
            (hbefore.isInfix.trans ((withoutDefault_isInfix _).trans htrim))
  | array =>
    dsimp only [entryNames] at h
    have htarget : (dropMark? id restDots (Text.trim entry)).getD (Text.trim entry) <:+:
        Text.trim entry := by
      cases hrest : dropMark? id restDots (Text.trim entry) with
      | none => exact List.infix_rfl
      | some rest => exact (dropMark?_isSuffix hrest).isInfix
    exact (hpattern _ h).mono ((withoutDefault_isInfix _).trans (htarget.trans htrim))

/-- The names of a pattern stand in it. -/
theorem namedIn_pattern {fuel : Nat} {text : List Char} {name : String}
    (h : name ∈ patternNamesFrom fuel text) : NamedIn text name := by
  induction fuel generalizing text with
  | zero => cases h
  | succ fuel ih =>
    have hentries (kind : Kind) {inner : List Char} (hinner : inner <:+: Text.trim text)
        (h : name ∈ (splitTop ',' inner).flatMap (entryNames kind fuel)) : NamedIn text name := by
      obtain ⟨entry, hentry, hname⟩ := List.mem_flatMap.mp h
      have hpiece := (pieces_splitTopFrom ',' 0 inner).isInfix entry hentry
      exact (namedIn_entry (fun _ => ih) hname).mono
        (hpiece.trans (hinner.trans (trim_isInfix text)))
    dsimp only [patternNamesFrom] at h
    split at h
    next inner hobject => exact hentries .object (between?_isInfix hobject) h
    next =>
      split at h
      next inner harray => exact hentries .array (between?_isInfix harray) h
      next =>
        split at h
        next hidentifier =>
          obtain rfl := List.mem_singleton.mp h
          exact (namedIn_ofList hidentifier).mono (trim_isInfix text)
        next => cases h

theorem namedIn_statement {text : List Char} {name : String}
    (h : name ∈ boundNames (statement text)) : NamedIn text name := by
  obtain ⟨declarator, hdeclarator, hname⟩ := List.mem_flatMap.mp h
  have hpiece := (pieces_declaratorsFrom 0 .target none _).isInfix declarator hdeclarator
  have hstatement := (statementFrom_isPrefix 0 text).isInfix
  exact (namedIn_pattern hname).mono
    ((declaratorTarget_isInfix declarator).trans (hpiece.trans hstatement))

theorem namedIn_listEntry {entry : List Char} {name : String}
    (h : listEntryName? entry = some name) : NamedIn entry name := by
  have htrim := trim_isInfix entry
  have hread {text : List Char} (htext : text <:+: Text.trim entry)
      (h : (if isIdentifier text then some (String.ofList text) else none) = some name) :
      NamedIn entry name := by
    split at h
    next hidentifier =>
      obtain rfl := Option.some.inj h
      exact (namedIn_ofList hidentifier).mono (htext.trans htrim)
    next => cases h
  dsimp only [listEntryName?] at h
  split at h
  · cases h
  · split at h
    next renamed hrenamed =>
      exact hread ((trim_isInfix renamed).trans (afterLast?_isSuffix hrenamed).isInfix) h
    next => exact hread List.infix_rfl h

theorem exportList?_isInfix {last : Option Char} {text list : List Char} {n : Nat}
    (h : exportList? last text = some (list, n)) : list <:+: text := by
  simp only [exportList?, Option.bind_eq_bind, Option.bind_eq_some_iff] at h
  obtain ⟨past, hword, rest, hbrace, _, -, h⟩ := h
  obtain ⟨rfl, -⟩ := Prod.mk.inj (Option.some.inj h)
  have hrest : rest <:+ skipBlanks id past := dropMark?_isSuffix hbrace
  have hblanks : skipBlanks id past <:+ past := List.dropWhile_suffix _
  exact (List.takeWhile_prefix _).isInfix.trans
    (hrest.trans (hblanks.trans (exportWord?_suffix hword))).isInfix

/-- Every exported name is an identifier of the text, in statements and in lists alike. -/
theorem namedIn_exportsOf {text : List Char} {name : String} (h : name ∈ exportsOf text) :
    NamedIn text name := by
  rcases List.mem_append.mp h with h | h
  · obtain ⟨rest, hrest, hname⟩ := List.mem_flatMap.mp h
    obtain ⟨last, part, n, hpart, hfind⟩ := exists_of_mem_scanFrom hrest
    obtain ⟨-, opening, -, rfl, -⟩ := exportBinding?_eq_some.mp hfind
    exact (namedIn_statement hname).mono ((List.suffix_append opening rest).trans hpart).isInfix
  · obtain ⟨list, hlist, hname⟩ := List.mem_flatMap.mp h
    obtain ⟨entry, hentry, hname⟩ := List.mem_filterMap.mp hname
    obtain ⟨last, part, n, hpart, hfind⟩ := exists_of_mem_scanFrom hlist
    have hpiece := (pieces_splitTopFrom ',' 0 list).isInfix entry hentry
    exact (namedIn_listEntry hname).mono
      (hpiece.trans ((exportList?_isInfix hfind).trans hpart.isInfix))

/-! ## Names in a source -/

/-- A name that stands in a source, with no character of it in a comment or a literal. -/
def ShownIn (source name : String) : Prop :=
  ∃ before cells after : List Cell, mask source.toList = before ++ (cells ++ after) ∧
    cells.map Cell.char = name.toList ∧ ∀ cell ∈ cells, cell.hidden = false

theorem isWord_of_mem_identifier {text : List Char} (h : isIdentifier text) :
    ∀ c ∈ text, Text.isWord c := by
  cases text with
  | nil => cases h
  | cons c rest =>
    rw [isIdentifier, Bool.and_eq_true, Bool.or_eq_true, List.all_eq_true] at h
    refine List.forall_mem_cons.mpr ⟨?_, h.2⟩
    rcases h.1 with hc | hc
    · have halphanum : c.isAlphanum := by simp [Char.isAlphanum, hc]
      have hascii : c.toNat < 128 := by
        rcases (isAlphanum_iff c).mp halphanum with hc | hc | hc <;> omega
      rw [Text.isWord_ascii hascii, halphanum, Bool.true_or]
    · obtain rfl := beq_iff_eq.mp hc
      decide

/-- A cell that shows a character of a word shows its own: what is hidden is shown as a blank. -/
theorem hidden_of_isWord {cell : Cell} (h : Text.isWord cell.shown) :
    cell.hidden = false ∧ cell.shown = cell.char := by
  have hline : cell.char = '\n' → cell.shown = '\n' := by
    intro hchar
    rw [Cell.shown, if_neg fun h => h.2 hchar, hchar]
  cases hhidden : cell.hidden with
  | false => exact ⟨rfl, if_neg fun h => by simp [hhidden] at h⟩
  | true =>
    by_cases hchar : cell.char = '\n'
    · rw [hline hchar] at h
      exact absurd h (by decide)
    · rw [Cell.shown, if_pos ⟨hhidden, hchar⟩] at h
      exact absurd h (by decide)

theorem NamedIn.shownIn {source name : String} (h : NamedIn (shownText source) name) :
    ShownIn source name := by
  obtain ⟨before, after, htext⟩ := h.within
  obtain ⟨start, rest, hmask, hstart, hrest⟩ := List.map_eq_append_iff.mp htext.symm
  obtain ⟨first, cells, rfl, hfirst, hcells⟩ := List.map_eq_append_iff.mp hstart
  have hword : ∀ cell ∈ cells, Text.isWord cell.shown := by
    intro cell hcell
    refine isWord_of_mem_identifier h.identifier _ ?_
    rw [← hcells]
    exact List.mem_map_of_mem hcell
  refine ⟨first, cells, rest, by rw [hmask, List.append_assoc], ?_, fun cell hcell => ?_⟩
  · rw [← hcells]
    exact List.map_congr_left fun cell hcell => (hidden_of_isWord (hword cell hcell)).2.symm
  · exact (hidden_of_isWord (hword cell hcell)).1

/-- The exported names of any source are different, are identifiers, and stand in the source outside
of comments and literals. -/
theorem exportedNames_shown (source : String) : (exportedNames source).Nodup ∧
    ∀ name ∈ exportedNames source, isIdentifier name.toList ∧ ShownIn source name := by
  refine ⟨firstSeen_nodup _, fun name hname => ?_⟩
  have hnamed := namedIn_exportsOf (mem_firstSeen.mp hname)
  exact ⟨hnamed.identifier, hnamed.shownIn⟩

end Source

/-! ## Constants of a run -/

theorem Module.ofFile?_exports {model : Model} {file : SourceFile} {module : Module}
    (h : Module.ofFile? model file = some module) :
    module.exports = Source.exportedNames file.text := by
  rw [Module.ofFile?] at h
  dsimp only at h
  split at h
  · cases h
  · obtain rfl := Option.some.inj h
    rfl

/-- The constants of a run have the exported names of its sources. -/
theorem generate_constants {tree : Tree} {options : Options} {generated : Generated}
    (h : generate tree options = .ok generated) : ∃ sources,
      readSources tree options.functions SourceFile.isModule = .ok sources ∧
      ∀ api ∈ generated.full.apis, ∃ file ∈ sources,
        api.constants.map Prod.fst = Source.exportedNames file.text := by
  obtain ⟨_, model, sources, config, -, -, hsources, -, hfull, -⟩ := generate_eq_ok h
  refine ⟨sources, hsources, fun api hapi => ?_⟩
  rw [hfull] at hapi
  obtain ⟨module, hmodule, rfl⟩ := List.mem_map.mp hapi
  obtain ⟨file, hfile, hmodule⟩ := List.mem_filterMap.mp hmodule
  exact ⟨file, hfile, (ApiDecl.constants_names _ module).trans (Module.ofFile?_exports hmodule)⟩

/-- **Provenance.** The exported names of every source, malformed or not, are different identifiers
that stand in it outside of comments and literals. So every constant that a run declares has an
identifier for a name. -/
theorem exportedNames_provenance :
    (∀ source, (Source.exportedNames source).Nodup ∧ ∀ name ∈ Source.exportedNames source,
      Source.isIdentifier name.toList ∧ Source.ShownIn source name) ∧
    ∀ tree options generated, generate tree options = .ok generated →
      ∀ api ∈ generated.full.apis, ∀ constant ∈ api.constants,
        Source.isIdentifier constant.1.toList := by
  refine ⟨Source.exportedNames_shown, ?_⟩
  intro tree options generated h api hapi constant hconstant
  obtain ⟨sources, -, hsources⟩ := generate_constants h
  obtain ⟨file, -, hnames⟩ := hsources api hapi
  have hname : constant.1 ∈ Source.exportedNames file.text :=
    hnames ▸ List.mem_map_of_mem hconstant
  exact ((Source.exportedNames_shown file.text).2 constant.1 hname).1

/-- A comment and a literal with statements in them, a bracket that closes none, a name twice, and a
list that is not closed. -/
theorem exportedNames_provenance_of_malformed :
    let source := "// export const ghost = 1\n" ++
      "export const \x7b a: [b], b \x7d = 'export const c')\nexport \x7b b"
    let tree : Tree :=
      { root := "/work"
        nodes := [(["schema.json"], .file (.text "\x7b\x7d")), (["convex"], .directory),
          (["convex", "blog.ts"], .file (.text source))] }
    let options : Options :=
      { schema := "schema.json", functions := "convex", output := "Api.swift" }
    Source.exportedNames source = ["b"] ∧ Source.isIdentifier "b".toList ∧
      Source.ShownIn source "b" ∧ ∃ generated, generate tree options = .ok generated ∧
        generated.full.apis.map (·.constants) = [[("b", "blog:b")]] ∧
        ∀ api ∈ generated.full.apis, ∀ constant ∈ api.constants,
          Source.isIdentifier constant.1.toList := by
  intro source tree options
  have hnames : Source.exportedNames source = ["b"] := by decide +kernel
  have hname := (exportedNames_provenance.1 source).2 "b" (by simp [hnames])
  have hapis : (generate tree options).toOption.map (·.full.apis.map (·.constants)) =
      some [[("b", "blog:b")]] := by decide +kernel
  refine ⟨hnames, hname.1, hname.2, ?_⟩
  cases hgenerate : generate tree options with
  | error error => simp [hgenerate, Except.toOption] at hapis
  | ok generated =>
    rw [hgenerate] at hapis
    exact ⟨generated, rfl, Option.some.inj hapis,
      exportedNames_provenance.2 tree options generated hgenerate⟩

end ClientBindings
