import ClientBindings.Proofs.Check.TableEntries
import ClientBindings.Proofs.Source.Boundary
import Mathlib.Data.List.Basic
import Mathlib.Data.Set.List

/-!
# Declared tables

What is read of a schema source, by the grammar of its table maps.

* `OpensMap`, `blockBody_closed`: where a table map opens, and the text between its braces.
* `SchemaText`, `MapsFilled`: a text with its table maps and the names of its child tables; any text
  whose maps have entries up to their closing braces.
* `declaredTables_exact`: the tables of the maps, builder by builder, then the child tables. In the
  arguments of a table every field `name: object(…)` is read as a table, too.
-/

namespace ClientBindings.Check

open Source

/-! ## Openings of maps -/

/-- The opening `builder({` of a table map; found are the builder and the text past the brace. -/
inductive OpensMap : Option Char → List Char → List Char → String × List Char → Prop
  | mk {last : Option Char} {builder : String} {blanks rest : List Char} : outsideWord id last →
      builder ∈ mapBuilders → Blanks blanks →
      OpensMap last (builder.toList ++ '(' :: (blanks ++ ['\x7b'])) rest (builder, rest)

/-- No builder starts with another one. -/
theorem mapBuilders_apart : ∀ m ∈ mapBuilders.map fun name => (name, name),
    ∀ m' ∈ mapBuilders.map fun name => (name, name), m.1.toList <+: m'.1.toList → m = m' := by
  decide

theorem dropAny?_builder {builder : String} {text rest : List Char} :
    dropAny? id text (mapBuilders.map fun name => (name, name)) = some (builder, rest) ↔
      builder ∈ mapBuilders ∧ text = builder.toList ++ rest := by
  rw [dropAny?_eq_some mapBuilders_apart]
  constructor
  · rintro ⟨mark, start, hmem, hstart, rfl⟩
    obtain ⟨name, hname, heq⟩ := List.mem_map.mp hmem
    obtain ⟨rfl, rfl⟩ := Prod.mk.inj heq
    rw [List.map_id] at hstart
    exact ⟨hname, by rw [hstart]⟩
  · rintro ⟨hbuilder, rfl⟩
    exact ⟨builder, _, List.mem_map.mpr ⟨builder, hbuilder, rfl⟩, List.map_id _, rfl⟩

theorem OpensMap.of_mapOpening? {last : Option Char} {text : List Char}
    {found : String × List Char} {n : Nat} (h : mapOpening? last text = some (found, n)) :
    ∃ opening rest, OpensMap last opening rest found ∧ text = opening ++ rest ∧
      n = opening.length := by
  rw [mapOpening?] at h
  split at h
  next hlast =>
    simp only [Option.bind_eq_bind, Option.bind_eq_some_iff] at h
    obtain ⟨⟨builder, pastBuilder⟩, hdrop, pastParen, hparen, rest, hbrace, hup⟩ := h
    obtain ⟨hbuilder, htext⟩ := dropAny?_builder.mp hdrop
    obtain ⟨blanks, hblanks, hpast⟩ := exists_skipBlanks pastParen
    rw [dropMark?_eq_some hbrace] at hpast
    have hpastBuilder : pastBuilder = ['('] ++ pastParen := dropMark?_eq_some hparen
    rw [hpastBuilder, hpast] at htext
    let opening := builder.toList ++ '(' :: (blanks ++ ['\x7b'])
    have htext : text = opening ++ rest := by simpa [opening] using htext
    have hfound : upTo text rest (builder, rest) = (found, n) := Option.some.inj hup
    have hupTo := upTo_append opening rest (builder, rest)
    rw [← htext, hfound] at hupTo
    obtain ⟨rfl, rfl⟩ := Prod.mk.inj hupTo
    exact ⟨opening, rest, .mk hlast hbuilder hblanks, htext, rfl⟩
  next => cases h

theorem OpensMap.mapOpening?_eq {last : Option Char} {opening rest : List Char}
    {found : String × List Char} (h : OpensMap last opening rest found) :
    mapOpening? last (opening ++ rest) = some (found, opening.length) := by
  cases h with
  | @mk builder blanks _ hlast hbuilder hblanks =>
    have htext : builder.toList ++ '(' :: (blanks ++ ['\x7b']) ++ rest =
        builder.toList ++ (['('] ++ (blanks ++ (['\x7b'] ++ rest))) := by simp
    have hbrace : ∀ c ∈ (['\x7b'] ++ rest).head?, Text.isBlank c = false := by
      simp
      decide
    rw [mapOpening?, if_pos hlast, htext, dropAny?_builder.mpr ⟨hbuilder, rfl⟩]
    simp only [Option.bind_eq_bind, Option.bind_some, dropMark?_append,
      skipBlanks_append hblanks hbrace]
    rw [← htext, upTo_append]
    rfl

theorem mapOpening?_finds : Finds mapOpening? OpensMap where
  eq_some last text found n := by
    constructor
    · exact OpensMap.of_mapOpening?
    · rintro ⟨opening, rest, hopens, rfl, rfl⟩
      exact hopens.mapOpening?_eq
  ne_nil last opening rest found hopens := by
    cases hopens
    simp

/-! ## Blocks -/

theorem blockBody_matched {text : List Char} (h : Matched text) (depth : Nat) (rest : List Char) :
    blockBody depth (text ++ rest) = text ++ blockBody depth rest := by
  induction h generalizing depth rest with
  | nil => rfl
  | @char c text hc _ ih =>
    have hopening : c ≠ '\x7b' := (hc.ne_opening (by decide)).symm
    have hclosing : c ≠ '\x7d' := (hc.ne_closing (by decide)).symm
    simp [blockBody, hopening, hclosing, ih]
  | @group o c inner text hpair _ _ ihinner ih =>
    simp only [bracketPairs, List.mem_cons, Prod.mk.injEq, List.not_mem_nil, or_false] at hpair
    rcases hpair with ⟨rfl, rfl⟩ | ⟨rfl, rfl⟩ | ⟨rfl, rfl⟩
    · simp [blockBody, ihinner, ih]
    · simp [blockBody, ihinner, ih]
    · simp [blockBody, ihinner, ih]

/-- The text between two braces. -/
theorem blockBody_closed {body : List Char} (h : Matched body) (rest : List Char) :
    blockBody 0 (body ++ '\x7d' :: rest) = body := by
  simp [blockBody_matched h, blockBody]

/-! ## Schema texts -/

/-- A table map: its builder, the text between its braces, and the text past them. -/
structure TableMap where
  builder : String
  body : List Char
  past : List Char
  entries : List TableEntry
  filled : MapBody body entries

namespace TableMap

/-- The names of the tables. -/
def tables (map : TableMap) : List String := map.entries.map (·.name)

/-- The names of the fields `name: object(…)` in the arguments of the tables. -/
def fields (map : TableMap) : List String := map.entries.flatMap (·.fields)

/-- The names of tables and fields, as they stand in the map. -/
def names (map : TableMap) : List String := map.entries.flatMap TableEntry.names

/-- What is found where the map opens. -/
def opening (map : TableMap) : String × List Char := (map.builder, map.body ++ '\x7d' :: map.past)

end TableMap

/-- Names in the maps, builder by builder. -/
def byBuilder (names : TableMap → List String) (maps : List TableMap) : List String :=
  mapBuilders.flatMap fun builder =>
    (maps.filter fun map => map.builder == builder).flatMap names

/-- A text with its table maps and the names of its child tables, in the order of the text. -/
structure SchemaText (text : List Char) where
  maps : List TableMap
  children : List String
  opens : Occurrences OpensMap none text (maps.map TableMap.opening)
  lists : Occurrences (OpensEntry "child") none text children

namespace SchemaText

variable {text : List Char} (schema : SchemaText text)

/-- The tables: those of the maps, builder by builder, then the child tables. -/
def tables : List String := byBuilder TableMap.tables schema.maps ++ schema.children

/-- The fields `name: object(…)` of tables. -/
def fields : List String := byBuilder TableMap.fields schema.maps

/-- What is read: the tables of the maps, each before its fields, then the child tables. -/
def names : List String := byBuilder TableMap.names schema.maps ++ schema.children

end SchemaText

/-- Every table map that opens in the text has entries up to its closing brace. -/
def MapsFilled (text : List Char) : Prop :=
  ∀ before opening rest builder, text = before ++ (opening ++ rest) →
    OpensMap before.getLast? opening rest (builder, rest) →
    ∃ body entries past, MapBody body entries ∧ rest = body ++ '\x7d' :: past

/-- Whatever else stands in the text, its maps and its child tables can be listed. -/
theorem MapsFilled.exists_schemaText {text : List Char} (h : MapsFilled text) :
    Nonempty (SchemaText text) := by
  have hopens := mapOpening?_finds.occurrences_scanFrom none text
  have hmaps : scan mapOpening? text ∈ Set.range (List.map TableMap.opening) := by
    rw [Set.range_list_map]
    rintro ⟨builder, rest⟩ hfound
    obtain ⟨before, opening, past, htext, hopening⟩ := hopens.exists_opening _ hfound
    rw [lastOf_eq, Option.or_none] at hopening
    obtain rfl : rest = past := by
      cases hopening
      rfl
    obtain ⟨body, entries, past, hbody, rfl⟩ := h before opening rest builder htext hopening
    exact ⟨⟨builder, body, past, entries, hbody⟩, rfl⟩
  obtain ⟨maps, hmaps⟩ := hmaps
  have hopens : Occurrences OpensMap none text (maps.map TableMap.opening) := by
    rw [hmaps]
    exact hopens
  exact ⟨maps, _, hopens, openedChild_finds.occurrences_scanFrom none text⟩

/-! ## Declared tables -/

section ByBuilder

variable {maps : List TableMap} {name : String}

theorem mem_byBuilder {names : TableMap → List String} : name ∈ byBuilder names maps ↔
    ∃ map ∈ maps, map.builder ∈ mapBuilders ∧ name ∈ names map := by
  simp only [byBuilder, List.mem_flatMap, List.mem_filter, beq_iff_eq]
  constructor
  · rintro ⟨builder, hbuilder, map, ⟨hmap, rfl⟩, hname⟩
    exact ⟨map, hmap, hbuilder, hname⟩
  · rintro ⟨map, hmap, hbuilder, hname⟩
    exact ⟨map.builder, hbuilder, map, ⟨hmap, rfl⟩, hname⟩

theorem TableMap.mem_names {map : TableMap} :
    name ∈ map.names ↔ name ∈ map.tables ∨ name ∈ map.fields := by
  simp only [names, tables, fields, List.mem_flatMap, List.mem_map, TableEntry.names,
    List.mem_cons]
  constructor
  · rintro ⟨entry, hentry, rfl | hname⟩
    · exact .inl ⟨entry, hentry, rfl⟩
    · exact .inr ⟨entry, hentry, hname⟩
  · rintro (⟨entry, hentry, rfl⟩ | ⟨entry, hentry, hname⟩)
    · exact ⟨entry, hentry, .inl rfl⟩
    · exact ⟨entry, hentry, .inr hname⟩

/-- Without fields, the names in a map are those of its tables. -/
theorem TableMap.names_eq {map : TableMap} (h : map.fields = []) : map.names = map.tables := by
  rw [fields, List.flatMap_eq_nil_iff] at h
  rw [names, tables, List.map_eq_flatMap]
  exact List.flatMap_congr fun entry hentry => by rw [TableEntry.names, h entry hentry]

end ByBuilder

namespace SchemaText

variable {text : List Char} (schema : SchemaText text) {name : String}

theorem mem_names : name ∈ schema.names ↔ name ∈ schema.tables ∨ name ∈ schema.fields := by
  have hmaps : name ∈ byBuilder TableMap.names schema.maps ↔
      name ∈ byBuilder TableMap.tables schema.maps ∨ name ∈ schema.fields := by
    simp only [fields, mem_byBuilder, TableMap.mem_names, and_or_left, exists_or]
  rw [names, tables, List.mem_append, List.mem_append, hmaps, or_right_comm]

theorem names_eq (h : schema.fields = []) : schema.names = schema.tables := by
  rw [fields, byBuilder, List.flatMap_eq_nil_iff] at h
  rw [names, tables, byBuilder, byBuilder]
  congr 1
  refine List.flatMap_congr fun builder hbuilder => List.flatMap_congr fun map hmap => ?_
  exact TableMap.names_eq (List.flatMap_eq_nil_iff.mp (h builder hbuilder) map hmap)

end SchemaText

theorem TableMap.scan_body (map : TableMap) :
    scan (openedTable? "object") (blockBody 0 map.opening.2) = map.names := by
  rw [opening, blockBody_closed map.filled.matched]
  exact openedObject_finds.scan_iff.mp (map.filled.finds none)

/-- What is read of a schema source. -/
theorem declaredTables_eq {source : String} (schema : SchemaText (shownText source)) :
    declaredTables source = firstSeen schema.names := by
  have hmaps : mapTables (shownText source) = fun builder =>
      (schema.maps.filter fun map => map.builder == builder).flatMap TableMap.names := by
    funext builder
    rw [mapTables, mapOpening?_finds.scan_iff.mp schema.opens, List.filter_map, List.flatMap_map]
    exact List.flatMap_congr fun map _ => map.scan_body
  have hchildren : scan (openedTable? "child") (shownText source) = schema.children :=
    openedChild_finds.scan_iff.mp schema.lists
  rw [declaredTables, hmaps, hchildren]
  rfl

/-- **Declared tables.** A source is a schema text, whatever code it has, if its table maps have
entries up to their closing braces. Of a schema text the tables of the maps are read, builder by
builder and in the order of the source, each followed by the fields `name: object(…)` in its
arguments, and then the child tables, all without repetitions. The tables alone are read where no
argument has such a field, and nothing but tables is read exactly where every such field has the
name of a table. -/
theorem declaredTables_exact (source : String) :
    (MapsFilled (shownText source) → Nonempty (SchemaText (shownText source))) ∧
      ∀ schema : SchemaText (shownText source),
        declaredTables source = firstSeen schema.names ∧ (declaredTables source).Nodup ∧
        (schema.fields = [] → declaredTables source = firstSeen schema.tables) ∧
        (schema.fields ⊆ schema.tables ↔
          ∀ name, name ∈ declaredTables source ↔ name ∈ schema.tables) := by
  refine ⟨MapsFilled.exists_schemaText, fun schema => ?_⟩
  rw [declaredTables_eq schema]
  refine ⟨rfl, firstSeen_nodup _, fun h => by rw [schema.names_eq h], ?_⟩
  simp only [mem_firstSeen, schema.mem_names]
  constructor
  · exact fun hsub name => ⟨fun hname => hname.elim id (@hsub name), .inl⟩
  · exact fun hiff name hfield => (hiff name).mp (.inr hfield)

/-- Two maps with a table in common, builders against their order, and a child table. -/
theorem declaredTables_exact_of_sharedTable :
    let source := "makeBase(\x7ba:object(\x7bn:f([])\x7d),\x7d);" ++
      "makeOwned(\x7bb : object(), a:object()\x7d);\x7br:child(\x7b\x7d)\x7d"
    ∃ schema : SchemaText (shownText source), schema.tables = ["b", "a", "a", "r"] ∧
      schema.fields = [] ∧ declaredTables source = ["b", "a", "r"] := by
  intro source
  -- `a:object({n:f([])})`
  let base : TableEntry :=
    { name := String.ofList ['a']
      opening := ['a'] ++ ([] ++ ':' :: ([] ++ ("object".toList ++ ['('])))
      arguments := '\x7b' ::
        ((['n', ':', 'f'] ++ '(' :: (('[' :: ([] ++ [']'])) ++ [')'])) ++ ['\x7d'])
      fields := []
      opens := .mk (by decide) (List.all_eq_true.mp (by decide)) .nil .nil
      matched := .group (by decide) ((Matched.of_all (by decide)).append
        (.group (by decide) (.group (by decide) .nil .nil) .nil)) .nil
      lists := openedObject_finds.scan_iff.mpr (by decide +kernel) }
  -- `b : object()` and `a:object()`
  let first : TableEntry :=
    { name := String.ofList ['b']
      opening := ['b'] ++ ([' '] ++ ':' :: ([' '] ++ ("object".toList ++ ['('])))
      arguments := []
      fields := []
      opens := .mk (by decide) (List.all_eq_true.mp (by decide)) (List.forall_mem_singleton.mpr rfl)
        (List.forall_mem_singleton.mpr rfl)
      matched := .nil
      lists := .nil }
  let second : TableEntry :=
    { name := String.ofList ['a']
      opening := ['a'] ++ ([] ++ ':' :: ([] ++ ("object".toList ++ ['('])))
      arguments := []
      fields := []
      opens := .mk (by decide) (List.all_eq_true.mp (by decide)) .nil .nil
      matched := .nil
      lists := .nil }
  let maps : List TableMap :=
    [{ builder := "makeBase"
       body := [] ++ (base.text ++ ([] ++ ',' :: []))
       past := ");makeOwned(\x7bb : object(), a:object()\x7d);\x7br:child(\x7b\x7d)\x7d".toList
       entries := [base]
       filled := .more base .nil .nil (.none .nil) },
      { builder := "makeOwned"
        body := [] ++ (first.text ++ ([] ++ ',' :: ([' '] ++ (second.text ++ []))))
        past := ");\x7br:child(\x7b\x7d)\x7d".toList
        entries := [first, second]
        filled := .more first .nil .nil
          (.last second (List.forall_mem_singleton.mpr rfl) .nil) }]
  let schema : SchemaText (shownText source) :=
    { maps
      children := ["r"]
      opens := mapOpening?_finds.scan_iff.mpr (by decide +kernel)
      lists := openedChild_finds.scan_iff.mpr (by decide +kernel) }
  have hfields : schema.fields = [] := by decide +kernel
  have htables := ((declaredTables_exact source).2 schema).2.2.1 hfields
  exact ⟨schema, by decide +kernel, hfields, htables.trans (by decide +kernel)⟩

/-- A field that is an object is read as a table. -/
theorem declaredTables_field :
    let source := "makeOwned(\x7bblog:object(\x7bmeta:object(\x7b\x7d)\x7d)\x7d)"
    ∃ schema : SchemaText (shownText source), schema.tables = ["blog"] ∧
      declaredTables source = ["blog", "meta"] := by
  intro source
  let blog : TableEntry :=
    { name := String.ofList ['b', 'l', 'o', 'g']
      opening := ['b', 'l', 'o', 'g'] ++ ([] ++ ':' :: ([] ++ ("object".toList ++ ['('])))
      arguments := '\x7b' :: ((['m', 'e', 't', 'a', ':', 'o', 'b', 'j', 'e', 'c', 't'] ++
        '(' :: (('\x7b' :: ([] ++ ['\x7d'])) ++ [')'])) ++ ['\x7d'])
      fields := ["meta"]
      opens := .mk (by decide) (List.all_eq_true.mp (by decide)) .nil .nil
      matched := .group (by decide) ((Matched.of_all (by decide)).append
        (.group (by decide) (.group (by decide) .nil .nil) .nil)) .nil
      lists := openedObject_finds.scan_iff.mpr (by decide +kernel) }
  let owned : TableMap :=
    { builder := "makeOwned"
      body := [] ++ (blog.text ++ [])
      past := [')']
      entries := [blog]
      filled := .last blog .nil .nil }
  let schema : SchemaText (shownText source) :=
    { maps := [owned]
      children := []
      opens := mapOpening?_finds.scan_iff.mpr (by decide +kernel)
      lists := openedChild_finds.scan_iff.mpr (by decide +kernel) }
  exact ⟨schema, by decide +kernel, by decide +kernel⟩

end ClientBindings.Check
