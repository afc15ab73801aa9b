import ClientBindings.Proofs.Schema.Documents
import Mathlib.Data.List.Permutation
import Mathlib.Logic.Relation

/-!
# Repeated names

A JSON object may repeat its keys, and fields may be put under a name again. What comes of it does
not depend on how often.

* `Entries.LastValue`, `Entries.Collects`: the law. A name keeps its first place and takes its last
  value. `Entries.collects_ofPairs`: entries put one after the other obey it, and no other entries
  do (`Entries.Collects.eq`).
* `Json.tableOf?_eq_some_iff`: an object is read exactly if all of its members are, by that law.
* `Validator.Contains`: the nodes in a node, at every depth. `Validator.IsRead.part`: what stands in
  a node of a document is read of the document, too, so its fields have distinct names.
* `Schema.repeatedNames_settled`: the law for objects and for fields, and the names of a schema.
-/

namespace ClientBindings

namespace Entries

variable {α : Type} {name : String} {value : α} {entries others : Entries α}
  {pairs : List (String × α)}

/-! ## First places and last values -/

/-- The last one of the pairs with the name has the value. -/
def LastValue (pairs : List (String × α)) (name : String) (value : α) : Prop :=
  ∃ before after, pairs = before ++ (name, value) :: after ∧ name ∉ names after

/-- What pairs come to when a repeated name keeps its first place and takes its last value. -/
structure Collects (entries : Entries α) (pairs : List (String × α)) : Prop where
  distinct : entries.names.Nodup
  mem_names : ∀ name, name ∈ entries.names ↔ name ∈ names pairs
  ordered : entries.names.Pairwise fun a b => (names pairs).idxOf a < (names pairs).idxOf b
  last : ∀ entry ∈ entries, LastValue pairs entry.1 entry.2
  find : ∀ name value, find? name entries = some value ↔ LastValue pairs name value
  missing : ∀ name, name ∉ names pairs → find? name entries = none

/-- A name is found where it comes first. -/
theorem find?_eq_some_iff_first : find? name entries = some value ↔
    ∃ before after, entries = before ++ (name, value) :: after ∧ name ∉ names before := by
  constructor
  · intro h
    induction entries with
    | nil => cases h
    | cons entry rest ih =>
      obtain ⟨key, old⟩ := entry
      rw [find?] at h
      split at h
      next hkey =>
        cases h
        exact ⟨[], rest, by rw [hkey]; rfl, List.not_mem_nil⟩
      next hkey =>
        obtain ⟨before, after, rfl, hbefore⟩ := ih h
        exact ⟨(key, old) :: before, after, rfl, by simpa [names, Ne.symm hkey] using hbefore⟩
  · rintro ⟨before, after, rfl, hbefore⟩
    rw [find?_append, find?_eq_none_iff.mpr hbefore, Option.none_or, find?, if_pos rfl]

theorem lastValue_iff : LastValue pairs name value ↔ find? name pairs.reverse = some value := by
  rw [find?_eq_some_iff_first]
  constructor
  · rintro ⟨before, after, rfl, hafter⟩
    refine ⟨after.reverse, before.reverse, by simp, ?_⟩
    rwa [names_reverse, List.mem_reverse]
  · rintro ⟨before, after, hpairs, hbefore⟩
    refine ⟨after.reverse, before.reverse, ?_, ?_⟩
    · rw [← List.reverse_reverse pairs, hpairs]
      simp
    · rwa [names_reverse, List.mem_reverse]

/-- New names stand in the order in which they come first. -/
theorem fresh_ordered (known : List String) (pairs : Entries α) :
    (fresh known pairs).names.Pairwise fun a b =>
      (names pairs).idxOf a < (names pairs).idxOf b := by
  induction pairs generalizing known with
  | nil => exact .nil
  | cons pair rest ih =>
    obtain ⟨key, value⟩ := pair
    have hnames : names ((key, value) :: rest) = key :: names rest := rfl
    have hne {known : List String} (hkey : key ∈ known) {a : String}
        (ha : a ∈ (fresh known rest).names) : key ≠ a := by
      rintro rfl
      exact (fresh_nodup known rest).2 key ha hkey
    -- Once `key` is known, the first pair moves all other names by one place.
    have hlater {known : List String} (hkey : key ∈ known) :
        (fresh known rest).names.Pairwise fun a b =>
          (key :: names rest).idxOf a < (key :: names rest).idxOf b := by
      refine (ih known).imp_of_mem fun ha hb h => ?_
      rw [List.idxOf_cons_ne _ (hne hkey ha), List.idxOf_cons_ne _ (hne hkey hb)]
      exact Nat.succ_lt_succ h
    rw [hnames, fresh]
    split
    next hknown => exact hlater hknown
    next =>
      have hkey : key ∈ known ++ [key] := List.mem_append_right _ (List.mem_singleton_self key)
      refine List.pairwise_cons.mpr ⟨fun b hb => ?_, hlater hkey⟩
      rw [List.idxOf_cons_self, List.idxOf_cons_ne _ (hne hkey hb)]
      exact Nat.succ_pos _

theorem names_ofPairs (pairs : List (String × α)) :
    (ofPairs pairs).names = (fresh [] pairs).names := names_foldl_put pairs []

theorem find?_ofPairs (name : String) (pairs : List (String × α)) :
    find? name (ofPairs pairs) = find? name pairs.reverse := by
  rw [ofPairs, find?_foldl_put, find?_nil, Option.or_none]

/-- Pairs put one after the other keep their first places and take their last values. -/
theorem collects_ofPairs (pairs : List (String × α)) : (ofPairs pairs).Collects pairs := by
  have hmem (name : String) : name ∈ (ofPairs pairs).names ↔ name ∈ names pairs := by
    rw [← not_iff_not, ← find?_eq_none_iff, find?_ofPairs, find?_eq_none_iff, names_reverse,
      List.mem_reverse]
  have hfind (name : String) (value : α) :
      find? name (ofPairs pairs) = some value ↔ LastValue pairs name value := by
    rw [find?_ofPairs, lastValue_iff]
  exact
    { distinct := ofPairs_nodup pairs
      mem_names := hmem
      ordered := names_ofPairs pairs ▸ fresh_ordered [] pairs
      last := fun entry hentry =>
        (hfind _ _).mp ((find?_eq_some_iff (ofPairs_nodup pairs)).mpr hentry)
      find := hfind
      missing := fun name hname => find?_eq_none_iff.mpr fun h => hname ((hmem name).mp h) }

/-- Nothing else has the names of the pairs in order and their last values. -/
theorem Collects.eq (h : entries.Collects pairs) (hothers : others.Collects pairs) :
    entries = others := by
  refine ext_find?_of_pairwise (fun _ _ => Nat.lt_asymm) h.ordered hothers.ordered fun name => ?_
  exact Option.ext fun value => (h.find name value).trans (hothers.find name value).symm

end Entries

/-! ## Objects that repeat keys -/

namespace Json

variable {α : Type} {read : Json → Option α} {json : Json}

/-- A member of an object is read as a pair. -/
def ReadsAs (read : Json → Option α) (member : Option String × Json) (pair : String × α) : Prop :=
  member.1 = some pair.1 ∧ read member.2 = some pair.2

theorem pairsOf?_eq_some_iff {pairs : List (String × α)} : pairsOf? read json = some pairs ↔
    ∃ members, json = .object members ∧ List.Forall₂ (ReadsAs read) members pairs := by
  cases json with
  | object members =>
    have hmember (member : Option String × Json) (pair : String × α) :
        (member.1.bind fun key => (read member.2).bind fun value => some (key, value)) =
          some pair ↔ ReadsAs read member pair := by
      obtain ⟨name, value⟩ := pair
      simp [ReadsAs, Option.bind_eq_some_iff]
    simp only [pairsOf?, mapM_eq_some_iff, Option.bind_eq_bind, Option.pure_def, hmember]
    simp
  | _ => simp [pairsOf?]

/-- An object is read exactly if all of its members are, and what is read keeps the first places
and the last values. -/
theorem tableOf?_eq_some_iff {entries : Entries α} : tableOf? read json = some entries ↔
    ∃ members pairs, json = .object members ∧ List.Forall₂ (ReadsAs read) members pairs ∧
      entries.Collects pairs := by
  rw [tableOf?, Option.map_eq_some_iff]
  constructor
  · rintro ⟨pairs, hpairs, rfl⟩
    obtain ⟨members, hjson, hmembers⟩ := pairsOf?_eq_some_iff.mp hpairs
    exact ⟨members, pairs, hjson, hmembers, Entries.collects_ofPairs pairs⟩
  · rintro ⟨members, pairs, hjson, hmembers, hcollects⟩
    refine ⟨pairs, pairsOf?_eq_some_iff.mpr ⟨members, hjson, hmembers⟩, ?_⟩
    exact (Entries.collects_ofPairs pairs).eq hcollects

end Json

/-! ## Nodes inside of nodes -/

namespace Validator

/-- The nodes of a form. -/
def formNodes : Form Validator → List Validator
  | .optional inner => [inner]
  | .array element => [element]
  | .union options => options
  | _ => []

/-- The nodes that stand directly in a node: those of its fields and those of its form. -/
def parts (validator : Validator) : List Validator :=
  (validator.fields.getD []).map (·.2) ++ formNodes validator.form

/-- The other node stands in the node at any depth, or is the node. -/
def Contains : Validator → Validator → Prop :=
  Relation.ReflTransGen fun validator part => part ∈ validator.parts

theorem exists_of_mem_formNodes {β : Type} {wrap : β → Form Validator} {held : Option β}
    {part : Validator} (h : part ∈ formNodes ((held.map wrap).getD .unsupported)) :
    ∃ node, held = some node ∧ part ∈ formNodes (wrap node) := by
  cases held with
  | none => cases h
  | some node => exact ⟨node, rfl, h⟩

/-- A form has its nodes from the parts of the document, whatever the kind. -/
theorem mem_formNodes {kind : String} {inner element : Option Validator}
    {fields : Option (Entries Validator)} {options : Option (List Validator)} {part : Validator}
    (h : part ∈ formNodes (formOf kind inner element fields options)) :
    inner = some part ∨ element = some part ∨ ∃ nodes, options = some nodes ∧ part ∈ nodes := by
  unfold formOf at h
  split at h
  case h_7 | h_8 =>
    obtain ⟨node, rfl, hnode⟩ := exists_of_mem_formNodes h
    exact .inl (by rw [List.mem_singleton.mp hnode])
  case h_10 =>
    obtain ⟨node, rfl, hnode⟩ := exists_of_mem_formNodes h
    exact .inr (.inl (by rw [List.mem_singleton.mp hnode]))
  case h_11 =>
    split at h
    · cases h
    · cases h
  case h_12 => exact .inr (.inr (exists_of_mem_formNodes h))
  all_goals cases h

/-- The node is read of a document. -/
def IsRead (validator : Validator) : Prop := ∃ depth json, decode? depth json = some validator

/-- What stands in a node that is read is read, too. -/
theorem IsRead.part {validator part : Validator} (h : validator.IsRead)
    (hpart : part ∈ validator.parts) : part.IsRead := by
  obtain ⟨depth, json, hread⟩ := h
  cases depth with
  | zero => cases hread
  | succ depth =>
    simp only [decode?, Option.bind_eq_bind, Option.pure_def, Option.bind_eq_some_iff] at hread
    obtain ⟨record, -, kind, -, inner, hinner, element, helement, values, -, names, -, shape,
      hshape, properties, hproperties, options, hoptions, heq⟩ := hread
    cases heq
    rcases List.mem_append.mp hpart with hpart | hpart
    · obtain ⟨field, hfield, rfl⟩ := List.mem_map.mp hpart
      clear hpart
      cases hfields : shape.or properties with
      | none =>
        rw [hfields] at hfield
        cases hfield
      | some fields =>
        rw [hfields] at hfield
        obtain ⟨value, hvalue⟩ := Json.exists_of_optional?_or hshape hproperties hfields
        cases depth with
        | zero => cases hvalue
        | succ depth => exact ⟨depth, Json.exists_of_mem_tableOf? hvalue hfield⟩
    · rcases mem_formNodes hpart with rfl | rfl | ⟨nodes, rfl, hnode⟩
      · exact ⟨depth, Json.exists_of_optional? hinner⟩
      · exact ⟨depth, Json.exists_of_optional? helement⟩
      · obtain ⟨value, hvalue⟩ := Json.exists_of_optional? hoptions
        cases depth with
        | zero => cases hvalue
        | succ depth => exact ⟨depth, Json.exists_of_mem_listOf? hvalue hnode⟩

theorem IsRead.contains {validator node : Validator} (h : validator.IsRead)
    (hnode : validator.Contains node) : node.IsRead := by
  induction hnode with
  | refl => exact h
  | tail _ hpart ih => exact ih.part hpart

/-- The fields of a node that is read have distinct names. -/
theorem IsRead.nodup {validator : Validator} (h : validator.IsRead) {fields : Entries Validator}
    (hfields : validator.fields = some fields) : fields.names.Nodup := by
  obtain ⟨depth, json, hread⟩ := h
  exact decode?_nodup hread hfields

end Validator

/-! ## Schemas -/

namespace Schema

/-- The names of the tables of one map. -/
def tableNames (schema : Schema) : TableKind → List String
  | .owned => schema.owned.names
  | .orgScoped => schema.orgScoped.names
  | .base => schema.base.names
  | .singleton => schema.singleton.names
  | .child => schema.children.names

/-- Names are distinct: those of the tables in one map, and those of the fields of one node, however
deep it stands in a table. -/
structure NamesDistinct (schema : Schema) : Prop where
  tables : ∀ kind, (schema.tableNames kind).Nodup
  fields : ∀ declaration ∈ schema.declarations, ∀ node, declaration.validator.Contains node →
    ∀ fields, node.fields = some fields → fields.names.Nodup

theorem tableNames_nodup {text : String} {schema : Schema} (h : parse? text = some schema)
    (kind : TableKind) : (schema.tableNames kind).Nodup := by
  obtain ⟨json, -, hjson⟩ := Option.bind_eq_some_iff.mp h
  simp only [ofJson?, Option.bind_eq_bind, Option.pure_def, Option.bind_eq_some_iff] at hjson
  obtain ⟨record, -, owned, howned, orgScoped, horgScoped, base, hbase, singleton, hsingleton,
    children, hchildren, heq⟩ := hjson
  cases heq
  cases kind with
  | owned => exact Json.orElse?_nodup howned
  | orgScoped => exact Json.orElse?_nodup horgScoped
  | base => exact Json.orElse?_nodup hbase
  | singleton => exact Json.orElse?_nodup hsingleton
  | child => exact Json.orElse?_nodup hchildren

theorem parse?_namesDistinct {text : String} {schema : Schema} (h : parse? text = some schema) :
    schema.NamesDistinct where
  tables := tableNames_nodup h
  fields declaration hdeclaration node hnode fields hfields := by
    have hread : declaration.validator.IsRead := exists_of_parse? h hdeclaration
    exact (hread.contains hnode).nodup hfields

/-- **Repeated names.** The entries read of an object, with any number of repetitions of its keys,
have distinct names in the order in which they come first, each with the value that comes last, and
a lookup finds that value, or nothing under another name. Entries put one after the other into an
empty list of fields obey the same law. So in every schema of a document, the names of the tables of
one map and those of the fields of one node are distinct, at every depth. -/
theorem repeatedNames_settled {α : Type} :
    (∀ (read : Json → Option α) json entries, Json.tableOf? read json = some entries ↔
      ∃ members pairs, json = .object members ∧
        List.Forall₂ (Json.ReadsAs read) members pairs ∧ entries.Collects pairs) ∧
    (∀ pairs : List (String × FieldEntry),
      (pairs.foldl (fun fields pair => Entries.put pair.1 pair.2 fields) []).Collects pairs) ∧
    ∀ text schema, parse? text = some schema → schema.NamesDistinct :=
  ⟨fun _ _ _ => Json.tableOf?_eq_some_iff, Entries.collects_ofPairs,
    fun _ _ => parse?_namesDistinct⟩

/-- Keys that are repeated in an object, in a map of tables and inside of a field: the last value
stands in the first place. -/
theorem repeatedNames_settled_of_document :
    let members : List (Option String × Json) :=
      [(some "a", .bool true), (some "b", .bool true), (some "a", .bool false)]
    let text := "\x7b\"base\":\x7b\"film\":\x7b\"type\":\"string\"\x7d," ++
      "\"film\":\x7b\"type\":\"object\",\"shape\":\x7b\"tag\":\x7b\"type\":\"object\"," ++
      "\"shape\":\x7b\"x\":\x7b\"type\":\"string\"\x7d," ++
      "\"x\":\x7b\"type\":\"int\"\x7d\x7d\x7d\x7d\x7d\x7d\x7d"
    let tag : Validator := .node "object" []
      (some [("x", .node "int" [] none (.scalar .number))]) .object
    let schema : Schema := { base := [("film", .node "object" [] (some [("tag", tag)]) .object)] }
    Json.tableOf? Json.flag? (.object members) = some [("a", false), ("b", true)] ∧
      (∃ pairs, List.Forall₂ (Json.ReadsAs Json.flag?) members pairs ∧
        Entries.Collects [("a", false), ("b", true)] pairs) ∧
      parse? text = some schema ∧ schema.NamesDistinct := by
  intro members text tag schema
  obtain ⟨hobjects, -, hschemas⟩ := repeatedNames_settled (α := Bool)
  have hparse : parse? text = some schema := by
    dsimp only [text, schema, tag]
    cbv
  refine ⟨by rfl, ?_, hparse, hschemas text schema hparse⟩
  obtain ⟨others, pairs, heq, hmembers, hcollects⟩ :=
    (hobjects Json.flag? (.object members) [("a", false), ("b", true)]).mp (by rfl)
  cases heq
  exact ⟨pairs, hmembers, hcollects⟩

end Schema

end ClientBindings
