import ClientBindings.Proofs.Source.Declarators

/-!
# Exported names are bound

No name is invented: what is read from the exported statements of a source is bound by one of their
declarators.

* `TypedTail`: what may follow the pattern of a declarator, a type and an initializer.
* `readFrom_statementText`: of a statement the parts are its declarators, or what is left of them
  where the statement ends before a line feed.
* `exportedNames_bound`: every exported name is bound by a declarator, or listed in braces.

An initializer may have angle brackets, but no comma between them: commas are told apart by angle
brackets in types alone (`exportedNames_typeArgument`).
-/

namespace ClientBindings.Source

/-! ## Declarators with types -/

/-- The type ascribed to a declarator, or nothing. -/
inductive Ascription : List Char → Prop
  | none : Ascription []
  | typed {text : List Char} : Angled (fun _ => True) false text → Ascription (':' :: text)

/-- The initializer of a declarator, or nothing. -/
inductive Initializer : List Char → Prop
  | none : Initializer []
  | value {c : Char} {rest : List Char} : c ≠ '>' → Level (· ≠ ',') (c :: rest) →
      Initializer ('=' :: c :: rest)

/-- What follows the pattern of a declarator: blanks, semicolons or a mark of assignment, a type,
and an initializer. -/
inductive TypedTail : List Char → Prop
  | mk {filler ascription initializer : List Char} :
      (∀ c ∈ filler, Text.isBlank c ∨ c = ';' ∨ c = '!') → Ascription ascription →
      Initializer initializer → TypedTail (filler ++ (ascription ++ initializer))

/-- A comma ends a declarator in this part. -/
def DeclaratorPart.Separates (part : DeclaratorPart) : Prop :=
  ∀ last next, part.after? last ',' next = none

theorem Ascription.goes {text : List Char} (h : Ascription text) (last : Option Char) :
    ∃ part, (part = .target ∨ part = .typed 0) ∧ Goes .target last text part := by
  cases h with
  | none => exact ⟨.target, .inl rfl, .nil⟩
  | typed htext =>
    refine ⟨.typed 0, .inr rfl, .cons (by decide) (fun _ => rfl) (htext.goes ?_ _)⟩
    exact fun h => absurd h Bool.false_ne_true

theorem Initializer.goes {text : List Char} (h : Initializer text) {part : DeclaratorPart}
    (hpart : part = .target ∨ part = .typed 0) (last : Option Char) :
    ∃ part', part'.Separates ∧ Goes part last text part' := by
  cases h with
  | none =>
    refine ⟨part, fun _ _ => ?_, .nil⟩
    rcases hpart with rfl | rfl
    · rfl
    · rfl
  | @value c rest hc hvalue =>
    have hgoes : Goes .initializer (some '=') (c :: rest) .initializer :=
      .level (fun _ _ _ hne => DeclaratorPart.initializer_after? hne _ _) hvalue _
    refine ⟨.initializer, fun _ _ => rfl, .cons (by decide) (fun more => ?_) hgoes⟩
    rcases hpart with rfl | rfl
    · simp [DeclaratorPart.after?, hc]
    · simp [DeclaratorPart.after?, hc]

theorem TypedTail.goes {text : List Char} (h : TypedTail text) (last : Option Char) :
    ∃ part, part.Separates ∧ Goes .target last text part := by
  cases h with
  | @mk filler ascription initializer hfiller hascription hinitializer =>
    have hlevel : Level (fun c => Text.isBlank c ∨ c = ';' ∨ c = '!') filler := by
      refine .of_forall fun c hc => ⟨?_, hfiller c hc⟩
      rcases hfiller c hc with hblank | rfl | rfl
      · exact isPlain_of_isBlank hblank
      · decide
      · decide
    have hgoes : Goes .target last filler .target := by
      refine .level (fun last c next hc => ?_) hlevel last
      rcases hc with hblank | rfl | rfl
      · exact DeclaratorPart.blank_after? hblank _ _ _
      · rfl
      · rfl
    obtain ⟨mid, hmid, htyped⟩ := hascription.goes (lastOf last filler)
    obtain ⟨part, hpart, hvalue⟩ := hinitializer.goes hmid (lastOf (lastOf last filler) ascription)
    exact ⟨part, hpart, hgoes.append (htyped.append hvalue)⟩

/-! ## Statements -/

/-- A declarator is handed on to its end, or something is left of it where the statement ends. -/
theorem Declarator.readFrom_text (d : Declarator) (h : TypedTail d.tail) (last : Option Char)
    (rest : List Char) :
    (∃ part last', part.Separates ∧ readFrom .target 0 last (d.text ++ rest) =
      d.text.foldr Text.consFirst (readFrom part 0 last' rest)) ∨
    ∃ start, d.Remains start ∧ readFrom .target 0 last (d.text ++ rest) = [start] := by
  rw [d.text_append]
  rcases d.readFrom_lead last (d.tail ++ rest) with hpass | ⟨start, hstart, hend⟩
  · obtain ⟨part, hpart, hgoes⟩ := h.goes (lastOf last (d.lead ++ d.target))
    rw [hpass]
    rcases hgoes rest with hpass | ⟨start, hstart, hend⟩
    · refine .inl ⟨part, lastOf (lastOf last (d.lead ++ d.target)) d.tail, hpart, ?_⟩
      rw [hpass]
      simp [Declarator.text]
    · refine .inr ⟨d.lead ++ (d.target ++ start), .inr ⟨start, ?_, rfl⟩, ?_⟩
      · exact d.parted.of_prefix hstart
      · rw [hend, foldr_consFirst, List.append_assoc]
  · exact .inr ⟨start, .inl hstart, hend⟩

/-- What follows a statement: nothing, a bracket that closes none of its own, or a line feed that
nothing continues. -/
def Ends (after : List Char) : Prop :=
  ∀ c rest, after = c :: rest → isClosing c ∨ c = '\n' ∧ continues rest = false

theorem readFrom_ends {after : List Char} (h : Ends after) (part : DeclaratorPart)
    (last : Option Char) : readFrom part 0 last after = [[]] := by
  cases after with
  | nil => rfl
  | cons c rest =>
    rcases h c rest rfl with hc | ⟨rfl, hrest⟩
    · rw [readFrom, statementFrom, if_neg (by simp [not_opening_of_closing hc]), if_pos hc]
      rfl
    · exact readFrom_end hrest

/-- What is read of a statement are its declarators, up to the one that it ends in. -/
theorem readFrom_statementText {ds : List Declarator} (hds : ∀ d ∈ ds, TypedTail d.tail)
    {after : List Char} (hafter : Ends after) (last : Option Char) :
    ∀ part ∈ readFrom .target 0 last (statementText ds ++ after),
      part = [] ∨ ∃ d ∈ ds, d.Remains part := by
  induction ds generalizing last with
  | nil =>
    intro part hpart
    rw [statementText, List.nil_append, readFrom_ends hafter] at hpart
    exact .inl (by simpa using hpart)
  | cons d ds ih =>
    have hd := hds d List.mem_cons_self
    have hrest := ih fun e he => hds e (List.mem_cons_of_mem d he)
    cases ds with
    | nil =>
      intro part hpart
      refine .inr ⟨d, List.mem_cons_self, ?_⟩
      rw [statementText] at hpart
      rcases d.readFrom_text hd last after with ⟨mid, last', -, hpass⟩ | ⟨start, hstart, hend⟩
      · rw [hpass, readFrom_ends hafter, foldr_consFirst, List.append_nil] at hpart
        rw [List.mem_singleton.mp hpart]
        exact d.remains_text
      · rw [hend] at hpart
        rwa [List.mem_singleton.mp hpart]
    | cons next ds =>
      intro part hpart
      rw [statementText, List.append_assoc, List.cons_append] at hpart
      -- The scan gets to the comma, or the statement ends before it and nothing more is read.
      rcases d.readFrom_text hd last (',' :: (statementText (next :: ds) ++ after)) with
        ⟨mid, last', hmid, hpass⟩ | ⟨start, hstart, hend⟩
      · rw [hpass, readFrom_plain (by decide) (by simp), hmid, foldr_consFirst,
          List.append_nil] at hpart
        rcases List.mem_cons.mp hpart with rfl | hpart
        · exact .inr ⟨d, List.mem_cons_self, d.remains_text⟩
        · refine (hrest (some ',') part hpart).imp_right ?_
          rintro ⟨e, he, hremains⟩
          exact ⟨e, List.mem_cons_of_mem d he, hremains⟩
      · rw [hend] at hpart
        refine .inr ⟨d, List.mem_cons_self, ?_⟩
        rwa [List.mem_singleton.mp hpart]

/-- An exported statement past its keyword, with the rest of the source. -/
structure Statement where
  declarators : List Declarator
  after : List Char
  typed : ∀ d ∈ declarators, TypedTail d.tail
  ends : Ends after

namespace Statement

def text (s : Statement) : List Char := statementText s.declarators ++ s.after

theorem boundNames_text (s : Statement) {name : String}
    (h : name ∈ boundNames (statement s.text)) : ∃ d ∈ s.declarators, name ∈ d.names := by
  rw [boundNames, declarators_statement, List.mem_flatMap] at h
  obtain ⟨part, hpart, hname⟩ := h
  rcases readFrom_statementText s.typed s.ends none part hpart with rfl | ⟨d, hd, hremains⟩
  · have hnone : patternNames (declaratorTarget []) = [] := rfl
    simp [hnone] at hname
  · exact ⟨d, hd, hremains.names hname⟩

end Statement

/-! ## Exported names -/

/-- **No name is invented.** If a statement of declarators, typed and initialized, stands at
every place where a binding is exported, every name that the source exports is bound by one of
them, or stands in an export list. -/
theorem exportedNames_bound {source : String} {statements : List Statement}
    (h : scan exportBinding? (shownText source) = statements.map Statement.text) {name : String}
    (hname : name ∈ exportedNames source) :
    (∃ s ∈ statements, ∃ d ∈ s.declarators, name ∈ d.names) ∨
    ∃ list ∈ scan exportList? (shownText source), ∃ entry ∈ splitTop ',' list,
      listEntryName? entry = some name := by
  rw [exportedNames, mem_firstSeen, exportsOf, h, List.mem_append, List.mem_flatMap,
    List.mem_flatMap] at hname
  rcases hname with ⟨rest, hrest, hname⟩ | ⟨list, hlist, hname⟩
  · obtain ⟨s, hs, rfl⟩ := List.mem_map.mp hrest
    exact .inl ⟨s, hs, s.boundNames_text hname⟩
  · obtain ⟨entry, hentry, hname⟩ := List.mem_filterMap.mp hname
    exact .inr ⟨list, hlist, entry, hentry, hname⟩

/-- `export let a:M<K,V>=f`: the comma between type arguments makes no name. -/
theorem exportedNames_bound_of_typeArguments :
    exportedNames (String.ofList (['e', 'x', 'p', 'o', 'r', 't', ' ', 'l', 'e', 't', ' '] ++
      ['a', ':', 'M', '<', 'K', ',', 'V', '>', '=', 'f'])) ⊆ ["a"] := by
  have htype : Angled (fun _ => True) true ['K', ',', 'V'] :=
    .char (by decide) trivial (by decide) (.comma (.char (by decide) trivial (by decide) .nil))
  have hascription : Ascription (':' :: 'M' :: '<' :: (['K', ',', 'V'] ++ ['>'])) :=
    .typed (.char (by decide) trivial (by decide) (.angles htype .nil))
  have hinitializer : Initializer ['=', 'f'] :=
    .value (by decide) (.char (by decide) (by decide) .nil)
  have htail : TypedTail ([] ++ ([':', 'M', '<', 'K', ',', 'V', '>'] ++ ['=', 'f'])) :=
    .mk (by simp) hascription hinitializer
  let declarator : Declarator :=
    ⟨[], ['a'], ["a"], [':', 'M', '<', 'K', ',', 'V', '>', '=', 'f'], .nil,
      .name ⟨rfl, List.forall_mem_singleton.mpr rfl⟩, .cons (by decide) _⟩
  let s : Statement := ⟨[declarator], [], by simpa using htail, by simp [Ends]⟩
  have hscan : scan exportBinding? (shownText (String.ofList
      (['e', 'x', 'p', 'o', 'r', 't', ' ', 'l', 'e', 't', ' '] ++
        ['a', ':', 'M', '<', 'K', ',', 'V', '>', '=', 'f']))) = [s].map Statement.text := by
    rw [shownText, String.toList_ofList]
    rfl
  have hlists : scan exportList? (shownText (String.ofList
      (['e', 'x', 'p', 'o', 'r', 't', ' ', 'l', 'e', 't', ' '] ++
        ['a', ':', 'M', '<', 'K', ',', 'V', '>', '=', 'f']))) = [] := by
    rw [shownText, String.toList_ofList]
    rfl
  intro name hname
  rcases exportedNames_bound hscan hname with ⟨t, ht, d, hd, hbound⟩ | ⟨list, hlist, -⟩
  · obtain rfl := List.mem_singleton.mp ht
    obtain rfl := List.mem_singleton.mp hd
    exact hbound
  · rw [hlists] at hlist
    exact absurd hlist List.not_mem_nil

/-- Past the comma between the type arguments of a call, a name that nothing binds. -/
theorem exportedNames_typeArgument :
    exportedNames "export const m = new Map<string, number>()\n" = ["m", "number"] := by
  decide +kernel

end ClientBindings.Source
