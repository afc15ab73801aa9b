import ClientBindings.Proofs.Source.Completeness
import ClientBindings.Proofs.Source.FactorySites
import ClientBindings.Proofs.Source.Soundness
import ClientBindings.Source.FactoryCall
import Mathlib.Data.List.Basic

/-!
# Locality

What is found in a source does not change with the code that is put after it. Of a source with its
brackets in pairs, no scan reaches past a semicolon and a line feed.

* `callOpening?_local`, `callOf?_extendCall`: factory calls. The parenthesis of a call is closed in
  the source, and a table name that the source does not end is no word.
* `Balanced.readFrom_closing`, `Balanced.readFrom_semicolon`: statements. They end in the source,
  or at the semicolon, which is no part of what the last declarator binds
  (`declaratorTarget_semicolon`).
* `exportList?_local`: export lists. Their braces are closed in the source.
* `found_append`: the calls and the exported names of both texts.
-/

namespace ClientBindings.Source

/-! ## Factory calls -/

theorem factories_letters : ∀ m ∈ Factory.named,
    m.1.toList ≠ [] ∧ ';' ∉ m.1.toList ∧ '\n' ∉ m.1.toList := by decide

/-- A call opening with more text past it. -/
def extendCall (more : List Cell) (opening : Factory × Char × List Cell) :
    Factory × Char × List Cell := (opening.1, opening.2.1, opening.2.2 ++ more)

theorem upTo_append_right {α β : Type} (text rest more : List α) (found : β) :
    upTo (text ++ more) (rest ++ more) found = upTo text rest found := by
  simp only [upTo, List.length_append, Nat.add_sub_add_right]

theorem callOpening?_local (text : List Cell) :
    Local Cell.shown text extendCall callOpening? where
  length_le last part found n h := by
    obtain ⟨-, opening, mark, rfl, -, -, -, rfl⟩ := callOpening?_eq_some.mp h
    exact (List.prefix_append (opening ++ [mark]) _).length_le
  semicolon last part c rest _ hc := by
    have hnames : ∀ m ∈ Factory.named, ';' ∉ m.1.toList := fun m hm => (factories_letters m hm).2.1
    have hparen : ';' ∉ ['('] := by decide
    -- A semicolon is no blank and in none of the marks, so each step leaves it where it is.
    simp only [callOpening?, dropAny?_semicolon hc part rest hnames]
    split
    · cases dropAny? Cell.shown part Factory.named with
      | none => rfl
      | some found =>
        obtain ⟨factory, past⟩ := found
        simp only [Option.bind_eq_bind, Option.map_some, Option.bind_some, Prod.map, id,
          skipBlanks_semicolon hc, dropMark?_semicolon hc _ _ hparen]
        cases dropMark? Cell.shown ['('] (skipBlanks Cell.shown past) with
        | none => rfl
        | some past =>
          simp only [Option.map_some, Option.bind_some, skipBlanks_semicolon hc]
          cases skipBlanks Cell.shown past with
          | nil => simp [hc]
          | cons d past =>
            simp only [List.cons_append]
            split
            · rw [upTo_append_right]
              rfl
            · rfl
    · rfl
  boundary last c rest hc := by
    have hnames : ∀ m ∈ Factory.named, m.1.toList ≠ [] ∧ c.shown ∉ m.1.toList := by
      intro m hm
      obtain ⟨hne, hsemicolon, hline⟩ := factories_letters m hm
      rcases hc with hc | hc
      · exact ⟨hne, by rwa [hc]⟩
      · exact ⟨hne, by rwa [hc]⟩
    simp only [callOpening?, dropAny?_none hnames]
    split
    · rfl
    · rfl
  start last part hlast := by
    have hnone : outsideWord Cell.shown none := rfl
    simp only [callOpening?, hlast, hnone]

/-- Past an opening bracket of a matched text and characters that are no brackets, there is the one
that closes it. -/
theorem Matched.closes_past {before between after : List Char} {o : Char}
    (h : Matched (before ++ o :: (between ++ after))) (ho : isOpening o)
    (hbetween : ∀ c ∈ between, IsPlain c) :
    ∃ inner c past, (o, c) ∈ bracketPairs ∧ Matched inner ∧ after = inner ++ c :: past := by
  have hnone : between.filter isBracket = [] := by
    rw [List.filter_eq_nil_iff]
    intro c hc
    simp [isBracket, (hbetween c hc).1, (hbetween c hc).2]
  have hwithout : Matched (before ++ o :: after) := by
    apply Matched.of_brackets
    have hbrackets := h.brackets
    rwa [List.filter_append, List.filter_cons, List.filter_append, hnone, List.nil_append,
      ← List.filter_cons, ← List.filter_append] at hbrackets
  exact hwithout.closes ho

/-- Cells with their brackets in pairs are passed over. -/
theorem untilClosed_matched {text : List Char} (h : Matched text) {cells : List Cell}
    (hcells : cells.map Cell.shown = text) (depth : Nat) (rest : List Cell) :
    untilClosed depth (cells ++ rest) = cells ++ untilClosed depth rest := by
  induction h generalizing cells depth rest with
  | nil =>
    obtain rfl : cells = [] := List.map_eq_nil_iff.mp hcells
    rfl
  | @char c text hc _ ih =>
    obtain ⟨cell, cells, rfl, rfl, hmore⟩ := List.map_eq_cons_iff.mp hcells
    have ho : cell.shown ≠ '(' := (hc.ne_opening (by decide)).symm
    have hp : cell.shown ≠ ')' := (hc.ne_closing (by decide)).symm
    cases depth with
    | zero => rw [List.cons_append, untilClosed, if_neg ho, if_neg hp, ih hmore]; rfl
    | succ depth => rw [List.cons_append, untilClosed, if_neg ho, if_neg hp, ih hmore]; rfl
  | @group o c inner text hpair _ _ ihinner ih =>
    obtain ⟨opening, cells, rfl, rfl, hmore⟩ := List.map_eq_cons_iff.mp hcells
    obtain ⟨cells, past, rfl, hinner, hpast⟩ := List.map_eq_append_iff.mp hmore
    obtain ⟨closing, past, rfl, rfl, htext⟩ := List.map_eq_cons_iff.mp hpast
    simp only [bracketPairs, List.mem_cons, Prod.mk.injEq, List.not_mem_nil, or_false] at hpair
    rcases hpair with ⟨ho, hc⟩ | ⟨ho, hc⟩ | ⟨ho, hc⟩
    all_goals
      simp [untilClosed, ho, hc, ihinner hinner, ih htext]

/-- The opening of a call: a parenthesis and, past blanks, a quote. -/
theorem callOpening?_shape {last : Option Cell} {part rest : List Cell} {factory : Factory}
    {quote : Char} {n : Nat} (h : callOpening? last part = some ((factory, quote, rest), n)) :
    (quote = '\'' ∨ quote = '"') ∧ ∃ before blanks, Blanks blanks ∧
      part.map Cell.shown = before ++ '(' :: (blanks ++ quote :: rest.map Cell.shown) := by
  obtain ⟨-, opening, mark, rfl, ⟨blanks, lead, -, hlead, hopening⟩, rfl, hquote, -⟩ :=
    callOpening?_eq_some.mp h
  refine ⟨hquote, factory.name.toList ++ blanks, lead, hlead, ?_⟩
  rw [List.map_append, List.map_append, hopening]
  simp

/-- The arguments of a call end at its parenthesis, whatever follows the text that closes it. -/
theorem untilClosed_append {past : List Cell} {inner rest : List Char} (hinner : Matched inner)
    (hpast : past.map Cell.shown = inner ++ ')' :: rest) (more : List Cell) :
    untilClosed 0 (past ++ more) = untilClosed 0 past := by
  obtain ⟨arguments, past, rfl, harguments, hclosing⟩ := List.map_eq_append_iff.mp hpast
  obtain ⟨closing, past, rfl, hshown, -⟩ := List.map_eq_cons_iff.mp hclosing
  have hclosed (past : List Cell) : untilClosed 0 (closing :: past) = [] := by
    rw [untilClosed, hshown]
    rfl
  rw [List.append_assoc, List.cons_append, untilClosed_matched hinner harguments,
    untilClosed_matched hinner harguments, hclosed, hclosed]

theorem isPlain_shown {cell : Cell} (h : Text.isWord cell.char) : IsPlain cell.shown := by
  rw [Cell.shown]
  split_ifs
  · decide
  · exact isPlain_of_isWord h

/-! ### Table names -/

section Table

variable {file : String} {factory : Factory} {quote : Char} {table : List Cell}
  (htable : ∀ cell ∈ table, cell.shown ≠ quote)

include htable

theorem takeWhile_table (rest : List Cell) :
    (table ++ rest).takeWhile (fun cell => cell.shown ≠ quote) =
      table ++ rest.takeWhile fun cell => cell.shown ≠ quote :=
  List.takeWhile_append_of_pos fun cell hcell => decide_eq_true (htable cell hcell)

theorem dropWhile_table (rest : List Cell) :
    (table ++ rest).dropWhile (fun cell => cell.shown ≠ quote) =
      rest.dropWhile fun cell => cell.shown ≠ quote :=
  List.dropWhile_append_of_pos fun cell hcell => decide_eq_true (htable cell hcell)

/-- Past the name of the table, a call has nothing but its arguments. -/
theorem callOf?_congr {d : Cell} (hd : d.shown = quote) {past past' : List Cell}
    (h : (∀ cell ∈ table, Text.isWord cell.char) → untilClosed 0 past = untilClosed 0 past') :
    callOf? file (factory, quote, table ++ d :: past) =
      callOf? file (factory, quote, table ++ d :: past') := by
  have htake (past : List Cell) :
      (d :: past).takeWhile (fun cell => cell.shown ≠ quote) = [] := by simp [hd]
  have hdrop (past : List Cell) :
      (d :: past).dropWhile (fun cell => cell.shown ≠ quote) = d :: past := by simp [hd]
  simp only [callOf?, takeWhile_table htable, dropWhile_table htable, htake, hdrop]
  split
  next hword =>
    have hwords : ∀ cell ∈ table, Text.isWord cell.char := by
      simp only [List.append_nil, Bool.and_eq_true, List.all_map, List.all_eq_true] at hword
      exact hword.2
    rw [h hwords]
  next => rfl

/-- The name of a table is a word. -/
theorem callOf?_no_word {d : Cell} (hd : d ∈ table) (hword : Text.isWord d.char = false)
    (rest : List Cell) : callOf? file (factory, quote, table ++ rest) = none := by
  have hall : ((table ++ rest.takeWhile fun cell => cell.shown ≠ quote).map Cell.char).all
      Text.isWord = false := by
    rw [List.all_eq_false]
    exact ⟨d.char, List.mem_map_of_mem (List.mem_append_left _ hd), by simp [hword]⟩
  simp only [callOf?, takeWhile_table htable, dropWhile_table htable, hall, Bool.and_false]
  split
  · rfl
  · rfl

/-- A table name that no quote ends makes no call. -/
theorem callOf?_unquoted : callOf? file (factory, quote, table) = none := by
  have hdrop := dropWhile_table htable []
  rw [List.append_nil] at hdrop
  simp only [callOf?, hdrop, List.dropWhile_nil]

end Table

section Calls

variable {cells : List Cell} (hcells : Matched (cells.map Cell.shown)) {last : Option Cell}
  {part : List Cell} (hpart : part <:+ cells)

include hcells hpart

/-- Past the table name, the parenthesis of a call is closed. -/
theorem exists_closing {text past : List Cell} {factory : Factory} {quote : Char} {n : Nat}
    (hfind : callOpening? last part = some ((factory, quote, text), n)) {table : List Cell}
    (htable : ∀ cell ∈ table, Text.isWord cell.char) {d : Cell} (hd : d.shown = quote)
    (htext : text = table ++ d :: past) :
    ∃ inner rest, Matched inner ∧ past.map Cell.shown = inner ++ ')' :: rest := by
  obtain ⟨hquote, before, blanks, hblanks, hshown⟩ := callOpening?_shape hfind
  obtain ⟨start, rfl⟩ := hpart
  have hplain : IsPlain quote := by rcases hquote with rfl | rfl <;> decide
  have hbetween : ∀ c ∈ blanks ++ quote :: (table.map Cell.shown ++ [quote]), IsPlain c := by
    intro c hc
    simp only [List.mem_append, List.mem_cons, List.mem_map, List.not_mem_nil, or_false] at hc
    rcases hc with hc | rfl | ⟨cell, hcell, rfl⟩ | rfl
    · exact isPlain_of_isBlank (hblanks c hc)
    · exact hplain
    · exact isPlain_shown (htable cell hcell)
    · exact hplain
  have hall : (start ++ part).map Cell.shown = (start.map Cell.shown ++ before) ++
      '(' :: ((blanks ++ quote :: (table.map Cell.shown ++ [quote])) ++ past.map Cell.shown) := by
    rw [List.map_append, hshown, htext]
    simp [hd]
  rw [hall] at hcells
  obtain ⟨inner, c, rest, hpair, hinner, hpast⟩ := hcells.closes_past (by decide) hbetween
  obtain rfl : c = ')' := by simpa [bracketPairs] using hpair
  exact ⟨inner, rest, hinner, hpast⟩

/-- The call of an opening is the same whatever follows the text. -/
theorem callOf?_extendCall (file : String) {opening : Factory × Char × List Cell} {n : Nat}
    (hfind : callOpening? last part = some (opening, n)) {c : Cell} (hc : c = ⟨';', false⟩)
    (more : List Cell) : callOf? file (extendCall (c :: more) opening) = callOf? file opening := by
  obtain ⟨factory, quote, text⟩ := opening
  subst hc
  have hquote : ';' ≠ quote := by
    rcases (callOpening?_shape hfind).1 with rfl | rfl <;> decide
  rw [extendCall]
  cases hpast : text.dropWhile fun cell => cell.shown ≠ quote with
  | nil =>
    -- The quote may stand in `more`, but then the table name has a semicolon in it.
    have htable : ∀ cell ∈ text, cell.shown ≠ quote := fun cell hcell =>
      of_decide_eq_true (List.dropWhile_eq_nil_iff.mp hpast cell hcell)
    have hmore : ∀ cell ∈ text ++ [⟨';', false⟩], cell.shown ≠ quote := by
      simpa [or_imp, forall_and] using ⟨htable, hquote⟩
    rw [callOf?_unquoted htable, List.append_cons]
    have hmem : ⟨';', false⟩ ∈ text ++ [(⟨';', false⟩ : Cell)] := by simp
    exact callOf?_no_word hmore hmem (by decide) more
  | cons d past =>
    have htext : text.takeWhile (fun cell => cell.shown ≠ quote) ++
        text.dropWhile (fun cell => cell.shown ≠ quote) = text := List.takeWhile_append_dropWhile
    rw [hpast] at htext
    have htable : ∀ cell ∈ text.takeWhile (fun cell => cell.shown ≠ quote), cell.shown ≠ quote :=
      fun cell hcell => of_decide_eq_true
        (List.mem_takeWhile_imp (p := fun cell : Cell => decide (cell.shown ≠ quote)) hcell)
    have hd : d.shown = quote := by
      have hstop := List.head?_dropWhile_not (fun cell : Cell => decide (cell.shown ≠ quote)) text
      rw [hpast] at hstop
      simpa using hstop
    generalize text.takeWhile (fun cell => cell.shown ≠ quote) = table at htext htable
    rw [← htext, List.append_assoc, List.cons_append]
    refine callOf?_congr htable hd fun hwords => ?_
    obtain ⟨inner, rest, hinner, hclosing⟩ :=
      exists_closing hcells hpart hfind hwords hd htext.symm
    exact untilClosed_append hinner hclosing _

end Calls

theorem factoryCalls_boundary (file : String) {source appended whole : String}
    (hwhole : mask whole.toList = mask source.toList ++ (boundary ++ mask appended.toList))
    (hsource : Matched (shownText source)) :
    factoryCalls file whole = factoryCalls file source ++ factoryCalls file appended := by
  have hscan := (callOpening?_local (mask source.toList)).scan_boundary
    (c := ⟨';', false⟩) (d := ⟨'\n', false⟩) rfl rfl (mask appended.toList)
  have hcalls : ((scan callOpening? (mask source.toList)).map
        (extendCall (boundary ++ mask appended.toList))).filterMap (callOf? file) =
      factoryCalls file source := by
    rw [List.filterMap_map, factoryCalls]
    refine List.filterMap_congr fun opening hopening => ?_
    obtain ⟨last, part, n, hpart, hfind⟩ := exists_of_mem_scanFrom hopening
    exact callOf?_extendCall hsource hpart file hfind rfl _
  rw [factoryCalls, hwhole]
  exact (congrArg (List.filterMap (callOf? file)) hscan).trans
    (List.filterMap_append.trans (congrArg (· ++ factoryCalls file appended) hcalls))

/-! ## Statements -/

/-- A solid character that no statement goes on with is the end, where nothing is before it. -/
theorem continues_append {d : Char} (hblank : Text.isBlank d = false) (hd : d ≠ ',' ∧ d ≠ '{')
    (text rest : List Char) : continues (text ++ d :: rest) = continues text := by
  rw [continues, continues, Text.trimStart, Text.trimStart, List.dropWhile_append,
    List.dropWhile_cons, hblank]
  cases htext : text.dropWhile Text.isBlank with
  | nil => simp [hd]
  | cons c text => rfl

theorem not_continues {text : List Char}
    (h : ∀ c ∈ (Text.trimStart text).head?, c ≠ ',' ∧ c ≠ '{') : continues text = false := by
  rw [continues]
  split
  next c rest htext => simpa using h c (by rw [htext]; rfl)
  next => rfl

theorem closing_ne {c : Char} (h : isClosing c) :
    Text.isBlank c = false ∧ c ≠ ',' ∧ c ≠ '{' := by
  simp only [isClosing, Bool.or_eq_true, beq_iff_eq] at h
  rcases h with (rfl | rfl) | rfl <;> decide

/-- A statement ends before a bracket that closes none of its own, whatever is past that. -/
theorem Balanced.readFrom_closing {text : List Char} (h : Balanced text) {c : Char}
    (hc : isClosing c) (part : DeclaratorPart) (last : Option Char) (rest rest' : List Char) :
    readFrom part 0 last (text ++ c :: rest) = readFrom part 0 last (text ++ c :: rest') := by
  induction h generalizing part last with
  | nil =>
    have hends (rest : List Char) : Ends (c :: rest) := fun d _ heq =>
      .inl (by rwa [← (List.cons_eq_cons.mp heq).1])
    rw [List.nil_append, List.nil_append, readFrom_ends (hends rest), readFrom_ends (hends rest')]
  | @char d text hd _ ih =>
    obtain ⟨hblank, hne⟩ := closing_ne hc
    have hcontinues (rest : List Char) : continues (text ++ c :: rest) = continues text :=
      continues_append hblank hne text rest
    have hhead : (text ++ c :: rest).head? = (text ++ c :: rest').head? := by cases text <;> rfl
    rw [List.cons_append, List.cons_append]
    by_cases hends : d = '\n' ∧ continues text = false
    · obtain ⟨rfl, hends⟩ := hends
      rw [readFrom_end ((hcontinues rest).trans hends),
        readFrom_end ((hcontinues rest').trans hends)]
    · rw [readFrom_plain hd (by rwa [hcontinues]), readFrom_plain hd (by rwa [hcontinues]), hhead]
      simp only [ih]
  | @group o e inner text ho he hinner _ _ ih =>
    simp only [List.cons_append, List.append_assoc, (readFrom_passes part).group ho he hinner, ih]

/-- The same declarators, except for a semicolon at the end of the last one. -/
inductive SameButEnd : List (List Char) → List (List Char) → Prop
  | refl (parts : List (List Char)) : SameButEnd parts parts
  | last {part : List Char} : Balanced part → SameButEnd [part] [part ++ [';']]
  | cons (part : List Char) {parts parts' : List (List Char)} : SameButEnd parts parts' →
      SameButEnd (part :: parts) (part :: parts')

theorem SameButEnd.foldr {parts parts' : List (List Char)} (h : SameButEnd parts parts')
    {text : List Char} (htext : Balanced text) :
    SameButEnd (text.foldr Text.consFirst parts) (text.foldr Text.consFirst parts') := by
  cases h with
  | refl => exact .refl _
  | last hpart =>
    rw [foldr_consFirst, foldr_consFirst, ← List.append_assoc]
    exact .last (htext.append hpart)
  | cons part h =>
    rw [foldr_consFirst, foldr_consFirst]
    exact .cons _ h

theorem DeclaratorPart.semicolon_after? (part : DeclaratorPart) (last next : Option Char) :
    part.after? last ';' next = some part := by
  cases part with
  | target => exact target_after? (by decide) _ _
  | typed angles => exact typed_after? (by decide) _ _ _
  | initializer => exact initializer_after? (by decide) _ _

/-- A statement that nothing continues ends at a semicolon and a line feed, if not before. -/
theorem Balanced.readFrom_semicolon {text : List Char} (h : Balanced text) {rest : List Char}
    (hrest : continues rest = false) (part : DeclaratorPart) (last : Option Char) :
    SameButEnd (readFrom part 0 last text)
      (readFrom part 0 last (text ++ ';' :: '\n' :: rest)) := by
  induction h generalizing part last with
  | nil =>
    have hread : readFrom part 0 last (';' :: '\n' :: rest) = [[';']] := by
      rw [readFrom_plain (by decide) (by simp), part.semicolon_after?]
      simp only [readFrom_end hrest]
      rfl
    rw [List.nil_append, hread]
    exact .last .nil
  | @char c text hc _ ih =>
    have hcontinues : continues (text ++ ';' :: '\n' :: rest) = continues text :=
      continues_append (by decide) (by decide) text _
    have hhead : (text ++ ';' :: '\n' :: rest).head? = some '>' ↔ text.head? = some '>' := by
      cases text <;> simp
    rw [List.cons_append]
    by_cases hends : c = '\n' ∧ continues text = false
    · obtain ⟨rfl, hends⟩ := hends
      rw [readFrom_end hends, readFrom_end (hcontinues.trans hends)]
      exact .refl _
    · rw [readFrom_plain hc hends, readFrom_plain hc (by rwa [hcontinues]),
        part.after?_congr last c hhead]
      cases part.after? last c text.head? with
      | none => exact .cons [] (ih .target (some c))
      | some next => exact (ih next (some c)).foldr (.char hc .nil)
  | @group o c inner text ho hc hinner _ _ ih =>
    have hgroup : Balanced (o :: (inner ++ [c])) := .group ho hc hinner .nil
    simp only [List.cons_append, List.append_assoc, (readFrom_passes part).group ho hc hinner]
    exact (ih part (some c)).foldr hgroup

/-! ## Declarators -/

theorem Balanced.of_blanks {blanks text : List Char} (hblanks : Blanks blanks)
    (h : Balanced (blanks ++ text)) : Balanced text := by
  induction blanks with
  | nil => exact h
  | cons c blanks ih =>
    obtain ⟨hc, hrest⟩ := List.forall_mem_cons.mp hblanks
    exact ih hrest (h.of_cons (isPlain_of_isBlank hc))

/-- A semicolon at the end of a declarator is no part of what it binds. -/
theorem declaratorTarget_semicolon {part : List Char} (h : Balanced part) :
    declaratorTarget (part ++ [';']) = declaratorTarget part := by
  obtain ⟨blanks, hblanks, hpart⟩ := skipBlanks_start id part
  rw [List.map_id] at hblanks
  cases htext : skipBlanks id part with
  | nil =>
    rw [htext, List.append_nil] at hpart
    subst hpart
    have htrim : Text.trim part = [] := by simpa using trim_pad hblanks .nil .nil
    rw [declaratorTarget_name hblanks (by decide) (by decide), declaratorTarget, htrim]
    rfl
  | cons c text =>
    have hc : Text.isBlank c = false := by
      have hstop := List.head?_dropWhile_not Text.isBlank part
      rw [show part.dropWhile Text.isBlank = c :: text from htext] at hstop
      simpa using hstop
    rw [htext] at hpart
    subst hpart
    have hbalanced := h.of_blanks hblanks
    rw [List.append_assoc, List.cons_append]
    by_cases hbracket : c = '{' ∨ c = '['
    · -- The bracket that the declarator starts with is closed in it.
      have hopening : isOpening c := by rcases hbracket with rfl | rfl <;> decide
      obtain ⟨inner, d, rest, hinner, hd, rfl⟩ := hbalanced.exists_group hopening
      rw [List.append_assoc, List.cons_append, declaratorTarget_group hblanks hbracket hd hinner,
        declaratorTarget_group hblanks hbracket hd hinner]
    · rw [declaratorTarget_name hblanks hc hbracket, declaratorTarget_name hblanks hc hbracket]
      exact takeWhile_parted (c :: text) (.cons (by decide) [])

theorem SameButEnd.boundNames {parts parts' : List (List Char)} (h : SameButEnd parts parts') :
    (parts'.flatMap fun part => patternNames (declaratorTarget part)) =
      parts.flatMap fun part => patternNames (declaratorTarget part) := by
  induction h with
  | refl => rfl
  | last hpart =>
    rw [List.flatMap_singleton, List.flatMap_singleton, declaratorTarget_semicolon hpart]
  | cons part _ ih => rw [List.flatMap_cons, List.flatMap_cons, ih]

/-- The names that the statement at a place of a balanced text binds, whatever follows that text. -/
theorem boundNames_semicolon {text part rest : List Char} (h : Balanced text)
    (hpart : part <:+ text) (hrest : continues rest = false) :
    boundNames (statement (part ++ ';' :: '\n' :: rest)) = boundNames (statement part) := by
  rw [boundNames, boundNames, declarators_statement, declarators_statement]
  rcases h.suffix hpart with hbalanced | ⟨inner, c, past, hinner, hc, rfl⟩
  · exact (hbalanced.readFrom_semicolon hrest .target none).boundNames
  · rw [List.append_assoc, List.cons_append, hinner.readFrom_closing hc]

/-! ## Exports -/

theorem exportWord?_semicolon (last : Option Char) (text rest : List Char) :
    exportWord? last (text ++ ';' :: rest) = (exportWord? last text).map (· ++ ';' :: rest) := by
  have hmark : ';' ∉ ['e', 'x', 'p', 'o', 'r', 't'] := by decide
  have hc : id ';' = ';' := rfl
  rw [exportWord?, exportWord?, dropMark?_semicolon hc text rest hmark]
  split
  · rfl
  · rfl

theorem exportWord?_none (last : Option Char) {c : Char} (hc : c = ';' ∨ c = '\n')
    (rest : List Char) : exportWord? last (c :: rest) = none := by
  have hmark : c ∉ ['e', 'x', 'p', 'o', 'r', 't'] := by rcases hc with rfl | rfl <;> decide
  rw [exportWord?, dropMark?_none (List.cons_ne_nil _ _) hmark]
  split
  · rfl
  · rfl

theorem exportWord?_start {last : Option Char} (h : outsideWord id last) (text : List Char) :
    exportWord? last text = exportWord? none text := by
  rw [exportWord?, exportWord?, h]
  rfl

theorem blank?_semicolon (text rest : List Char) :
    blank? (text ++ ';' :: rest) = (blank? text).map (· ++ ';' :: rest) := by
  cases text with
  | nil => rfl
  | cons c text =>
    rw [List.cons_append, blank?, blank?]
    split
    · rfl
    · rfl

theorem exportBinding?_local (text : List Char) :
    Local id text (fun more rest => rest ++ more) exportBinding? where
  length_le last part found n h := by
    simp only [exportBinding?, Option.bind_eq_bind, Option.bind_eq_some_iff] at h
    obtain ⟨_, -, _, -, _, -, _, -, h⟩ := h
    obtain ⟨-, rfl⟩ := Prod.mk.inj (Option.some.inj h)
    omega
  semicolon last part c rest _ hc := by
    obtain rfl : ';' = c := hc.symm
    have hwords : ∀ m ∈ [("const", ()), ("let", ())], ';' ∉ m.1.toList := by decide
    simp only [exportBinding?, exportWord?_semicolon]
    cases exportWord? last part with
    | none => rfl
    | some past =>
      simp only [Option.bind_eq_bind, Option.map_some, Option.bind_some, blank?_semicolon]
      cases blank? past with
      | none => rfl
      | some past =>
        simp only [Option.map_some, Option.bind_some, skipBlanks_semicolon hc,
          dropAny?_semicolon hc _ _ hwords]
        cases dropAny? id (skipBlanks id past) [("const", ()), ("let", ())] with
        | none => rfl
        | some found =>
          simp only [Option.map_some, Option.bind_some, Prod.map, blank?_semicolon]
          cases blank? found.2 with
          | none => rfl
          | some past =>
            simp only [Option.map_some, Option.bind_some, upTo_append_right]
            rfl
  boundary last c rest hc := by
    have hc' : c = ';' ∨ c = '\n' := hc
    rw [exportBinding?, exportWord?_none last hc']
    rfl
  start last part hlast := by simp only [exportBinding?, exportWord?_start hlast]

theorem exportWord?_suffix {last : Option Char} {text rest : List Char}
    (h : exportWord? last text = some rest) : rest <:+ text := by
  rw [exportWord?] at h
  split at h
  · exact dropMark?_isSuffix h
  · cases h

/-- Where a text ends in itself, what follows it does not matter. -/
theorem span_append {p : Char → Bool} {text : List Char} (h : ∃ c ∈ text, p c = false)
    (more : List Char) : (text ++ more).takeWhile p = text.takeWhile p ∧
      (text ++ more).dropWhile p = text.dropWhile p ++ more := by
  induction text with
  | nil => simp at h
  | cons c text ih =>
    simp only [List.cons_append, List.takeWhile_cons, List.dropWhile_cons]
    cases hc : p c with
    | false => exact ⟨rfl, rfl⟩
    | true =>
      obtain ⟨d, hd, hp⟩ := h
      rcases List.mem_cons.mp hd with rfl | hd
      · simp [hc] at hp
      · obtain ⟨htake, hdrop⟩ := ih ⟨d, hd, hp⟩
        exact ⟨congrArg (c :: ·) htake, hdrop⟩

/-- The braces of an export list in a matched text are closed in it. -/
theorem exists_brace {text rest : List Char} (h : Matched text) (hrest : '{' :: rest <:+ text) :
    ∃ c ∈ rest, (decide (c ≠ '}')) = false := by
  obtain ⟨before, rfl⟩ := hrest
  obtain ⟨inner, c, past, hpair, -, rfl⟩ := h.closes (by decide)
  obtain rfl : c = '}' := by simpa [bracketPairs] using hpair
  exact ⟨'}', by simp, by simp⟩

theorem exportList?_local {text : List Char} (h : Matched text) :
    Local id text (fun _ list => list) exportList? where
  length_le last part found n hfind := by
    simp only [exportList?, Option.bind_eq_bind, Option.bind_eq_some_iff] at hfind
    obtain ⟨_, -, _, -, _, -, hfind⟩ := hfind
    obtain ⟨-, rfl⟩ := Prod.mk.inj (Option.some.inj hfind)
    omega
  semicolon last part c rest hpart hc := by
    obtain rfl : ';' = c := hc.symm
    have hopen : ';' ∉ ['{'] := by decide
    have hclose : ';' ∉ ['}'] := by decide
    simp only [exportList?, exportWord?_semicolon]
    cases hword : exportWord? last part with
    | none => rfl
    | some past =>
      simp only [Option.bind_eq_bind, Option.map_some, Option.bind_some, skipBlanks_semicolon hc,
        dropMark?_semicolon hc _ _ hopen]
      cases hbrace : dropMark? id ['{'] (skipBlanks id past) with
      | none => rfl
      | some list =>
        -- The text is matched, so the brace that ends the list stands in it.
        have hsuffix : '{' :: list <:+ text := by
          have hlist : skipBlanks id past = '{' :: list := dropMark?_eq_some hbrace
          have hpast : '{' :: list <:+ past := by
            rw [← hlist]
            exact List.dropWhile_suffix _
          exact hpast.trans ((exportWord?_suffix hword).trans hpart)
        obtain ⟨htake, hdrop⟩ := span_append (exists_brace h hsuffix) (';' :: rest)
        simp only [Option.map_some, Option.bind_some, htake, hdrop,
          dropMark?_semicolon hc _ _ hclose]
        cases dropMark? id ['}'] (list.dropWhile fun c => decide (c ≠ '}')) with
        | none => rfl
        | some past =>
          simp only [Option.map_some, Option.bind_some, upTo_append_right]
          rfl
  boundary last c rest hc := by
    have hc' : c = ';' ∨ c = '\n' := hc
    rw [exportList?, exportWord?_none last hc']
    rfl
  start last part hlast := by simp only [exportList?, exportWord?_start hlast]

/-- The names that a text exports, around a boundary. -/
theorem mem_exportsOf_boundary {text rest : List Char} (h : Matched text)
    (hrest : continues rest = false) (name : String) :
    name ∈ exportsOf (text ++ ';' :: '\n' :: rest) ↔
      name ∈ exportsOf text ∨ name ∈ exportsOf rest := by
  have hbindings := (exportBinding?_local text).scan_boundary (c := ';') (d := '\n') rfl rfl rest
  have hlists := (exportList?_local h).scan_boundary (c := ';') (d := '\n') rfl rfl rest
  have hnames : ((scan exportBinding? text).map (· ++ ';' :: '\n' :: rest)).flatMap
        (fun rest => boundNames (statement rest)) =
      (scan exportBinding? text).flatMap fun rest => boundNames (statement rest) := by
    rw [List.flatMap_map]
    refine List.flatMap_congr fun part hmem => ?_
    obtain ⟨last, place, n, hplace, hfind⟩ := exists_of_mem_scanFrom hmem
    obtain ⟨-, opening, -, rfl, -⟩ := exportBinding?_eq_some.mp hfind
    exact boundNames_semicolon h.balanced ((List.suffix_append opening part).trans hplace) hrest
  rw [exportsOf, hbindings, hlists, List.flatMap_append, hnames, List.map_id', List.flatMap_append]
  simp only [exportsOf, List.mem_append]
  tauto

/-- **Locality.** Code put after a source, with a semicolon and a line feed between them, changes
nothing of what is found in the source: its brackets are in pairs, and it leaves no comment or
literal open. -/
theorem found_append {source appended : String}
    (hmask : maskedText (source ++ ";\n" ++ appended) =
      maskedText source ++ ";\n" ++ maskedText appended)
    (hsource : Matched (maskedText source).toList)
    (happended : ∀ c ∈ (Text.trimStart (maskedText appended).toList).head?, c ≠ ',' ∧ c ≠ '{')
    (file : String) :
    factoryCalls file (source ++ ";\n" ++ appended) =
        factoryCalls file source ++ factoryCalls file appended ∧
      ∀ name, name ∈ exportedNames (source ++ ";\n" ++ appended) ↔
        name ∈ exportedNames source ∨ name ∈ exportedNames appended := by
  have hwhole := mask_boundary hmask
  have hshown := matched_shown hsource
  refine ⟨factoryCalls_boundary file hwhole hshown, fun name => ?_⟩
  have htext : shownText (source ++ ";\n" ++ appended) =
      shownText source ++ ';' :: '\n' :: shownText appended := by
    rw [shownText, hwhole, List.map_append, List.map_append]
    rfl
  have hcontinues : continues (shownText appended) = false := by
    rw [maskedText, String.toList_ofList, ← trimStart_shown] at happended
    exact not_continues happended
  simp only [exportedNames, mem_firstSeen, htext]
  exact mem_exportsOf_boundary hshown hcontinues name

/-- Two statements, each with a call that it exports. -/
theorem found_append_of_calls :
    let source := "export const a=crud('b')"
    let appended := "export const c=crud('d')"
    factoryCalls "e.ts" (source ++ ";\n" ++ appended) =
        factoryCalls "e.ts" source ++ factoryCalls "e.ts" appended ∧
      ∀ name, name ∈ exportedNames (source ++ ";\n" ++ appended) ↔
        name ∈ exportedNames source ∨ name ∈ exportedNames appended := by
  have hmatched : Matched (maskedText "export const a=crud('b')").toList := by
    have htext : (maskedText "export const a=crud('b')").toList =
        "export const a=crud".toList ++ '(' :: (['\'', ' ', '\''] ++ ')' :: []) := by
      decide +kernel
    rw [htext]
    exact (Matched.of_all (by decide)).append
      (.group (by decide) (Matched.of_all (by decide)) .nil)
  have hfirst : ∀ c ∈ (Text.trimStart (maskedText "export const c=crud('d')").toList).head?,
      c ≠ ',' ∧ c ≠ '{' := by
    have hexport : (Text.trimStart (maskedText "export const c=crud('d')").toList).head? =
        some 'e' := by decide +kernel
    rw [hexport]
    simp
  exact found_append (by decide +kernel) hmatched hfirst "e.ts"

end ClientBindings.Source
