import ClientBindings.Check.SchemaSource
import ClientBindings.Proofs.Source.Scanning

/-!
# Entries of table maps

The entries `name: builder(…)` of a schema source, and the maps that list them.

* `EntryOpening`, `openedTable?_finds`: the opening of an entry, and the search for it.
* `entries_closing`: no entry reaches past a closing parenthesis, so that what is found in the
  arguments of an entry is found there alone.
* `TableEntry`, `MapBody`: an entry with its arguments, and the text between the braces of a map.
* `MapBody.finds`: in a map the search finds the entries, and those within their arguments.
-/

namespace ClientBindings.Check

open Source

/-! ## Openings -/

/-- The opening `name: builder(` of an entry. -/
inductive EntryOpening (builder : String) : List Char → String → Prop
  | mk {name gap lead : List Char} : name ≠ [] → (∀ c ∈ name, Text.isWord c) → Blanks gap →
      Blanks lead →
      EntryOpening builder (name ++ (gap ++ ':' :: (lead ++ (builder.toList ++ ['(']))))
        (String.ofList name)

/-- An entry opens wherever its opening stands. -/
def OpensEntry (builder : String) (_ : Option Char) (opening _ : List Char) (name : String) : Prop :=
  EntryOpening builder opening name

section Openings

variable {builder : String}

theorem EntryOpening.of_openedTable? {last : Option Char} {text : List Char} {name : String} {n : Nat}
    (h : openedTable? builder last text = some (name, n)) :
    ∃ opening rest, EntryOpening builder opening name ∧ text = opening ++ rest ∧
      n = opening.length := by
  rw [openedTable?] at h
  split at h
  · cases h
  next hname =>
    simp only [Option.bind_eq_bind, Option.bind_eq_some_iff] at h
    obtain ⟨pastColon, hcolon, rest, hbuilder, hup⟩ := h
    obtain ⟨gap, hgap, hpastName⟩ := exists_skipBlanks (text.dropWhile Text.isWord)
    obtain ⟨lead, hlead, hpastColon⟩ := exists_skipBlanks pastColon
    rw [dropMark?_eq_some hcolon] at hpastName
    rw [dropMark?_eq_some hbuilder] at hpastColon
    let opening := text.takeWhile Text.isWord ++ (gap ++ ':' :: (lead ++ (builder.toList ++ ['('])))
    have htext : text = opening ++ rest := by
      calc text = text.takeWhile Text.isWord ++ text.dropWhile Text.isWord :=
            List.takeWhile_append_dropWhile.symm
        _ = text.takeWhile Text.isWord ++
              (gap ++ ([':'] ++ (lead ++ (builder.toList ++ ['('] ++ rest)))) := by
            rw [hpastName, hpastColon]
        _ = opening ++ rest := by simp [opening]
    have hword : ∀ c ∈ text.takeWhile Text.isWord, Text.isWord c := fun _ hc =>
      List.mem_takeWhile_imp hc
    have hentry : EntryOpening builder opening (String.ofList (text.takeWhile Text.isWord)) :=
      .mk (by simpa using hname) hword hgap hlead
    have hfound : upTo text rest (String.ofList (text.takeWhile Text.isWord)) = (name, n) :=
      Option.some.inj hup
    have hupTo := upTo_append opening rest (String.ofList (text.takeWhile Text.isWord))
    rw [← htext, hfound] at hupTo
    obtain ⟨rfl, rfl⟩ := Prod.mk.inj hupTo
    exact ⟨opening, rest, hentry, htext, rfl⟩

/-- A word ends before a character that is none of a word. -/
theorem span_word {name tail : List Char} (hword : ∀ c ∈ name, Text.isWord c)
    (htail : ∀ c ∈ tail.head?, Text.isWord c = false) :
    (name ++ tail).takeWhile Text.isWord = name ∧ (name ++ tail).dropWhile Text.isWord = tail := by
  rw [List.takeWhile_append_of_pos hword, List.dropWhile_append_of_pos hword]
  cases tail with
  | nil => simp
  | cons c tail => simp [htail c rfl]

theorem EntryOpening.openedTable?_eq {b : Char} {mark : List Char}
    (hbuilder : builder.toList = b :: mark) (hb : Text.isBlank b = false) {opening : List Char}
    {name : String} (h : EntryOpening builder opening name) (last : Option Char)
    (rest : List Char) :
    openedTable? builder last (opening ++ rest) = some (name, opening.length) := by
  cases h with
  | @mk name gap lead hname hword hgap hlead =>
    let tail := gap ++ ([':'] ++ (lead ++ (builder.toList ++ ['('] ++ rest)))
    have htail : ∀ c ∈ tail.head?, Text.isWord c = false := by
      intro c hc
      cases gap with
      | nil =>
        obtain rfl : ':' = c := by simpa [tail] using hc
        decide
      | cons b gap =>
        obtain rfl : b = c := by simpa [tail] using hc
        exact isWord_of_isBlank (hgap b List.mem_cons_self)
    have hpastLead : ∀ c ∈ (builder.toList ++ ['('] ++ rest).head?, Text.isBlank c = false := by
      intro c hc
      obtain rfl : b = c := by simpa [hbuilder] using hc
      exact hb
    have htext : name ++ (gap ++ ':' :: (lead ++ (builder.toList ++ ['(']))) ++ rest =
        name ++ tail := by simp [tail]
    obtain ⟨hspan, hpastName⟩ := span_word hword htail
    have hcolon : skipBlanks id tail = [':'] ++ (lead ++ (builder.toList ++ ['('] ++ rest)) :=
      skipBlanks_append hgap (by simp; decide)
    rw [openedTable?, htext, hspan, hpastName, if_neg (by simpa using hname), hcolon,
      dropMark?_append]
    simp only [Option.bind_eq_bind, Option.bind_some, skipBlanks_append hlead hpastLead,
      dropMark?_append]
    rw [← htext, upTo_append]
    rfl

/-- An opening starts with a character of a word. -/
theorem EntryOpening.exists_cons {opening : List Char} {name : String}
    (h : EntryOpening builder opening name) : ∃ c more, opening = c :: more ∧ Text.isWord c := by
  cases h with
  | @mk name gap lead hname hword _ _ =>
    cases name with
    | nil => exact absurd rfl hname
    | cons c name => exact ⟨c, _, rfl, hword c List.mem_cons_self⟩

theorem openedTable?_finds {b : Char} {mark : List Char} (hbuilder : builder.toList = b :: mark)
    (hb : Text.isBlank b = false) : Finds (openedTable? builder) (OpensEntry builder) where
  eq_some last text found n := by
    constructor
    · exact EntryOpening.of_openedTable?
    · rintro ⟨opening, rest, hopens, rfl, rfl⟩
      exact EntryOpening.openedTable?_eq hbuilder hb hopens last rest
  ne_nil last opening rest found hopens := by
    obtain ⟨c, more, rfl, -⟩ := EntryOpening.exists_cons hopens
    exact List.cons_ne_nil c more

theorem openedObject_finds : Finds (openedTable? "object") (OpensEntry "object") :=
  openedTable?_finds (b := 'o') rfl (by decide)

theorem openedChild_finds : Finds (openedTable? "child") (OpensEntry "child") :=
  openedTable?_finds (b := 'c') rfl (by decide)

/-- No parenthesis is closed in an opening. -/
theorem EntryOpening.unclosed (hbuilder : ')' ∉ builder.toList) {opening : List Char} {name : String}
    (h : EntryOpening builder opening name) : ')' ∉ opening := by
  cases h with
  | @mk name gap lead hname hword hgap hlead =>
    have hblank {blanks : List Char} (h : Blanks blanks) : ')' ∉ blanks := fun hmem =>
      ne_of_isBlank (h ')' hmem) (d := ')') (by decide) rfl
    have hname : ')' ∉ name := fun hmem => ne_of_isWord (hword ')' hmem) (d := ')') (by decide) rfl
    simp [hname, hblank hgap, hblank hlead, hbuilder]

/-! ## Entries in a text -/

/-- Whether an entry opens does not depend on the character before it. -/
theorem entries_after {last : Option Char} {text : List Char} {names : List String}
    (h : Occurrences (OpensEntry builder) last text names) (other : Option Char) :
    Occurrences (OpensEntry builder) other text names := by
  cases h with
  | nil => exact .nil
  | pass hnone hrest => exact .pass hnone hrest
  | @found _ opening rest name names hopens hrest =>
    obtain ⟨c, more, rfl, -⟩ := EntryOpening.exists_cons hopens
    exact .found hopens hrest

/-- No entry opens at a character that is none of a word. -/
theorem entries_pass {last : Option Char} {gap rest : List Char} {names : List String}
    (hgap : ∀ c ∈ gap, Text.isWord c = false)
    (hrest : Occurrences (OpensEntry builder) last rest names) :
    Occurrences (OpensEntry builder) last (gap ++ rest) names := by
  induction gap with
  | nil => exact hrest
  | cons c gap ih =>
    have htail := ih fun d hd => hgap d (List.mem_cons_of_mem c hd)
    refine .pass (fun opening past name htext hopens => ?_) (entries_after htail (some c))
    obtain ⟨d, more, rfl, hword⟩ := EntryOpening.exists_cons hopens
    obtain rfl : c = d := (List.cons.inj htext).1
    rw [hgap c List.mem_cons_self] at hword
    exact Bool.false_ne_true hword

theorem entries_blanks {blanks : List Char} (h : Blanks blanks) (last : Option Char) :
    Occurrences (OpensEntry builder) last blanks [] := by
  have hpass : Occurrences (OpensEntry builder) last (blanks ++ []) [] :=
    entries_pass (fun c hc => isWord_of_isBlank (h c hc)) .nil
  rwa [List.append_nil] at hpass

/-- A closing parenthesis stands between the entries before it and those after it. -/
theorem entries_closing (hbuilder : ')' ∉ builder.toList) {last : Option Char}
    {text rest : List Char} {names others : List String}
    (htext : Occurrences (OpensEntry builder) last text names)
    (hrest : Occurrences (OpensEntry builder) none rest others) :
    Occurrences (OpensEntry builder) last (text ++ ')' :: rest) (names ++ others) := by
  induction htext with
  | nil =>
    have hparen : ∀ c ∈ [')'], Text.isWord c = false := by
      simp only [List.forall_mem_singleton]
      decide
    exact entries_after (entries_pass hparen hrest) _
  | @pass last c text names hnone _ ih =>
    refine .pass (fun opening past name heq hopens => ?_) ih
    have happend : (c :: text) ++ ')' :: rest = opening ++ past := heq
    rcases List.append_eq_append_iff.mp happend with ⟨gap, rfl, hgap⟩ | ⟨gap, htext, -⟩
    · cases gap with
      | nil =>
        rw [List.append_nil] at hopens
        exact hnone (c :: text) [] name (List.append_nil _).symm hopens
      | cons d gap =>
        obtain rfl : ')' = d := (List.cons.inj hgap).1
        exact EntryOpening.unclosed hbuilder hopens (by simp)
    · exact hnone opening gap name htext hopens
  | found hopens _ ih =>
    rw [List.append_assoc]
    exact .found hopens ih

end Openings

/-! ## Bodies of maps -/

/-- An entry `name: object(arguments)` of a table map. -/
structure TableEntry where
  name : String
  opening : List Char
  arguments : List Char
  /-- The names of the entries `name: object(` in the arguments. -/
  fields : List String
  opens : EntryOpening "object" opening name
  matched : Matched arguments
  lists : Occurrences (OpensEntry "object") none arguments fields

namespace TableEntry

/-- The entry in a map. -/
def text (entry : TableEntry) : List Char := entry.opening ++ (entry.arguments ++ [')'])

/-- What a search for entries finds in the entry: its name, and the names in its arguments. -/
def names (entry : TableEntry) : List String := entry.name :: entry.fields

variable {entry : TableEntry}

theorem matched_text : Matched entry.text := by
  obtain ⟨name, opening, arguments, fields, hopens, harguments, -⟩ := entry
  cases hopens with
  | @mk word gap lead _ hword hgap hlead =>
    have hobject : ∀ c ∈ "object".toList, Text.isWord c := List.all_eq_true.mp (by decide)
    have hplain : ∀ c ∈ word ++ (gap ++ ':' :: (lead ++ "object".toList)), IsPlain c := by
      intro c hc
      simp only [List.mem_append, List.mem_cons] at hc
      rcases hc with hc | hc | rfl | hc | hc
      · exact isPlain_of_isWord (hword c hc)
      · exact isPlain_of_isBlank (hgap c hc)
      · decide
      · exact isPlain_of_isBlank (hlead c hc)
      · exact isPlain_of_isWord (hobject c hc)
    have hgroup : Matched ('(' :: (arguments ++ ')' :: [])) := .group (by decide) harguments .nil
    simpa [text] using (Matched.of_forall hplain).append hgroup

/-- The entry is found, and what its arguments have, before what follows it. -/
theorem entries_text {last : Option Char} {rest : List Char} {names : List String}
    (hrest : Occurrences (OpensEntry "object") none rest names) :
    Occurrences (OpensEntry "object") last (entry.text ++ rest) (entry.names ++ names) := by
  have hinside := entries_closing (by decide) entry.lists hrest
  have hentry : Occurrences (OpensEntry "object") last
      (entry.opening ++ (entry.arguments ++ ')' :: rest)) (entry.name :: (entry.fields ++ names)) :=
    .found entry.opens (entries_after hinside _)
  simpa [text, TableEntry.names] using hentry

end TableEntry

/-- The text between the braces of a table map, with its entries: commas between them, and possibly
one past the last. -/
inductive MapBody : List Char → List TableEntry → Prop
  | none {blanks : List Char} : Blanks blanks → MapBody blanks []
  | last {before after : List Char} (entry : TableEntry) : Blanks before → Blanks after →
      MapBody (before ++ (entry.text ++ after)) [entry]
  | more {before after rest : List Char} {entries : List TableEntry} (entry : TableEntry) :
      Blanks before → Blanks after → MapBody rest entries →
      MapBody (before ++ (entry.text ++ (after ++ ',' :: rest))) (entry :: entries)

namespace MapBody

variable {body : List Char} {entries : List TableEntry}

theorem matched (h : MapBody body entries) : Matched body := by
  have hblank {blanks : List Char} (h : Blanks blanks) : Matched blanks :=
    .of_forall fun c hc => isPlain_of_isBlank (h c hc)
  induction h with
  | none hblanks => exact hblank hblanks
  | last entry hbefore hafter =>
    exact (hblank hbefore).append (entry.matched_text.append (hblank hafter))
  | more entry hbefore hafter _ ih =>
    exact (hblank hbefore).append
      (entry.matched_text.append ((hblank hafter).append (.char (by decide) ih)))

/-- What a search for entries finds in a map. -/
theorem finds (h : MapBody body entries) (last : Option Char) :
    Occurrences (OpensEntry "object") last body (entries.flatMap TableEntry.names) := by
  have hblank {blanks : List Char} (h : Blanks blanks) : ∀ c ∈ blanks, Text.isWord c = false :=
    fun c hc => isWord_of_isBlank (h c hc)
  induction h generalizing last with
  | none hblanks => exact entries_blanks hblanks last
  | last entry hbefore hafter =>
    rw [List.flatMap_singleton, ← List.append_nil entry.names]
    exact entries_pass (hblank hbefore) (entry.entries_text (entries_blanks hafter Option.none))
  | @more before after rest entries entry hbefore hafter _ ih =>
    have hcomma : ∀ c ∈ after ++ [','], Text.isWord c = false := by
      intro c hc
      rcases List.mem_append.mp hc with hc | hc
      · exact hblank hafter c hc
      · obtain rfl : c = ',' := by simpa using hc
        decide
    have hrest := entries_pass hcomma (ih Option.none)
    rw [List.append_assoc, List.singleton_append] at hrest
    exact entries_pass (hblank hbefore) (entry.entries_text (entries_after hrest Option.none))

end MapBody

end ClientBindings.Check
