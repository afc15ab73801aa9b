import ClientBindings.Client.Declaration
import ClientBindings.Json.Token
import ClientBindings.Proofs.Schema.Reading
import ClientBindings.Proofs.Text.CamelNames
import Mathlib.Data.List.Nodup

/-!
# Cases of enumerations

What the lines of an enumeration declare, and for which values it can be decoded and encoded.

* `IsIdentifier`, `Spells`, `ReadsAs`, `DeclaresCase`: identifiers of the client's language, plain
  or quoted; texts between quotes, read back with their escapes; the line of a case, with its name
  and raw value. A line declares one case at most (`DeclaresCase.unique`).
* `DeclaresEnum`: lines that declare a case for each value, under distinct names. Each value then
  comes back from being decoded and encoded (`DeclaresEnum.round_trip`).
* `EnumDecl.declaresEnum_iff`: the values for which an enumeration is so. A value that is an
  identifier or a keyword gives a case unless it is the underscore; any other one has a camel-case
  name, which may be missing, a keyword, no identifier or taken, and is written between quotes as it
  is.
-/

namespace ClientBindings

open Text (isCombining isIdentifierLetter isLetterOrNumber lowerCamel verticalTilde)

/-! ## Lines of cases -/

/-- May stand in an identifier. -/
def isIdentifierPart (c : Char) : Bool := c == '_' || isIdentifierLetter c

/-- The text is an identifier. The underscore alone is none. -/
structure IsIdentifier (name : String) : Prop where
  parts : ∀ c ∈ name.toList, isIdentifierPart c = true
  first : ∃ c rest, name.toList = c :: rest ∧ c.isDigit = false ∧ isCombining c = false
  named : name ≠ "_"

/-- How a name is written: as it is unless it is a keyword, or between backquotes. -/
inductive Spells (name : String) : String → Prop
  | bare (hname : IsIdentifier name) (hkeyword : name ∉ keywords) : Spells name name
  | quoted (hname : IsIdentifier name) : Spells name ("`" ++ name ++ "`")

/-- The letters of escapes, with the characters that these stand for. -/
def escapes : List (Char × Char) :=
  [('0', '\x00'), ('\\', '\\'), ('t', '\t'), ('n', '\n'), ('r', '\r'), ('"', '"'), ('\'', '\'')]

/-- The characters that do not stand for themselves between quotes. -/
def specialChars : List Char := ['"', '\\', '\n', '\r']

/-- The number that hexadecimal digits give, after those that gave `code`. -/
def hexNumber? (code : Nat) : List Char → Option Nat
  | [] => some code
  | digit :: rest => (Json.Token.hexDigit? digit).bind fun value =>
    hexNumber? (code * 16 + value) rest

/-- The text between quotes reads as the value. -/
inductive ReadsAs : List Char → List Char → Prop
  | nil : ReadsAs [] []
  | plain {c : Char} {text value : List Char} (hc : c ∉ specialChars) (h : ReadsAs text value) :
      ReadsAs (c :: text) (c :: value)
  | escape {letter c : Char} {text value : List Char} (hc : (letter, c) ∈ escapes)
      (h : ReadsAs text value) : ReadsAs ('\\' :: letter :: text) (c :: value)
  /-- A character by up to eight hexadecimal digits. -/
  | scalar {digits text value : List Char} {c : Char}
      (hlength : 0 < digits.length ∧ digits.length ≤ 8)
      (hc : hexNumber? 0 digits = some c.toNat) (h : ReadsAs text value) :
      ReadsAs ('\\' :: 'u' :: '{' :: digits ++ '}' :: text) (c :: value)

/-- The line declares a case of the given name and raw value. Without a text of its own, the raw
value is the name. -/
inductive DeclaresCase (name : String) : String → String → Prop
  | plain {spelling : String} (hname : Spells name spelling) :
      DeclaresCase name name ("case " ++ spelling)
  | literal {spelling text value : String} (hname : Spells name spelling)
      (hvalue : ReadsAs text.toList value.toList) :
      DeclaresCase name value ("case " ++ spelling ++ " = \"" ++ text ++ "\"")

/-- What stands before the first separator, and what after it. -/
theorem eq_of_append_cons {separator : Char} {before before' after after' : List Char}
    (h : before ++ separator :: after = before' ++ separator :: after')
    (hbefore : separator ∉ before) (hbefore' : separator ∉ before') :
    before = before' ∧ after = after' := by
  induction before generalizing before' with
  | nil =>
    cases before' with
    | nil => exact ⟨rfl, (List.cons.inj h).2⟩
    | cons c rest => exact absurd (List.cons.inj h).1 (List.ne_of_not_mem_cons hbefore')
  | cons c rest ih =>
    cases before' with
    | nil => exact absurd (List.cons.inj h).1.symm (List.ne_of_not_mem_cons hbefore)
    | cons d rest' =>
      obtain ⟨rfl, hrest⟩ := List.cons.inj h
      obtain ⟨rfl, hafter⟩ := ih hrest (List.not_mem_of_not_mem_cons hbefore)
        (List.not_mem_of_not_mem_cons hbefore')
      exact ⟨rfl, hafter⟩

theorem brace_not_mem {digits : List Char} {code number : Nat}
    (h : hexNumber? code digits = some number) : '}' ∉ digits := by
  induction digits generalizing code with
  | nil => exact List.not_mem_nil
  | cons digit rest ih =>
    obtain ⟨value, hdigit, hrest⟩ := Option.bind_eq_some_iff.mp h
    rw [List.mem_cons, not_or]
    refine ⟨?_, ih hrest⟩
    rintro rfl
    have hnone : Json.Token.hexDigit? '}' = none := by decide
    rw [hnone] at hdigit
    cases hdigit

/-- An escape stands for one character. -/
theorem escapes_functional {letter c d : Char} (hc : (letter, c) ∈ escapes)
    (hd : (letter, d) ∈ escapes) : c = d := by
  have hall : ∀ escape ∈ escapes, ∀ other ∈ escapes,
      escape.1 = other.1 → escape.2 = other.2 := by
    decide
  exact hall _ hc _ hd rfl

theorem not_escape_u (c : Char) : ('u', c) ∉ escapes := by
  simp [escapes]

/-- A text between quotes reads as one value. -/
theorem ReadsAs.unique {text value other : List Char} (h : ReadsAs text value)
    (hother : ReadsAs text other) : value = other := by
  induction h generalizing other with
  | nil =>
    cases hother
    rfl
  | plain hc _ ih =>
    cases hother with
    | plain _ h => rw [ih h]
    | escape | scalar => exact absurd (by decide) hc
  | escape hc _ ih =>
    cases hother with
    | plain hc' _ => exact absurd (by decide) hc'
    | escape hc' h => rw [ih h, escapes_functional hc hc']
    | scalar => exact absurd hc (not_escape_u _)
  | @scalar digits text value c _ hc _ ih =>
    generalize hline : '\\' :: 'u' :: '{' :: digits ++ '}' :: text = line at hother
    cases hother with
    | nil => cases hline
    | plain hc' _ =>
      cases hline
      exact absurd (by decide) hc'
    | escape hc' _ =>
      cases hline
      exact absurd hc' (not_escape_u _)
    | scalar _ hc' h =>
      simp only [List.cons_append, List.cons.injEq, true_and] at hline
      obtain ⟨rfl, rfl⟩ := eq_of_append_cons hline (brace_not_mem hc) (brace_not_mem hc')
      rw [ih h, Char.toNat_inj.mp (Option.some.inj (hc.symm.trans hc'))]

/-- What is read is not longer than the text, and shorter if the text has an escape. -/
theorem ReadsAs.length {text value : List Char} (h : ReadsAs text value) :
    value.length ≤ text.length ∧ (value.length = text.length → ∀ c ∈ text, c ∉ specialChars) := by
  induction h with
  | nil => simp
  | plain hc _ ih =>
    refine ⟨Nat.succ_le_succ ih.1, fun hlength => List.forall_mem_cons.mpr ⟨hc, ih.2 ?_⟩⟩
    exact Nat.succ_inj.mp hlength
  | escape _ _ ih =>
    simp only [List.length_cons]
    omega
  | scalar _ _ _ ih =>
    simp only [List.length_cons, List.length_append]
    omega

/-- A text between quotes reads as itself exactly if it has no special characters. -/
theorem readsAs_self_iff {text : List Char} :
    ReadsAs text text ↔ ∀ c ∈ text, c ∉ specialChars := by
  refine ⟨fun h => h.length.2 rfl, fun h => ?_⟩
  induction text with
  | nil => exact .nil
  | cons c rest ih =>
    obtain ⟨hc, hrest⟩ := List.forall_mem_cons.mp h
    exact .plain hc (ih hrest)

theorem IsIdentifier.not_mem {name : String} (h : IsIdentifier name) {c : Char}
    (hc : isIdentifierPart c = false) : c ∉ name.toList :=
  fun hmem => absurd (h.parts c hmem) (Bool.eq_false_iff.mp hc)

theorem toList_quoted (name : String) :
    ("`" ++ name ++ "`").toList = '`' :: (name.toList ++ ['`']) := by
  rw [String.toList_append, String.toList_append]
  rfl

theorem Spells.isIdentifier {name spelling : String} (h : Spells name spelling) :
    IsIdentifier name := by
  cases h with
  | bare hname | quoted hname => exact hname

/-- A name is written without blanks. -/
theorem Spells.blank_not_mem {name spelling : String} (h : Spells name spelling) :
    ' ' ∉ spelling.toList := by
  cases h with
  | bare hname => exact hname.not_mem (by decide)
  | quoted hname =>
    rw [toList_quoted]
    simpa using hname.not_mem (by decide)

/-- What is written stands for one name. -/
theorem Spells.unique {name other spelling : String} (h : Spells name spelling)
    (hother : Spells other spelling) : name = other := by
  have hquoted {name : String} (hname : IsIdentifier ("`" ++ name ++ "`")) : False := by
    refine hname.not_mem (c := '`') (by decide) ?_
    rw [toList_quoted]
    exact List.mem_cons_self
  generalize hwritten : spelling = written at hother
  cases h with
  | bare hname =>
    cases hother with
    | bare => exact hwritten
    | quoted => exact (hquoted (hwritten ▸ hname)).elim
  | quoted =>
    cases hother with
    | bare hname => exact (hquoted (hwritten ▸ hname)).elim
    | quoted =>
      have hlist := congrArg String.toList hwritten
      rw [toList_quoted, toList_quoted] at hlist
      exact String.toList_inj.mp (List.append_cancel_right (List.cons.inj hlist).2)

/-- Two lines with texts of their own that are the same have the same parts. -/
theorem literal_inj {spelling spelling' text text' : String}
    (h : "case " ++ spelling ++ " = \"" ++ text ++ "\"" =
      "case " ++ spelling' ++ " = \"" ++ text' ++ "\"")
    (hspelling : ' ' ∉ spelling.toList) (hspelling' : ' ' ∉ spelling'.toList) :
    spelling = spelling' ∧ text = text' := by
  have hlist := congrArg String.toList h
  simp only [String.toList_append, List.append_assoc] at hlist
  obtain ⟨hname, htext⟩ := eq_of_append_cons (List.append_cancel_left hlist) hspelling hspelling'
  have htext : ['=', ' ', '"'] ++ (text.toList ++ ['"']) =
      ['=', ' ', '"'] ++ (text'.toList ++ ['"']) := htext
  rw [List.append_cancel_left_eq, List.append_cancel_right_eq, String.toList_inj] at htext
  exact ⟨String.toList_inj.mp hname, htext⟩

/-- A line with a text of its own is none without. -/
theorem literal_ne_plain {spelling spelling' text : String} (hspelling : ' ' ∉ spelling.toList) :
    "case " ++ spelling ≠ "case " ++ spelling' ++ " = \"" ++ text ++ "\"" := by
  intro h
  have hlist := congrArg String.toList h
  simp only [String.toList_append, List.append_assoc] at hlist
  rw [List.append_cancel_left hlist] at hspelling
  exact hspelling (List.mem_append_right _ List.mem_cons_self)

/-- A line declares one case at most. -/
theorem DeclaresCase.unique {name other value value' line : String}
    (h : DeclaresCase name value line) (hother : DeclaresCase other value' line) :
    name = other ∧ value = value' := by
  generalize hline : line = line' at hother
  cases h with
  | plain hname =>
    cases hother with
    | plain hname' =>
      obtain rfl := (String.append_right_inj _).mp hline
      have hsame := hname.unique hname'
      exact ⟨hsame, hsame⟩
    | literal => exact absurd hline (literal_ne_plain hname.blank_not_mem)
  | literal hname hvalue =>
    cases hother with
    | plain hname' => exact absurd hline.symm (literal_ne_plain hname'.blank_not_mem)
    | literal hname' hvalue' =>
      obtain ⟨rfl, rfl⟩ := literal_inj hline hname.blank_not_mem hname'.blank_not_mem
      exact ⟨hname.unique hname', String.toList_inj.mp (hvalue.unique hvalue')⟩

/-! ## Lines of enumerations -/

/-- The lines declare a case for each value, in order and under distinct names. -/
def DeclaresEnum (lines values : List String) : Prop :=
  ∃ cases : Entries String, cases.names.Nodup ∧ cases.map (·.2) = values ∧
    List.Forall₂ (fun declared line => DeclaresCase declared.1 declared.2 line) cases lines

/-- A value is decoded as the case of a name: some line declares it with that raw value. -/
def Decodes (lines : List String) (value name : String) : Prop :=
  ∃ line ∈ lines, DeclaresCase name value line

/-- What is decoded is what is declared. -/
theorem decodes_iff {cases : Entries String} {lines : List String} {value name : String}
    (h : List.Forall₂ (fun declared line => DeclaresCase declared.1 declared.2 line) cases lines) :
    Decodes lines value name ↔ (name, value) ∈ cases := by
  constructor
  · rintro ⟨line, hline, hcase⟩
    induction h with
    | nil => cases hline
    | @cons declared first rest lines hfirst _ ih =>
      rcases List.mem_cons.mp hline with rfl | hline
      · obtain ⟨hname, hvalue⟩ := hcase.unique hfirst
        exact List.mem_cons.mpr (.inl (Prod.ext hname hvalue))
      · exact List.mem_cons_of_mem _ (ih hline)
  · intro hmem
    induction h with
    | nil => cases hmem
    | @cons declared first rest lines hfirst _ ih =>
      rcases List.mem_cons.mp hmem with rfl | hmem
      · exact ⟨first, List.mem_cons_self, hfirst⟩
      · obtain ⟨line, hline, hcase⟩ := ih hmem
        exact ⟨line, List.mem_cons_of_mem _ hline, hcase⟩

/-- In an enumeration that declares a case for each of several distinct values,
every value is decoded as one case, and that case is encoded as the value. -/
theorem DeclaresEnum.round_trip {lines values : List String} (h : DeclaresEnum lines values)
    (hvalues : values.Nodup) {value : String} (hvalue : value ∈ values) :
    ∃ name, (∀ other, Decodes lines value other ↔ other = name) ∧
      ∀ read, Decodes lines read name ↔ read = value := by
  obtain ⟨cases, hnames, rfl, hlines⟩ := h
  obtain ⟨⟨name, value⟩, hmem, rfl⟩ := List.mem_map.mp hvalue
  refine ⟨name, fun other => ?_, fun read => ?_⟩
  · rw [decodes_iff hlines]
    refine ⟨fun hother => ?_, fun h => h ▸ hmem⟩
    exact congrArg Prod.fst (List.inj_on_of_nodup_map hvalues hother hmem rfl)
  · rw [decodes_iff hlines]
    refine ⟨fun hread => ?_, fun h => h ▸ hmem⟩
    exact congrArg Prod.snd (List.inj_on_of_nodup_map hnames hread hmem rfl)

/-! ## Cases of values -/

namespace EnumCase

/-- Whether a value is neither an identifier nor a keyword, so that its case has another name. -/
def isRewritten (value : String) : Bool :=
  !keywords.contains value && !isPlainIdentifier value.toList

/-- What a value must be for a case of another name to stand for it. -/
structure Rewritable (value : String) : Prop where
  /-- It has letters or numbers, the first of which can come first in a name. -/
  first : ∃ c rest, value.toList.filter isLetterOrNumber = c :: rest ∧ isCombining c = false
  letters : verticalTilde ∉ value.toList
  named : (ofValue value).name ∉ keywords
  plain : ∀ c ∈ value.toList, c ∉ specialChars

end EnumCase

theorem toNat_of_plain {c : Char} (h : (c.isAlphanum || c == '_') = true) : c.toNat < 128 := by
  rcases Bool.or_eq_true_iff.mp h with h | h
  · have hcodes := (Source.isAlphanum_iff c).mp h
    omega
  · rw [beq_iff_eq.mp h]
    decide

theorem plain_part {c : Char} (h : (c.isAlphanum || c == '_') = true) :
    isIdentifierPart c = true ∧ isCombining c = false := by
  have hfacts := Text.asciiFacts (toNat_of_plain h)
  refine ⟨?_, hfacts.not_combining⟩
  rw [isIdentifierPart, Bool.or_comm]
  exact Bool.or_eq_true_iff.mpr ((Bool.or_eq_true_iff.mp h).imp_left hfacts.letter)

theorem plain_first {c : Char} (h : (c.isAlpha || c == '_') = true) :
    (c.isAlphanum || c == '_') = true ∧ c.isDigit = false := by
  have hpart : (c.isAlphanum || c == '_') = true := by
    rw [Char.isAlphanum, Bool.or_right_comm, h]
    rfl
  refine ⟨hpart, ?_⟩
  rcases Bool.or_eq_true_iff.mp h with h | h
  · exact (Text.asciiFacts (toNat_of_plain hpart)).alpha h
  · rw [beq_iff_eq.mp h]
    rfl

theorem not_combining_digit {c : Char} (h : c.isDigit = true) : isCombining c = false :=
  (plain_part (by rw [Char.isAlphanum, h, Bool.or_true, Bool.true_or])).2

theorem plain_parts {cs : List Char} (h : isPlainIdentifier cs = true) :
    ∀ c ∈ cs, isIdentifierPart c = true := by
  cases cs with
  | nil => exact fun _ hc => absurd hc List.not_mem_nil
  | cons c rest =>
    rw [isPlainIdentifier, Bool.and_eq_true, List.all_eq_true] at h
    exact List.forall_mem_cons.mpr
      ⟨(plain_part (plain_first h.1).1).1, fun d hd => (plain_part (h.2 d hd)).1⟩

/-- A plain identifier is an identifier of the client's language unless it is the underscore. -/
theorem isIdentifier_of_plain {name : String} (h : isPlainIdentifier name.toList = true)
    (hnamed : name ≠ "_") : IsIdentifier name := by
  refine ⟨plain_parts h, ?_, hnamed⟩
  cases hlist : name.toList with
  | nil =>
    rw [hlist] at h
    cases h
  | cons c rest =>
    rw [hlist, isPlainIdentifier, Bool.and_eq_true] at h
    obtain ⟨hfirst, hdigit⟩ := plain_first h.1
    exact ⟨c, rest, rfl, hdigit, (plain_part hfirst).2⟩

theorem keywords_plain : ∀ keyword ∈ keywords,
    isPlainIdentifier keyword.toList = true ∧ keyword ≠ "_" := by
  decide

namespace EnumCase

theorem underscore_not_mem_lowerCamel (cs : List Char) : '_' ∉ lowerCamel cs := by
  intro h
  rcases Text.lowerCamel_letter h with h | h
  · exact absurd h (by decide)
  · exact absurd h.1 (by decide)

/-- The characters of a case's name are those of the camel-case name, past an underscore if that is
missing or starts with a digit. -/
theorem mem_nameOf {c : Char} {cs : List Char} (h : c ∈ nameOf cs) :
    c = '_' ∨ c ∈ lowerCamel cs := by
  rw [nameOf] at h
  split at h
  · exact .inl (List.mem_singleton.mp h)
  · next d rest hcamel =>
    rw [hcamel]
    split at h
    · exact List.mem_cons.mp h
    · exact .inr h

theorem nameOf_eq {d : Char} {cs rest : List Char} (h : lowerCamel cs = d :: rest) :
    nameOf cs = if d.isDigit then '_' :: lowerCamel cs else lowerCamel cs := by
  rw [nameOf, h]

/-- A case's name is made of characters of identifiers exactly if the value has no other letter. -/
theorem nameOf_parts_iff (cs : List Char) :
    (∀ c ∈ nameOf cs, isIdentifierPart c = true) ↔ verticalTilde ∉ cs := by
  rw [← Text.lowerCamel_letters_iff]
  constructor
  · intro h c hc
    have hmem : c ∈ nameOf cs := by
      obtain ⟨d, rest, hcamel⟩ := List.exists_cons_of_ne_nil (List.ne_nil_of_mem hc)
      rw [nameOf_eq hcamel]
      split
      · exact List.mem_cons_of_mem _ hc
      · exact hc
    rcases Bool.or_eq_true_iff.mp (h c hmem) with hunderscore | hletter
    · exact absurd (beq_iff_eq.mp hunderscore ▸ hc) (underscore_not_mem_lowerCamel cs)
    · exact hletter
  · intro h c hc
    rcases mem_nameOf hc with rfl | hc
    · decide
    · exact Bool.or_eq_true_iff.mpr (.inr (h c hc))

/-- The name of a case is an identifier exactly if the value has letters or numbers, the first of
which can come first, and all of which identifiers have. -/
theorem isIdentifier_nameOf_iff (cs : List Char) : IsIdentifier (String.ofList (nameOf cs)) ↔
    (∃ c rest, cs.filter isLetterOrNumber = c :: rest ∧ isCombining c = false) ∧
      verticalTilde ∉ cs := by
  cases hletters : cs.filter isLetterOrNumber with
  | nil =>
    refine iff_of_false (fun h => h.named ?_) (by simp)
    rw [nameOf, Text.lowerCamel_eq_nil hletters]
  | cons c letters =>
    obtain ⟨d, rest, hcamel, hdigit, hcombining⟩ := Text.exists_lowerCamel_eq_cons hletters
    -- An underscore comes before a digit, but not before a character that combines.
    have hfirst : (∃ first rest, nameOf cs = first :: rest ∧ first.isDigit = false ∧
        isCombining first = false) ↔ isCombining c = false := by
      rw [nameOf_eq hcamel, hcamel, ← hcombining]
      split
      · next h => exact iff_of_true ⟨'_', _, rfl, by decide, by decide⟩ (not_combining_digit h)
      · next h =>
        constructor
        · rintro ⟨first, _, heq, -, hfirst⟩
          rwa [(List.cons.inj heq).1]
        · exact fun h' => ⟨d, rest, rfl, eq_false_of_ne_true h, h'⟩
    have hnamed : nameOf cs ≠ ['_'] := by
      rw [nameOf_eq hcamel]
      split
      · simp [hcamel]
      · intro h
        exact underscore_not_mem_lowerCamel cs (h ▸ List.mem_singleton_self _)
    constructor
    · intro h
      refine ⟨⟨c, letters, rfl, hfirst.mp ?_⟩, (nameOf_parts_iff cs).mp ?_⟩
      · simpa using h.first
      · simpa using h.parts
    · rintro ⟨⟨first, rest, heq, hcombines⟩, htilde⟩
      obtain ⟨rfl, -⟩ := List.cons.inj heq
      refine ⟨?_, ?_, fun h => hnamed ?_⟩
      · simpa using (nameOf_parts_iff cs).mpr htilde
      · simpa using hfirst.mpr hcombines
      · simpa using congrArg String.toList h

/-- The line of a case with a raw value of its own. -/
theorem text_rewritten (name value : String) :
    text { name, rawValue := some value } = "case " ++ name ++ " = \"" ++ value ++ "\"" := by
  rfl

theorem text_plain (name : String) : text { name } = "case " ++ name := by
  rfl

theorem text_quoted (name : String) :
    text { name, isQuoted := true } = "case " ++ ("`" ++ name ++ "`") := by
  rfl

/-- The name of a case is written without blanks and backquotes. -/
theorem nameOf_not_mem {c : Char} (hc : isIdentifierPart c = false) (htilde : c ≠ verticalTilde)
    (cs : List Char) : c ∉ (String.ofList (nameOf cs)).toList := by
  rw [String.toList_ofList]
  intro hmem
  rcases mem_nameOf hmem with rfl | hmem
  · exact absurd hc (by decide)
  · rcases Text.lowerCamel_letter hmem with hletter | h
    · rw [isIdentifierPart, hletter, Bool.or_true] at hc
      cases hc
    · exact htilde h.1

/-- The line of a value that is rewritten declares a case exactly if the value can be rewritten. -/
theorem declaresCase_rewritten_iff {value name : String} (h : isRewritten value = true) :
    DeclaresCase name value (ofValue value).text ↔
      name = (ofValue value).name ∧ Rewritable value := by
  obtain ⟨hkeyword, hplain⟩ := Bool.and_eq_true_iff.mp h
  have hvalue : ofValue value =
      { name := String.ofList (nameOf value.toList), rawValue := some value } := by
    rw [ofValue, if_neg (by simpa using hkeyword), if_neg (by simpa using hplain)]
  have hblank : ' ' ∉ (String.ofList (nameOf value.toList)).toList :=
    nameOf_not_mem (by decide) (by decide) _
  have hline : (ofValue value).text =
      "case " ++ (ofValue value).name ++ " = \"" ++ value ++ "\"" := by
    rw [hvalue, text_rewritten]
  have hname : (ofValue value).name = String.ofList (nameOf value.toList) := by rw [hvalue]
  rw [hline]
  constructor
  · intro hcase
    rw [hname] at hcase ⊢
    generalize hsame : "case " ++ _ ++ " = \"" ++ value ++ "\"" = line at hcase
    cases hcase with
    | plain hspells => exact absurd hsame.symm (literal_ne_plain hspells.blank_not_mem)
    | literal hspells hreads =>
      -- Neither name has a blank, so a line is cut into a name and a literal in one way.
      obtain ⟨hspelling, htext⟩ := literal_inj hsame hblank hspells.blank_not_mem
      rw [← hspelling] at hspells
      rw [← htext] at hreads
      generalize hwritten : String.ofList (nameOf value.toList) = written at hspells
      cases hspells with
      | bare hidentifier hnamed =>
        rw [← hwritten] at hidentifier hnamed ⊢
        obtain ⟨hfirst, hletters⟩ := (isIdentifier_nameOf_iff _).mp hidentifier
        exact ⟨rfl, hfirst, hletters, hname ▸ hnamed, readsAs_self_iff.mp hreads⟩
      | quoted =>
        refine absurd ?_ (nameOf_not_mem (c := '`') (by decide) (by decide) value.toList)
        rw [hwritten, toList_quoted]
        exact List.mem_cons_self
  · rintro ⟨rfl, hrewritable⟩
    have hidentifier := (isIdentifier_nameOf_iff _).mpr ⟨hrewritable.first, hrewritable.letters⟩
    rw [← hname] at hidentifier
    exact .literal (.bare hidentifier hrewritable.named) (readsAs_self_iff.mpr hrewritable.plain)

/-- The line of a value declares a case exactly if the value is an identifier or a keyword, but not
the underscore, or can be rewritten. -/
theorem declaresCase_iff (value name : String) : DeclaresCase name value (ofValue value).text ↔
    name = (ofValue value).name ∧ value ≠ "_" ∧
      (isRewritten value = true → Rewritable value) := by
  by_cases hkeyword : value ∈ keywords
  · have hvalue : ofValue value = { name := value, isQuoted := true } := by
      rw [ofValue, if_pos (List.contains_iff_mem.mpr hkeyword)]
    have hrewritten : isRewritten value = false := by simp [isRewritten, hkeyword]
    obtain ⟨hplain, hnamed⟩ := keywords_plain value hkeyword
    have hcase : DeclaresCase value value (ofValue value).text := by
      rw [hvalue, text_quoted]
      exact .plain (.quoted (isIdentifier_of_plain hplain hnamed))
    constructor
    · intro h
      exact ⟨(h.unique hcase).1.trans (by rw [hvalue]), hnamed, by simp [hrewritten]⟩
    · rintro ⟨rfl, -⟩
      rwa [show (ofValue value).name = value by rw [hvalue]]
  · by_cases hplain : isPlainIdentifier value.toList = true
    · have hvalue : ofValue value = { name := value } := by
        rw [ofValue, if_neg (by simpa using hkeyword), if_pos hplain]
      have hrewritten : isRewritten value = false := by simp [isRewritten, hplain]
      rw [hvalue, text_plain]
      constructor
      · intro h
        generalize hline : "case " ++ value = line at h
        cases h with
        | plain hspells =>
          exact ⟨rfl, hspells.isIdentifier.named, by simp [hrewritten]⟩
        | literal =>
          refine absurd hline (literal_ne_plain fun hblank => ?_)
          exact absurd (plain_parts hplain _ hblank) (by decide)
      · rintro ⟨rfl, hnamed, -⟩
        exact .plain (.bare (isIdentifier_of_plain hplain hnamed) hkeyword)
    · have hrewritten : isRewritten value = true := by simp [isRewritten, hkeyword, hplain]
      rw [declaresCase_rewritten_iff hrewritten]
      refine and_congr_right fun _ => ⟨fun h => ⟨?_, fun _ => h⟩, fun h => h.2 hrewritten⟩
      rintro rfl
      exact hplain (by decide)

/-- Values that are not rewritten are the names of their cases. -/
theorem name_of_not_isRewritten {value : String} (h : isRewritten value = false) :
    (ofValue value).name = value := by
  rw [ofValue]
  split
  · rfl
  · next hkeyword =>
    split
    · rfl
    · next hplain =>
      rw [isRewritten, eq_false_of_ne_true hkeyword, eq_false_of_ne_true hplain] at h
      cases h

end EnumCase

/-! ## Enumerations -/

namespace EnumDecl

open EnumCase (isRewritten ofValue Rewritable)

/-- The cases of values have distinct names exactly if no value that is rewritten takes the name of
another one's case. -/
theorem names_nodup_iff {values : List String} (h : values.Nodup) :
    (values.map fun value => (ofValue value).name).Nodup ↔
      ∀ value ∈ values, isRewritten value = true → ∀ other ∈ values,
        (ofValue other).name = (ofValue value).name → other = value := by
  rw [List.nodup_map_iff_inj_on h]
  constructor
  · exact fun hinj value hvalue _ other hother => hinj other hother value hvalue
  · intro hrewritten value hvalue other hother hname
    by_cases hv : isRewritten value = true
    · exact (hrewritten value hvalue hv other hother hname.symm).symm
    · by_cases ho : isRewritten other = true
      · exact hrewritten other hother ho value hvalue hname
      · rwa [EnumCase.name_of_not_isRewritten (eq_false_of_ne_true hv),
          EnumCase.name_of_not_isRewritten (eq_false_of_ne_true ho)] at hname

/-- The lines of values declare a case for each exactly if the names are distinct, no value is the
underscore, and those that are rewritten can be. -/
theorem declaresEnum_lines_iff (values : List String) :
    DeclaresEnum (values.map fun value => (ofValue value).text) values ↔
      (values.map fun value => (ofValue value).name).Nodup ∧
        ∀ value ∈ values, value ≠ "_" ∧ (isRewritten value = true → Rewritable value) := by
  constructor
  · rintro ⟨cases, hnames, rfl, hlines⟩
    rw [List.map_map, List.forall₂_map_right_iff, List.forall₂_same] at hlines
    have hdeclared (declared : String × String) (hmem : declared ∈ cases) :=
      (EnumCase.declaresCase_iff _ _).mp (hlines declared hmem)
    refine ⟨?_, List.forall_mem_map.mpr fun declared hmem => (hdeclared declared hmem).2⟩
    rw [List.map_map]
    rwa [Entries.names, List.map_congr_left fun declared hmem => (hdeclared declared hmem).1]
      at hnames
  · rintro ⟨hnames, hvalues⟩
    refine ⟨values.map fun value => ((ofValue value).name, value), ?_, ?_, ?_⟩
    · rwa [Entries.names, List.map_map]
    · rw [List.map_map]
      exact List.map_id' values
    · rw [List.forall₂_map_left_iff, List.forall₂_map_right_iff, List.forall₂_same]
      exact fun value hvalue => (EnumCase.declaresCase_iff _ _).mpr ⟨rfl, hvalues value hvalue⟩

/-- **Enumerations.** For a set of values, the lines of the enumeration declare a case for each
value under distinct names, with the value as its raw value, exactly if no value is the underscore,
each value that is neither an identifier nor a keyword can be rewritten, and none of these takes the
name of another value's case. Each value is then decoded as one case, which is encoded as the
value. -/
theorem declaresEnum_iff (name : String) (values : List String) :
    let definition : EnumDef := ⟨name, sortedSet values⟩
    let lines := (ofEnum definition).cases.map EnumCase.text
    (DeclaresEnum lines definition.values ↔
      (∀ value ∈ values, value ≠ "_" ∧ (isRewritten value = true → Rewritable value)) ∧
      ∀ value ∈ values, isRewritten value = true → ∀ other ∈ values,
        (ofValue other).name = (ofValue value).name → other = value) ∧
    (DeclaresEnum lines definition.values → ∀ value ∈ values, ∃ name,
      (∀ other, Decodes lines value other ↔ other = name) ∧
        ∀ read, Decodes lines read name ↔ read = value) := by
  intro definition lines
  have hnodup : definition.values.Nodup := (sortedSet_pairwise values).imp ne_of_lt
  constructor
  · have hlines : lines = definition.values.map fun value => (ofValue value).text :=
      List.map_map
    rw [hlines, declaresEnum_lines_iff, names_nodup_iff hnodup, and_comm]
    simp only [definition, mem_sortedSet]
  · intro h value hvalue
    exact h.round_trip hnodup (mem_sortedSet.mpr hvalue)

/-- A value with a keyword as its camel-case name: the keyword is not quoted, and the line declares
no case. -/
theorem keyword_not_quoted :
    let lines := (ofEnum ⟨"BlogState", sortedSet ["in-"]⟩).cases.map EnumCase.text
    lines = ["case in = \"in-\""] ∧ "in" ∈ keywords ∧ ¬ DeclaresEnum lines ["in-"] := by
  refine ⟨by decide, by decide, fun h => ?_⟩
  obtain ⟨-, hvalues⟩ := (declaresEnum_lines_iff ["in-"]).mp h
  have hrewritable : Rewritable "in-" := (hvalues _ List.mem_cons_self).2 (by decide)
  exact hrewritable.named (by decide)

end EnumDecl

end ClientBindings
