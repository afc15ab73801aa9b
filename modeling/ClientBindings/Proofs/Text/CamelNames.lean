import ClientBindings.Proofs.Source.Names
import ClientBindings.Text.CamelCase

/-!
# Characters of camel-case names

What a camel-case name is made of, and which of these names are identifiers of the client's
language.

* `flatten_wordsOf`: the words of a text are its letters and numbers, cut into pieces that are not
  empty.
* `isIdentifierLetter`, `isCombining`: the characters of identifiers, and those of them that cannot
  come first. Every letter or number is such a character but for one
  (`isIdentifierLetter_of_letter`), and so are the characters that it becomes in another case
  (`isIdentifierLetter_lower`, `isIdentifierLetter_upper`).
* `lowerCamel_letters_iff`, `exists_lowerCamel_eq_cons`: hence the characters of a camel-case
  name, and its first one.
-/

namespace ClientBindings.Text

/-! ## Words -/

theorem flatten_consFirst (c : Char) (pieces : List (List Char)) :
    (consFirst c pieces).flatten = c :: pieces.flatten := by
  cases pieces <;> rfl

/-- A character in front of the first piece leaves it not empty. -/
theorem consFirst_ne_nil {c : Char} {pieces : List (List Char)}
    (h : ∀ piece ∈ pieces.tail, piece ≠ []) : ∀ piece ∈ consFirst c pieces, piece ≠ [] := by
  cases pieces with
  | nil => simp [consFirst]
  | cons first rest => simpa [consFirst] using h

theorem flatten_splitRun (state : WordCase) (run : List Char) :
    (splitRun state run).flatten = run := by
  fun_induction splitRun state run with
  | case1 => rfl
  | case2 => rfl
  | case3 state c next rest _ ih => simp [ih]
  | case4 state c next rest _ _ ih => simp [flatten_consFirst, ih]
  | case5 state c next rest _ _ ih => simp [flatten_consFirst, ih]

/-- Only what goes on with a word before can be empty, at an upper-case letter that starts a word of
its own. -/
theorem splitRun_ne_nil (state : WordCase) (run : List Char) :
    (∀ word ∈ (splitRun state run).tail, word ≠ []) ∧
      (state = .none → ∀ word ∈ splitRun state run, word ≠ []) := by
  fun_induction splitRun state run with
  | case1 => simp
  | case2 => simp
  | case3 state c next rest _ ih =>
    have hwords : ∀ word ∈ splitRun .none (next :: rest), word ≠ [] := ih.2 rfl
    exact ⟨hwords, fun _ => List.forall_mem_cons.mpr ⟨List.cons_ne_nil _ _, hwords⟩⟩
  | case4 state c next rest _ hupper ih =>
    exact ⟨consFirst_ne_nil ih.1, fun hnone => absurd (hnone.symm.trans hupper.1) (by decide)⟩
  | case5 state c next rest _ _ ih =>
    have hwords := consFirst_ne_nil (c := c) ih.1
    exact ⟨fun word hword => hwords word (List.mem_of_mem_tail hword), fun _ => hwords⟩

theorem flatten_alphanumericRuns (cs : List Char) :
    (alphanumericRuns cs).flatten = cs.filter isLetterOrNumber := by
  induction cs with
  | nil => rfl
  | cons c rest ih =>
    rw [alphanumericRuns]
    split
    · next h => rw [flatten_consFirst, ih, List.filter_cons_of_pos h]
    · next h => rw [List.flatten_cons, List.nil_append, ih, List.filter_cons_of_neg h]

/-- The words of a text are its letters and numbers. -/
theorem flatten_wordsOf (cs : List Char) :
    (wordsOf cs).flatten = cs.filter isLetterOrNumber := by
  rw [wordsOf, ← flatten_alphanumericRuns]
  induction alphanumericRuns cs with
  | nil => rfl
  | cons run rest ih =>
    rw [List.flatMap_cons, List.flatten_append, flatten_splitRun, ih, List.flatten_cons]

theorem wordsOf_ne_nil (cs : List Char) : ∀ word ∈ wordsOf cs, word ≠ [] := by
  intro word hword
  obtain ⟨run, -, hrun⟩ := List.mem_flatMap.mp hword
  exact (splitRun_ne_nil .none run).2 rfl word hrun

/-- The letters and numbers of a text are in its words. -/
theorem mem_word_iff {c : Char} {cs : List Char} :
    (∃ word ∈ wordsOf cs, c ∈ word) ↔ c ∈ cs ∧ isLetterOrNumber c = true := by
  rw [← List.mem_flatten, flatten_wordsOf, List.mem_filter]

/-! ## Characters of identifiers -/

/-- The characters of identifiers, the underscore apart. The spans with most letters come first. -/
def identifierSpans : List (Nat × Nat) := [
  (0x10000, 0x1FFFD), (0xF8, 0x167F), (0x3031, 0xD7FF), (0x180F, 0x1FFF), (0x2C00, 0x2DFF),
  (0x1681, 0x180D), (0xFE47, 0xFFFD), (0xF900, 0xFD3D), (0x61, 0x7A), (0x41, 0x5A), (0x30, 0x39),
  (0xA8, 0xA8), (0xAA, 0xAA), (0xAD, 0xAD), (0xAF, 0xAF), (0xB2, 0xB5), (0xB7, 0xBA), (0xBC, 0xBE),
  (0xC0, 0xD6), (0xD8, 0xF6), (0x2060, 0x218F), (0x2460, 0x24FF), (0x2776, 0x2793),
  (0x200B, 0x200D), (0x202A, 0x202E), (0x203F, 0x2040), (0x2054, 0x2054), (0x2E80, 0x2FFF),
  (0x3004, 0x3007), (0x3021, 0x302F), (0xFD40, 0xFDCF), (0xFDF0, 0xFE44), (0x20000, 0x2FFFD),
  (0x30000, 0x3FFFD), (0x40000, 0x4FFFD), (0x50000, 0x5FFFD), (0x60000, 0x6FFFD),
  (0x70000, 0x7FFFD), (0x80000, 0x8FFFD), (0x90000, 0x9FFFD), (0xA0000, 0xAFFFD),
  (0xB0000, 0xBFFFD), (0xC0000, 0xCFFFD), (0xD0000, 0xDFFFD), (0xE0000, 0xEFFFD)]

/-- The characters of identifiers that combine with the one before, and cannot come first. -/
def combiningSpans : List (Nat × Nat) :=
  [(0x300, 0x36F), (0x1DC0, 0x1DFF), (0x20D0, 0x20FF), (0xFE20, 0xFE2F)]

/-- May stand in an identifier, as the underscore may. -/
def isIdentifierLetter (c : Char) : Bool := inSpans identifierSpans c.toNat

/-- Combines with the character before. -/
def isCombining (c : Char) : Bool := inSpans combiningSpans c.toNat

/-- The one letter that identifiers do not have: a tilde that stands for a palatalized sound. -/
def verticalTilde : Char := '\u2E2F'

/-- Whether some of the spans goes from `first` or before to `last` or after. -/
def covered (spans : List (Nat × Nat)) (first last : Nat) : Bool :=
  spans.any fun span => span.1.ble first && last.ble span.2

/-- Whether no code point from `first` to `last` is in the spans. -/
def apart (spans : List (Nat × Nat)) (first last : Nat) : Bool :=
  spans.all fun span => span.2.blt first || last.blt span.1

theorem inSpans_of_covered {spans : List (Nat × Nat)} {first last code : Nat}
    (h : covered spans first last = true) (hfirst : first ≤ code) (hlast : code ≤ last) :
    inSpans spans code = true := by
  obtain ⟨span, hspan, hcover⟩ := List.any_eq_true.mp h
  refine List.any_eq_true.mpr ⟨span, hspan, ?_⟩
  simp only [Bool.and_eq_true, decide_eq_true_eq, Nat.ble_eq] at hcover ⊢
  omega

theorem not_inSpans_of_apart {spans : List (Nat × Nat)} {first last code : Nat}
    (h : apart spans first last = true) (hfirst : first ≤ code) (hlast : code ≤ last) :
    inSpans spans code = false := by
  rw [inSpans, List.any_eq_false]
  intro span hspan
  have hapart := List.all_eq_true.mp h span hspan
  simp only [Bool.or_eq_true, Bool.and_eq_true, decide_eq_true_eq, Nat.blt_eq] at hapart ⊢
  omega

/-- A decidable property of ASCII characters is decided by their code points. -/
theorem forall_ascii {p : Char → Prop} (h : ∀ n < 128, p (Char.ofNat n)) {c : Char}
    (hc : c.toNat < 128) : p c := by
  rw [← Char.ofNat_toNat c]
  exact h _ hc

/-- What an ASCII character is to identifiers, and what it becomes in another case. -/
structure AsciiFacts (c : Char) : Prop where
  letter : c.isAlphanum = true → isIdentifierLetter c = true
  upper : isIdentifierLetter c = true → isIdentifierLetter c.toUpper = true
  lower : isIdentifierLetter c = true → isIdentifierLetter c.toLower = true
  alpha : c.isAlpha = true → c.isDigit = false
  digit : c.toLower.isDigit = c.isDigit
  not_combining : isCombining c = false
  lower_not_combining : isCombining c.toLower = false

theorem asciiFacts {c : Char} (hc : c.toNat < 128) : AsciiFacts c := by
  have hall := forall_ascii (p := fun c => (c.isAlphanum = true → isIdentifierLetter c = true) ∧
    (isIdentifierLetter c = true →
      isIdentifierLetter c.toUpper = true ∧ isIdentifierLetter c.toLower = true) ∧
    (c.isAlpha = true → c.isDigit = false) ∧ c.toLower.isDigit = c.isDigit ∧
    isCombining c = false ∧ isCombining c.toLower = false) (by decide +kernel) hc
  obtain ⟨hletter, hcase, halpha, hdigit, hcombining, hlower⟩ := hall
  exact ⟨hletter, fun h => (hcase h).1, fun h => (hcase h).2, halpha, hdigit, hcombining, hlower⟩

theorem letterSpans_covered : ∀ span ∈ letterSpans ++ numberSpans,
    span = (0x2E2F, 0x2E2F) ∨ covered identifierSpans span.1 span.2 = true := by
  decide +kernel

/-- Every letter and every number but one may stand in an identifier. -/
theorem isIdentifierLetter_of_letter {c : Char} (h : isLetterOrNumber c = true)
    (hc : c ≠ verticalTilde) : isIdentifierLetter c = true := by
  by_cases hascii : c.toNat < 128
  · exact (asciiFacts hascii).letter (isLetterOrNumber_ascii hascii ▸ h)
  · rw [isLetterOrNumber, if_neg hascii, Bool.or_eq_true] at h
    obtain ⟨span, hspan, hcode⟩ : ∃ span ∈ letterSpans ++ numberSpans,
        (decide (span.1 ≤ c.toNat) && decide (c.toNat ≤ span.2)) = true := by
      rw [← List.any_eq_true, List.any_append, Bool.or_eq_true]
      exact h
    simp only [Bool.and_eq_true, decide_eq_true_eq] at hcode
    rcases letterSpans_covered span hspan with rfl | hcovered
    · have hcode : c.toNat = verticalTilde.toNat := Nat.le_antisymm hcode.2 hcode.1
      exact absurd (Char.toNat_inj.mp hcode) hc
    · exact inSpans_of_covered hcovered hcode.1 hcode.2

theorem not_isIdentifierLetter_verticalTilde : isIdentifierLetter verticalTilde = false := by
  decide

/-! ## Other case -/

theorem identifierSpans_valid : ∀ span ∈ identifierSpans,
    span.2 < 0xD800 ∨ 0xDFFF < span.1 ∧ span.2 < 0x110000 := by
  decide

/-- The code points in the spans are those of characters. -/
theorem toNat_ofNat {code : Nat} (h : inSpans identifierSpans code = true) :
    (Char.ofNat code).toNat = code := by
  obtain ⟨span, hspan, hcode⟩ := List.any_eq_true.mp h
  have hvalid := identifierSpans_valid span hspan
  simp only [Bool.and_eq_true, decide_eq_true_eq] at hcode
  have hchar : code.isValidChar := by
    rw [Nat.isValidChar]
    omega
  rw [Char.ofNat, dif_pos hchar]
  rfl

/-- Where a letter has another case, it is the image under a shift that has the letter. -/
theorem exists_of_shifted? {shifts : List Shift} {code image : Nat}
    (h : shifted? shifts code = some image) : ∃ shift ∈ shifts, shift.first ≤ code ∧
      code ≤ shift.last ∧ image = shift.image + (code - shift.first) := by
  obtain ⟨shift, hshift, rfl⟩ := Option.map_eq_some_iff.mp h
  have hhas := List.find?_some hshift
  simp only [Run.has, Bool.and_eq_true, decide_eq_true_eq] at hhas
  exact ⟨shift, List.mem_of_find?_eq_some hshift, hhas.1.1, hhas.1.2, rfl⟩

/-- Whether a shift leads to characters of identifiers alone. -/
def Shift.leadsToLetters (shift : Shift) : Bool :=
  covered identifierSpans shift.image (shift.image + (shift.last - shift.first))

theorem shifts_leadToLetters :
    ∀ shift ∈ toUpperShifts ++ toLowerShifts, shift.leadsToLetters = true := by
  decide +kernel

theorem expansions_letters : ∀ expansion ∈ toUpperExpansions, ∀ code ∈ expansion.2,
    inSpans identifierSpans code = true := by
  decide

/-- A single letter of the other case, or the letter itself, may stand in an identifier if the
letter may. -/
theorem isIdentifierLetter_shifted {shifts : List Shift} {c : Char}
    (hshifts : ∀ shift ∈ shifts, shift.leadsToLetters = true) (h : isIdentifierLetter c = true) :
    isIdentifierLetter (((shifted? shifts c.toNat).map Char.ofNat).getD c) = true := by
  cases hshifted : shifted? shifts c.toNat with
  | none => exact h
  | some image =>
    obtain ⟨shift, hshift, hfirst, hlast, rfl⟩ := exists_of_shifted? hshifted
    have hpart : inSpans identifierSpans (shift.image + (c.toNat - shift.first)) = true :=
      inSpans_of_covered (hshifts shift hshift) (by omega) (by omega)
    show inSpans identifierSpans (Char.ofNat _).toNat = true
    rwa [toNat_ofNat hpart]

theorem isIdentifierLetter_upper {c : Char} (h : isIdentifierLetter c = true) :
    ∀ d ∈ upper c, isIdentifierLetter d = true := by
  by_cases hascii : c.toNat < 128
  · rw [upper, if_pos hascii, List.forall_mem_singleton]
    exact (asciiFacts hascii).upper h
  · rw [upper, if_neg hascii]
    split
    · next codes hcodes =>
      intro d hd
      obtain ⟨code, hcode, rfl⟩ := List.mem_map.mp hd
      obtain ⟨before, after, htable, -⟩ := List.lookup_eq_some_iff.mp hcodes
      have hpart := expansions_letters (c.toNat, codes) (by simp [htable]) code hcode
      rw [isIdentifierLetter, toNat_ofNat hpart]
      exact hpart
    · exact List.forall_mem_singleton.mpr (isIdentifierLetter_shifted (fun shift hshift =>
        shifts_leadToLetters shift (List.mem_append_left _ hshift)) h)

theorem isIdentifierLetter_lower {c : Char} (h : isIdentifierLetter c = true) :
    ∀ d ∈ lower c, isIdentifierLetter d = true := by
  by_cases hascii : c.toNat < 128
  · rw [lower, if_pos hascii, List.forall_mem_singleton]
    exact (asciiFacts hascii).lower h
  · rw [lower, if_neg hascii]
    split
    · exact List.forall_mem_cons.mpr ⟨by decide, List.forall_mem_singleton.mpr (by decide)⟩
    · exact List.forall_mem_singleton.mpr (isIdentifierLetter_shifted (fun shift hshift =>
        shifts_leadToLetters shift (List.mem_append_right _ hshift)) h)

/-- Whether a shift leads past digits from characters that do not combine to such characters. -/
def Shift.startsLetters (shift : Shift) : Bool :=
  57 < shift.image && apart combiningSpans shift.first shift.last &&
    apart combiningSpans shift.image (shift.image + (shift.last - shift.first))

theorem lowerShifts_startLetters : ∀ shift ∈ toLowerShifts, shift.startsLetters = true := by
  decide +kernel

theorem not_isDigit {c : Char} (h : 57 < c.toNat) : c.isDigit = false := by
  rw [Bool.eq_false_iff]
  intro hdigit
  have hle : c.toNat ≤ 57 := of_decide_eq_true (Bool.and_eq_true_iff.mp hdigit).2
  omega

/-- A character in lower case starts like the character: with a digit if that is one, and with a
combining character if that is one. -/
theorem exists_lower_eq_cons (c : Char) : ∃ d rest,
    lower c = d :: rest ∧ d.isDigit = c.isDigit ∧ isCombining d = isCombining c := by
  by_cases hascii : c.toNat < 128
  · rw [lower, if_pos hascii]
    have hfacts := asciiFacts hascii
    exact ⟨_, _, rfl, hfacts.digit, hfacts.lower_not_combining.trans hfacts.not_combining.symm⟩
  · rw [lower, if_neg hascii]
    split
    · next hdotted =>
      rw [hdotted]
      exact ⟨_, _, rfl, by decide⟩
    · refine ⟨_, _, rfl, ?_⟩
      cases hshifted : shifted? toLowerShifts c.toNat with
      | none => exact ⟨rfl, rfl⟩
      | some image =>
        obtain ⟨shift, hshift, hfirst, hlast, rfl⟩ := exists_of_shifted? hshifted
        have hpart := shifts_leadToLetters shift (List.mem_append_right _ hshift)
        have hstart := lowerShifts_startLetters shift hshift
        simp only [Shift.startsLetters, Bool.and_eq_true, decide_eq_true_eq] at hstart
        generalize hcode : shift.image + (c.toNat - shift.first) = code
        have himage : (Char.ofNat code).toNat = code :=
          toNat_ofNat (inSpans_of_covered hpart (by omega) (by omega))
        constructor
        · rw [not_isDigit (show 57 < c.toNat by omega)]
          exact not_isDigit (show 57 < (Char.ofNat code).toNat by omega)
        · have hsource : isCombining c = false :=
            not_inSpans_of_apart hstart.1.2 hfirst hlast
          show isCombining (Char.ofNat code) = isCombining c
          rw [hsource, isCombining, himage]
          exact not_inSpans_of_apart hstart.2 (by omega) (by omega)

/-! ## Camel-case names -/

/-- The characters of a word in lower case are those of its letters, or a final sigma. -/
theorem mem_lowerWord {d : Char} {word : List Char} (h : d ∈ lowerWord word) :
    d = 'ς' ∨ ∃ c ∈ word, d ∈ lower c := by
  fun_induction lowerWord word with
  | case1 => cases h
  | case2 => exact .inl (List.mem_singleton.mp h)
  | case3 c => exact .inr ⟨c, List.mem_singleton_self c, h⟩
  | case4 c rest _ ih =>
    rcases List.mem_append.mp h with h | h
    · exact .inr ⟨c, List.mem_cons_self, h⟩
    · exact (ih h).imp_right fun ⟨letter, hletter, hd⟩ =>
        ⟨letter, List.mem_cons_of_mem c hletter, hd⟩

/-- The characters of a camel-case name are those of the letters and numbers of the text, in either
case, or a final sigma. -/
theorem mem_lowerCamel {d : Char} {cs : List Char} (h : d ∈ lowerCamel cs) :
    d = 'ς' ∨ ∃ c ∈ cs, isLetterOrNumber c = true ∧ (d ∈ lower c ∨ d ∈ upper c) := by
  have hword {word : List Char} (hmem : word ∈ wordsOf cs)
      (hd : d = 'ς' ∨ ∃ c ∈ word, d ∈ lower c ∨ d ∈ upper c) :
      d = 'ς' ∨ ∃ c ∈ cs, isLetterOrNumber c = true ∧ (d ∈ lower c ∨ d ∈ upper c) :=
    hd.imp_right fun ⟨c, hc, hd⟩ =>
      have hletter := mem_word_iff.mp ⟨word, hmem, hc⟩
      ⟨c, hletter.1, hletter.2, hd⟩
  rw [lowerCamel] at h
  split at h
  · cases h
  · next first rest hwords =>
    rcases List.mem_append.mp h with h | h
    · refine hword (hwords ▸ List.mem_cons_self) ((mem_lowerWord h).imp_right ?_)
      exact fun ⟨c, hc, hd⟩ => ⟨c, hc, .inl hd⟩
    · obtain ⟨word, hmem, hd⟩ := List.mem_flatMap.mp h
      refine hword (hwords ▸ List.mem_cons_of_mem _ hmem) ?_
      cases word with
      | nil => cases hd
      | cons c letters =>
        rcases List.mem_append.mp hd with hd | hd
        · exact .inr ⟨c, List.mem_cons_self, .inr hd⟩
        · exact (mem_lowerWord hd).imp_right fun ⟨letter, hletter, hd⟩ =>
            ⟨letter, List.mem_cons_of_mem c hletter, .inl hd⟩

/-- A letter without case stays in a word in lower case. -/
theorem mem_lowerWord_self {c : Char} {word : List Char} (hc : c ∈ word) (hsigma : c ≠ 'Σ')
    (hlower : lower c = [c]) : c ∈ lowerWord word := by
  fun_induction lowerWord word with
  | case1 => cases hc
  | case2 => exact absurd (List.mem_singleton.mp hc) hsigma
  | case3 d => rw [← List.mem_singleton.mp hc, hlower, List.mem_singleton]
  | case4 d rest _ ih =>
    rcases List.mem_cons.mp hc with rfl | hc
    · exact List.mem_append_left _ (hlower ▸ List.mem_singleton_self c)
    · exact List.mem_append_right _ (ih hc)

/-- A letter without case is in a camel-case name if it is in the text. -/
theorem mem_lowerCamel_self {c : Char} {cs : List Char} (hc : c ∈ cs)
    (hletter : isLetterOrNumber c = true) (hsigma : c ≠ 'Σ') (hlower : lower c = [c])
    (hupper : upper c = [c]) : c ∈ lowerCamel cs := by
  obtain ⟨word, hword, hmem⟩ := mem_word_iff.mpr ⟨hc, hletter⟩
  rw [lowerCamel]
  split
  · next hwords =>
    rw [hwords] at hword
    cases hword
  · next first rest hwords =>
    rw [hwords] at hword
    rcases List.mem_cons.mp hword with rfl | hword
    · exact List.mem_append_left _ (mem_lowerWord_self hmem hsigma hlower)
    · refine List.mem_append_right _ (List.mem_flatMap.mpr ⟨word, hword, ?_⟩)
      cases word with
      | nil => cases hmem
      | cons d letters =>
        rcases List.mem_cons.mp hmem with rfl | hmem
        · exact List.mem_append_left _ (hupper ▸ List.mem_singleton_self c)
        · exact List.mem_append_right _ (mem_lowerWord_self hmem hsigma hlower)

theorem lower_verticalTilde : lower verticalTilde = [verticalTilde] := by
  rfl

theorem upper_verticalTilde : upper verticalTilde = [verticalTilde] := by
  rfl

/-- A camel-case name is made of characters of identifiers and of the one letter that is none, if
the text has it. -/
theorem lowerCamel_letter {d : Char} {cs : List Char} (h : d ∈ lowerCamel cs) :
    isIdentifierLetter d = true ∨ d = verticalTilde ∧ verticalTilde ∈ cs := by
  rcases mem_lowerCamel h with rfl | ⟨c, hc, hletter, hd⟩
  · exact .inl (by decide)
  · by_cases htilde : c = verticalTilde
    · rw [htilde, lower_verticalTilde, upper_verticalTilde, or_self, List.mem_singleton] at hd
      exact .inr ⟨hd, htilde ▸ hc⟩
    · have hpart := isIdentifierLetter_of_letter hletter htilde
      exact .inl (hd.elim (isIdentifierLetter_lower hpart d) (isIdentifierLetter_upper hpart d))

/-- A camel-case name is made of characters of identifiers alone unless the text has the one letter
that is none. -/
theorem lowerCamel_letters_iff (cs : List Char) :
    (∀ c ∈ lowerCamel cs, isIdentifierLetter c = true) ↔ verticalTilde ∉ cs := by
  constructor
  · intro h htilde
    have hmem : verticalTilde ∈ lowerCamel cs :=
      mem_lowerCamel_self htilde (by decide +kernel) (by decide) lower_verticalTilde
        upper_verticalTilde
    exact absurd (h _ hmem) (Bool.eq_false_iff.mp not_isIdentifierLetter_verticalTilde)
  · intro htilde d hd
    exact (lowerCamel_letter hd).resolve_right fun h => htilde h.2

/-- A word in lower case starts like the word. -/
theorem exists_lowerWord_eq_cons (c : Char) (letters : List Char) : ∃ d rest,
    lowerWord (c :: letters) = d :: rest ∧ d.isDigit = c.isDigit ∧
      isCombining d = isCombining c := by
  obtain ⟨d, rest, hlower, hclass⟩ := exists_lower_eq_cons c
  cases letters with
  | nil =>
    rw [lowerWord]
    split
    · next hsigma =>
      rw [hsigma]
      exact ⟨_, _, rfl, by decide⟩
    · exact ⟨d, rest, hlower, hclass⟩
  | cons next letters =>
    refine ⟨d, rest ++ lowerWord (next :: letters), ?_, hclass⟩
    rw [lowerWord, hlower, List.cons_append]
    exact List.cons_ne_nil _ _

/-- A text without letters and numbers has no camel-case name. -/
theorem lowerCamel_eq_nil {cs : List Char} (h : cs.filter isLetterOrNumber = []) :
    lowerCamel cs = [] := by
  rw [lowerCamel]
  split
  · rfl
  · next first rest hwords =>
    have hflat := flatten_wordsOf cs
    rw [hwords, h, List.flatten_cons, List.append_eq_nil_iff] at hflat
    exact absurd hflat.1 (wordsOf_ne_nil cs first (hwords ▸ List.mem_cons_self))

/-- A camel-case name starts like the first letter or number of the text: with a digit if that is
one, and with a combining character if that is one. -/
theorem exists_lowerCamel_eq_cons {c : Char} {cs letters : List Char}
    (h : cs.filter isLetterOrNumber = c :: letters) : ∃ d rest,
      lowerCamel cs = d :: rest ∧ d.isDigit = c.isDigit ∧ isCombining d = isCombining c := by
  have hflat := (flatten_wordsOf cs).trans h
  rw [lowerCamel]
  split
  · next hwords =>
    rw [hwords] at hflat
    cases hflat
  · next first words hwords =>
    cases first with
    | nil => exact absurd rfl (wordsOf_ne_nil cs [] (hwords ▸ List.mem_cons_self))
    | cons c' first =>
      rw [hwords, List.flatten_cons, List.cons_append, List.cons.injEq] at hflat
      obtain ⟨d, rest, hlower, hclass⟩ := exists_lowerWord_eq_cons c' first
      rw [hlower]
      exact ⟨d, _, rfl, hflat.1 ▸ hclass⟩

end ClientBindings.Text
