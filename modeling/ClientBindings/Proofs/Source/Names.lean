import ClientBindings.Source.Export
import Mathlib.Data.List.TakeWhile

/-!
# Names and blanks

The characters of names, and texts without blanks at their ends.

* `isLetterOrNumber_of_isBlank`, `isWord_of_isBlank`: a name or a word ends at a blank.
* `trim_pad`, `trimEnd_append`: trimming takes off what stands around a text.
-/

namespace ClientBindings.Source

/-! ## Character classes -/

/-- The code points of ASCII letters and digits. -/
theorem isAlphanum_iff (c : Char) : c.isAlphanum ↔ 48 ≤ c.toNat ∧ c.toNat ≤ 57 ∨
    65 ≤ c.toNat ∧ c.toNat ≤ 90 ∨ 97 ≤ c.toNat ∧ c.toNat ≤ 122 := by
  have hdigit : c.isDigit ↔ 48 ≤ c.toNat ∧ c.toNat ≤ 57 := by
    show (decide ('0'.val ≤ c.val) && decide (c.val ≤ '9'.val)) = true ↔ _
    rw [Bool.and_eq_true, decide_eq_true_eq, decide_eq_true_eq]
    exact Iff.rfl
  have hupper : c.isUpper ↔ 65 ≤ c.toNat ∧ c.toNat ≤ 90 := by
    show decide ('A'.val ≤ c.val ∧ c.val ≤ 'Z'.val) = true ↔ _
    rw [decide_eq_true_eq]
    exact Iff.rfl
  have hlower : c.isLower ↔ 97 ≤ c.toNat ∧ c.toNat ≤ 122 := by
    show (decide ('a'.val ≤ c.val) && decide (c.val ≤ 'z'.val)) = true ↔ _
    rw [Bool.and_eq_true, decide_eq_true_eq, decide_eq_true_eq]
    exact Iff.rfl
  show ((c.isUpper || c.isLower) || c.isDigit) = true ↔ _
  rw [Bool.or_eq_true, Bool.or_eq_true, hdigit, hupper, hlower]
  omega

/-- The code points of blanks beyond ASCII. -/
def blankCodes : List Nat :=
  [0x85, 0xA0, 0x1680, 0x2000, 0x2001, 0x2002, 0x2003, 0x2004, 0x2005, 0x2006, 0x2007, 0x2008,
    0x2009, 0x200A, 0x2028, 0x2029, 0x202F, 0x205F, 0x3000]

theorem isBlank_iff (c : Char) : Text.isBlank c ↔
    9 ≤ c.toNat ∧ c.toNat ≤ 13 ∨ c.toNat = 32 ∨ c.toNat ∈ blankCodes := by
  simp only [Text.isBlank, blankCodes, Bool.or_eq_true, Bool.and_eq_true, decide_eq_true_eq,
    beq_iff_eq, List.mem_cons, List.not_mem_nil, or_false]
  omega

theorem blankCodes_plain : ∀ code ∈ blankCodes, 128 ≤ code ∧
    Text.inSpans Text.letterSpans code = false ∧ Text.inSpans Text.numberSpans code = false ∧
      Text.inSpans Text.markSpans code = false := by
  decide +kernel

theorem mem_blankCodes {c : Char} (h : Text.isBlank c) (hascii : ¬ c.toNat < 128) :
    c.toNat ∈ blankCodes := by
  rcases (isBlank_iff c).mp h with h | h | h
  · omega
  · omega
  · exact h

theorem not_isAlphanum_of_isBlank {c : Char} (h : Text.isBlank c) : c.isAlphanum = false := by
  rw [Bool.eq_false_iff, ne_eq, isAlphanum_iff]
  rcases (isBlank_iff c).mp h with h | h | h
  · omega
  · omega
  · have hcode := (blankCodes_plain _ h).1
    omega

/-- Blanks are no letters and no numbers. -/
theorem isLetterOrNumber_of_isBlank {c : Char} (h : Text.isBlank c) :
    Text.isLetterOrNumber c = false := by
  rw [Text.isLetterOrNumber]
  split
  · exact not_isAlphanum_of_isBlank h
  next hascii =>
    obtain ⟨-, hletter, hnumber, -⟩ := blankCodes_plain _ (mem_blankCodes h hascii)
    rw [hletter, hnumber]
    rfl

/-- Blanks stand in no word. -/
theorem isWord_of_isBlank {c : Char} (h : Text.isBlank c) : Text.isWord c = false := by
  rw [Text.isWord]
  split
  · rw [not_isAlphanum_of_isBlank h, Bool.false_or, beq_eq_false_iff_ne]
    rintro rfl
    exact absurd h (by decide)
  next hascii =>
    obtain ⟨-, hletter, -, hmark⟩ := blankCodes_plain _ (mem_blankCodes h hascii)
    rw [hletter, hmark]
    rfl

/-- A character that a name goes on with where declarators are read. -/
def isNamePart (c : Char) : Bool := Text.isLetterOrNumber c || c == '_' || c == '$'

/-- A character of names: an ASCII letter or digit, an underscore or a dollar. -/
def isNameChar (c : Char) : Bool := c.isAlphanum || c == '_' || c == '$'

/-- A name: characters of names, and no digit first. -/
def IsName : List Char → Prop
  | [] => False
  | c :: rest => c.isDigit = false ∧ ∀ d ∈ c :: rest, isNameChar d

theorem isNamePart_of_isNameChar {c : Char} (h : isNameChar c) : isNamePart c := by
  rw [isNameChar, Bool.or_eq_true, Bool.or_eq_true] at h
  rw [isNamePart, Bool.or_eq_true, Bool.or_eq_true]
  refine h.imp_left (Or.imp_left fun hc => ?_)
  have hascii : c.toNat < 128 := by
    rcases (isAlphanum_iff c).mp hc with hc | hc | hc <;> omega
  rwa [Text.isLetterOrNumber_ascii hascii]

theorem not_isNamePart_of_isBlank {c : Char} (h : Text.isBlank c) : isNamePart c = false := by
  have hne (d : Char) (hd : Text.isBlank d = false) : (c == d) = false := by
    rw [beq_eq_false_iff_ne]
    rintro rfl
    simp [h] at hd
  rw [isNamePart, isLetterOrNumber_of_isBlank h, hne '_' (by decide), hne '$' (by decide)]
  rfl

theorem not_isBlank_of_isNameChar {c : Char} (h : isNameChar c) : Text.isBlank c = false := by
  rw [Bool.eq_false_iff]
  intro hblank
  have hpart := isNamePart_of_isNameChar h
  rw [not_isNamePart_of_isBlank hblank] at hpart
  simp at hpart

/-- A character of names is different from any other character. -/
theorem ne_of_isNameChar {c d : Char} (h : isNameChar c) (hd : isNameChar d = false) : c ≠ d := by
  rintro rfl
  simp [h] at hd

/-- A blank is different from any other character. -/
theorem ne_of_isBlank {c d : Char} (h : Text.isBlank c) (hd : Text.isBlank d = false) : c ≠ d := by
  rintro rfl
  simp [h] at hd

/-- A character of a word is different from any other character. -/
theorem ne_of_isWord {c d : Char} (h : Text.isWord c) (hd : Text.isWord d = false) : c ≠ d := by
  rintro rfl
  simp [h] at hd

/-! ## Blanks around a text -/

/-- A text of blanks alone. -/
def Blanks (text : List Char) : Prop := ∀ c ∈ text, Text.isBlank c

/-- A text without a blank at its ends. -/
structure Solid (text : List Char) : Prop where
  first : ∀ c ∈ text.head?, Text.isBlank c = false
  final : ∀ c ∈ text.getLast?, Text.isBlank c = false

theorem Blanks.nil : Blanks [] := by
  intro c hc
  simp at hc

theorem Blanks.of_prefix {text start : List Char} (h : Blanks text) (hstart : start <+: text) :
    Blanks start := fun c hc => h c (hstart.subset hc)

theorem trimStart_blanks {blanks : List Char} (h : Blanks blanks) (text : List Char) :
    Text.trimStart (blanks ++ text) = Text.trimStart text :=
  List.dropWhile_append_of_pos h

theorem trimStart_eq {text : List Char} (h : ∀ c ∈ text.head?, Text.isBlank c = false) :
    Text.trimStart text = text := by
  cases text with
  | nil => rfl
  | cons c rest => rw [Text.trimStart, List.dropWhile_cons, h c rfl]; rfl

theorem trimEnd_append {text : List Char} (h : ∀ c ∈ text.getLast?, Text.isBlank c = false)
    (rest : List Char) : Text.trimEnd (text ++ rest) = text ++ Text.trimEnd rest := by
  have htext : text.reverse.dropWhile Text.isBlank = text.reverse :=
    trimStart_eq (by simpa using h)
  rw [Text.trimEnd, List.reverse_append, List.dropWhile_append]
  split
  next hrest => simp [htext, Text.trimEnd, List.isEmpty_iff.mp hrest]
  next hrest => simp [Text.trimEnd]

theorem trimEnd_blanks {blanks : List Char} (h : Blanks blanks) : Text.trimEnd blanks = [] := by
  have hdrop : blanks.reverse.dropWhile Text.isBlank = [] := by
    rw [List.dropWhile_eq_nil_iff]
    exact fun c hc => h c (List.mem_reverse.mp hc)
  rw [Text.trimEnd, hdrop]
  rfl

theorem exists_trimEnd (text : List Char) :
    ∃ blanks, Blanks blanks ∧ text = Text.trimEnd text ++ blanks := by
  refine ⟨(text.reverse.takeWhile Text.isBlank).reverse, fun c hc => ?_, ?_⟩
  · exact List.mem_takeWhile_imp (List.mem_reverse.mp hc)
  · rw [Text.trimEnd, ← List.reverse_append, List.takeWhile_append_dropWhile, List.reverse_reverse]

/-- Blanks around a text are taken off. -/
theorem trim_pad {before text after : List Char} (hbefore : Blanks before) (h : Solid text)
    (hafter : Blanks after) : Text.trim (before ++ (text ++ after)) = text := by
  rw [Text.trim, trimStart_blanks hbefore]
  cases text with
  | nil =>
    have hdrop : Text.trimStart after = [] := by
      rw [Text.trimStart, List.dropWhile_eq_nil_iff]
      exact hafter
    rw [List.nil_append, hdrop]
    rfl
  | cons c rest =>
    rw [trimStart_eq (by simpa using h.first), trimEnd_append h.final, trimEnd_blanks hafter,
      List.append_nil]

theorem trim_solid {text : List Char} (h : Solid text) : Text.trim text = text := by
  have hpad := trim_pad .nil h .nil
  rwa [List.nil_append, List.append_nil] at hpad

theorem Solid.nil : Solid [] := ⟨by simp, by simp⟩

theorem final_append {text rest : List Char}
    (htext : rest = [] → ∀ c ∈ text.getLast?, Text.isBlank c = false)
    (hrest : ∀ c ∈ rest.getLast?, Text.isBlank c = false) :
    ∀ c ∈ (text ++ rest).getLast?, Text.isBlank c = false := by
  intro c hc
  rw [List.getLast?_append, Option.mem_def, Option.or_eq_some_iff] at hc
  rcases hc with hc | ⟨hnone, hc⟩
  · exact hrest c hc
  · exact htext (List.getLast?_eq_none_iff.mp hnone) c hc

theorem final_cons {d : Char} {rest : List Char} (hd : Text.isBlank d = false)
    (hrest : ∀ c ∈ rest.getLast?, Text.isBlank c = false) :
    ∀ c ∈ (d :: rest).getLast?, Text.isBlank c = false := by
  have hsingle : ∀ c ∈ [d].getLast?, Text.isBlank c = false := by
    intro c hc
    obtain rfl : d = c := by simpa using hc
    exact hd
  exact final_append (fun _ => hsingle) hrest

theorem Solid.append {text rest : List Char} (h : Solid text) (htext : text ≠ [])
    (hrest : ∀ c ∈ rest.getLast?, Text.isBlank c = false) : Solid (text ++ rest) where
  first c hc := by
    cases text with
    | nil => exact absurd rfl htext
    | cons d text => exact h.first c hc
  final := final_append (fun _ => h.final) hrest

theorem IsName.ne_nil {name : List Char} (h : IsName name) : name ≠ [] := by
  rintro rfl
  exact h

theorem IsName.chars {name : List Char} (h : IsName name) : ∀ c ∈ name, isNameChar c := by
  cases name with
  | nil => exact h.elim
  | cons c rest => exact h.2

theorem IsName.solid {name : List Char} (h : IsName name) : Solid name where
  first c hc := not_isBlank_of_isNameChar (h.chars c (List.mem_of_mem_head? hc))
  final c hc := not_isBlank_of_isNameChar (h.chars c (List.mem_of_mem_getLast? hc))

end ClientBindings.Source
