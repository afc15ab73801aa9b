import ClientBindings.Source.Export

/-!
# Nested text

Text with its brackets in pairs, and what the scans by bracket depth make of it: whatever stands
between brackets is passed over.

* `Balanced`, `Level`: text with its brackets in pairs; the characters outside of them.
* `Matched`: text with its brackets in pairs, each closed by its own kind.
* `Passes`: a scan that hands on every character inside of brackets.
* `splitTop_level`, `cutTop?_level`, `group?_group`: no cut inside of brackets.
-/

namespace ClientBindings.Source

/-! ## Balanced text -/

/-- A character that is no bracket. -/
def IsPlain (c : Char) : Prop := isOpening c = false ∧ isClosing c = false

instance (c : Char) : Decidable (IsPlain c) := inferInstanceAs (Decidable (_ ∧ _))

theorem not_opening_of_closing {c : Char} (h : isClosing c) : isOpening c = false := by
  simp only [isClosing, Bool.or_eq_true, beq_iff_eq] at h
  rcases h with (rfl | rfl) | rfl <;> rfl

theorem not_closing_of_opening {c : Char} (h : isOpening c) : isClosing c = false := by
  simp only [isOpening, Bool.or_eq_true, beq_iff_eq] at h
  rcases h with (rfl | rfl) | rfl <;> rfl

/-- Text with its brackets in pairs, of any kinds. -/
inductive Balanced : List Char → Prop
  | nil : Balanced []
  | char {c : Char} {rest : List Char} : IsPlain c → Balanced rest → Balanced (c :: rest)
  | group {o c : Char} {inner rest : List Char} : isOpening o → isClosing c → Balanced inner →
      Balanced rest → Balanced (o :: (inner ++ c :: rest))

/-- Balanced text with `p` for every character outside of brackets. -/
inductive Level (p : Char → Prop) : List Char → Prop
  | nil : Level p []
  | char {c : Char} {rest : List Char} : IsPlain c → p c → Level p rest → Level p (c :: rest)
  | group {o c : Char} {inner rest : List Char} : isOpening o → isClosing c → Balanced inner →
      Level p rest → Level p (o :: (inner ++ c :: rest))

variable {p q : Char → Prop}

theorem Balanced.append {text rest : List Char} (h : Balanced text) (hrest : Balanced rest) :
    Balanced (text ++ rest) := by
  induction h with
  | nil => exact hrest
  | char hc _ ih => exact .char hc ih
  | group ho hc hinner _ _ ih =>
    rw [List.cons_append, List.append_assoc]
    exact .group ho hc hinner ih

theorem Level.balanced {text : List Char} (h : Level p text) : Balanced text := by
  induction h with
  | nil => exact .nil
  | char hc _ _ ih => exact .char hc ih
  | group ho hc hinner _ ih => exact .group ho hc hinner ih

theorem Level.mono {text : List Char} (h : Level p text) (hpq : ∀ c, p c → q c) :
    Level q text := by
  induction h with
  | nil => exact .nil
  | char hc hp _ ih => exact .char hc (hpq _ hp) ih
  | group ho hc hinner _ ih => exact .group ho hc hinner ih

theorem Level.append {text rest : List Char} (h : Level p text) (hrest : Level p rest) :
    Level p (text ++ rest) := by
  induction h with
  | nil => exact hrest
  | char hc hp _ ih => exact .char hc hp ih
  | group ho hc hinner _ ih =>
    rw [List.cons_append, List.append_assoc]
    exact .group ho hc hinner ih

theorem Level.of_forall {text : List Char} (h : ∀ c ∈ text, IsPlain c ∧ p c) : Level p text := by
  induction text with
  | nil => exact .nil
  | cons c rest ih =>
    obtain ⟨hc, hp⟩ := h c List.mem_cons_self
    exact .char hc hp (ih fun d hd => h d (List.mem_cons_of_mem _ hd))

theorem Balanced.level {text : List Char} (h : Balanced text) : Level (fun _ => True) text := by
  induction h with
  | nil => exact .nil
  | char hc _ ih => exact .char hc trivial ih
  | group ho hc hinner _ _ ih => exact .group ho hc hinner ih

/-! ## Matched text -/

/-- The opening brackets, each with the one that closes it. -/
def bracketPairs : List (Char × Char) := [('(', ')'), ('{', '}'), ('[', ']')]

/-- Text with its brackets in pairs, each closed by its own kind. -/
inductive Matched : List Char → Prop
  | nil : Matched []
  | char {c : Char} {rest : List Char} : IsPlain c → Matched rest → Matched (c :: rest)
  | group {o c : Char} {inner rest : List Char} : (o, c) ∈ bracketPairs → Matched inner →
      Matched rest → Matched (o :: (inner ++ c :: rest))

theorem Matched.append {text rest : List Char} (h : Matched text) (hrest : Matched rest) :
    Matched (text ++ rest) := by
  induction h with
  | nil => exact hrest
  | char hc _ ih => exact .char hc ih
  | group hpair hinner _ _ ih =>
    rw [List.cons_append, List.append_assoc]
    exact .group hpair hinner ih

theorem Matched.of_forall {text : List Char} (h : ∀ c ∈ text, IsPlain c) : Matched text := by
  induction text with
  | nil => exact .nil
  | cons c rest ih =>
    exact .char (h c List.mem_cons_self) (ih fun d hd => h d (List.mem_cons_of_mem _ hd))

/-- Text without brackets. -/
theorem Matched.of_all {text : List Char} (h : text.all fun c => decide (IsPlain c)) :
    Matched text :=
  .of_forall fun c hc => of_decide_eq_true (List.all_eq_true.mp h c hc)

theorem bracketPairs_class {o c : Char} (h : (o, c) ∈ bracketPairs) :
    isOpening o ∧ isClosing c := by
  simp only [bracketPairs, List.mem_cons, Prod.mk.injEq, List.not_mem_nil, or_false] at h
  rcases h with ⟨rfl, rfl⟩ | ⟨rfl, rfl⟩ | ⟨rfl, rfl⟩ <;> decide

theorem Matched.balanced {text : List Char} (h : Matched text) : Balanced text := by
  induction h with
  | nil => exact .nil
  | char hc _ ih => exact .char hc ih
  | group hpair _ _ ihinner ih =>
    obtain ⟨ho, hc⟩ := bracketPairs_class hpair
    exact .group ho hc ihinner ih

/-- A bracket. -/
def isBracket (c : Char) : Bool := isOpening c || isClosing c

theorem isPlain_of_not_isBracket {c : Char} (h : isBracket c = false) : IsPlain c :=
  Bool.or_eq_false_iff.mp h

/-- Only the brackets of a text matter. -/
theorem Matched.of_brackets {text : List Char} (h : Matched (text.filter isBracket)) :
    Matched text := by
  have hplain {part : List Char} (hpart : part.filter isBracket = []) : Matched part :=
    .of_forall fun c hc => isPlain_of_not_isBracket <| by
      simpa using List.filter_eq_nil_iff.mp hpart c hc
  have hbefore {part : List Char} (hpart : ∀ c ∈ part, ¬ isBracket c) : Matched part :=
    hplain (List.filter_eq_nil_iff.mpr hpart)
  generalize hbrackets : text.filter isBracket = brackets at h
  induction h generalizing text with
  | nil => exact hplain hbrackets
  | @char c rest hc _ ih =>
    have hmem : c ∈ text.filter isBracket := by simp [hbrackets]
    have hbracket : isBracket c := (List.mem_filter.mp hmem).2
    simp [isBracket, hc.1, hc.2] at hbracket
  | @group o c inner rest hpair _ _ ihinner ih =>
    obtain ⟨before, text, rfl, hplainBefore, -, htext⟩ := List.filter_eq_cons_iff.mp hbrackets
    obtain ⟨text, past, rfl, hstart, hpast⟩ := List.filter_eq_append_iff.mp htext
    obtain ⟨after, past, rfl, hplainAfter, -, hpast⟩ := List.filter_eq_cons_iff.mp hpast
    have hinner : (text ++ after).filter isBracket = inner := by
      rw [List.filter_append, hstart, List.filter_eq_nil_iff.mpr hplainAfter, List.append_nil]
    have hgroup : Matched (o :: ((text ++ after) ++ c :: past)) :=
      .group hpair (ihinner hinner) (ih hpast)
    simpa using (hbefore hplainBefore).append hgroup

theorem Matched.brackets {text : List Char} (h : Matched text) :
    Matched (text.filter isBracket) := by
  induction h with
  | nil => exact .nil
  | char hc _ ih => rwa [List.filter_cons, isBracket, hc.1, hc.2]
  | group hpair _ _ ihinner ih =>
    obtain ⟨ho, hc⟩ := bracketPairs_class hpair
    simpa [isBracket, ho, hc] using Matched.group hpair ihinner ih

/-! ## Ends of nested text -/

theorem Balanced.of_cons {c : Char} {text : List Char} (h : Balanced (c :: text)) (hc : IsPlain c) :
    Balanced text := by
  generalize hwhole : c :: text = whole at h
  cases h with
  | nil => cases hwhole
  | char _ h =>
    obtain ⟨-, rfl⟩ := List.cons_eq_cons.mp hwhole
    exact h
  | group ho =>
    obtain ⟨rfl, -⟩ := List.cons_eq_cons.mp hwhole
    simp [hc.1] at ho

/-- An opening bracket that a balanced text starts with is closed. -/
theorem Balanced.exists_group {o : Char} {text : List Char} (h : Balanced (o :: text))
    (ho : isOpening o) :
    ∃ inner c rest, Balanced inner ∧ isClosing c ∧ text = inner ++ c :: rest := by
  generalize hwhole : o :: text = whole at h
  cases h with
  | nil => cases hwhole
  | char hc =>
    obtain ⟨rfl, -⟩ := List.cons_eq_cons.mp hwhole
    simp [hc.1] at ho
  | @group _ c inner rest _ hc hinner _ =>
    obtain ⟨-, rfl⟩ := List.cons_eq_cons.mp hwhole
    exact ⟨inner, c, rest, hinner, hc, rfl⟩

/-- The end of a balanced text is balanced, or closes a bracket from before it. -/
theorem Balanced.suffix {text rest : List Char} (h : Balanced text) (hrest : rest <:+ text) :
    Balanced rest ∨
      ∃ inner c past, Balanced inner ∧ isClosing c ∧ rest = inner ++ c :: past := by
  induction h generalizing rest with
  | nil => exact .inl (by rw [List.suffix_nil.mp hrest]; exact .nil)
  | char hc htext ih =>
    rcases List.suffix_cons_iff.mp hrest with rfl | hrest
    · exact .inl (.char hc htext)
    · exact ih hrest
  | @group o c inner text ho hc hinner htext ihinner ih =>
    rcases List.suffix_cons_iff.mp hrest with rfl | hrest
    · exact .inl (.group ho hc hinner htext)
    obtain ⟨before, heq⟩ := hrest
    rcases List.append_eq_append_iff.mp heq with ⟨last, rfl, rfl⟩ | ⟨more, rfl, hmore⟩
    · rcases ihinner (List.suffix_append before last) with hlast | ⟨start, d, past, hstart, hd, rfl⟩
      · exact .inr ⟨last, c, text, hlast, hc, rfl⟩
      · exact .inr ⟨start, d, past ++ c :: text, hstart, hd, by simp⟩
    · cases more with
      | nil => exact .inr ⟨[], c, text, .nil, hc, hmore.symm⟩
      | cons d more =>
        obtain ⟨-, rfl⟩ := List.cons_eq_cons.mp hmore
        exact ih (List.suffix_append more rest)

/-- An opening bracket of a matched text is closed by its own kind. -/
theorem Matched.closes {before after : List Char} {o : Char} (h : Matched (before ++ o :: after))
    (ho : isOpening o) : ∃ inner c past, (o, c) ∈ bracketPairs ∧ Matched inner ∧
      after = inner ++ c :: past := by
  generalize htext : before ++ o :: after = text at h
  induction h generalizing before after with
  | nil => simp at htext
  | @char c rest hc _ ih =>
    cases before with
    | nil =>
      obtain ⟨rfl, -⟩ := List.cons_eq_cons.mp htext
      simp [hc.1] at ho
    | cons d before => exact ih (List.cons_eq_cons.mp htext).2
  | @group o' c inner rest hpair hinner _ ihinner ih =>
    have hne : o ≠ c := by
      rintro rfl
      simp [not_opening_of_closing (bracketPairs_class hpair).2] at ho
    cases before with
    | nil =>
      obtain ⟨rfl, rfl⟩ := List.cons_eq_cons.mp htext
      exact ⟨inner, c, rest, hpair, hinner, rfl⟩
    | cons d before =>
      have heq := (List.cons_eq_cons.mp htext).2
      rcases List.append_eq_append_iff.mp heq with ⟨last, rfl, hlast⟩ | ⟨more, rfl, hmore⟩
      · cases last with
        | nil => exact absurd (List.cons_eq_cons.mp hlast).1 hne
        | cons e last =>
          obtain ⟨rfl, rfl⟩ := List.cons_eq_cons.mp hlast
          obtain ⟨start, d, past, hclosed, hstart, rfl⟩ := ihinner rfl
          exact ⟨start, d, past ++ c :: rest, hclosed, hstart, by simp⟩
      · cases more with
        | nil => exact absurd (List.cons_eq_cons.mp hmore).1.symm hne
        | cons e more => exact ih (List.cons_eq_cons.mp hmore).2.symm

/-! ## Scans -/

/-- The character before what follows a text, `last` being the one before the text. -/
def lastOf (last : Option Char) (text : List Char) : Option Char :=
  text.foldl (fun _ c => some c) last

/-- A scan by bracket depth hands on brackets, and every character inside of them. It may look at
the character before its text. -/
structure Passes {α : Type} (scan : Nat → Option Char → List Char → α) (emit : Char → α → α) :
    Prop where
  opening : ∀ depth last c rest, isOpening c →
    scan depth last (c :: rest) = emit c (scan (depth + 1) (some c) rest)
  closing : ∀ depth last c rest, isClosing c →
    scan (depth + 1) last (c :: rest) = emit c (scan depth (some c) rest)
  inner : ∀ depth last c rest, IsPlain c →
    scan (depth + 1) last (c :: rest) = emit c (scan (depth + 1) (some c) rest)

namespace Passes

variable {α : Type} {scan : Nat → Option Char → List Char → α} {emit : Char → α → α}

theorem balanced (h : Passes scan emit) {text : List Char} (htext : Balanced text) (depth : Nat)
    (last : Option Char) (rest : List Char) : scan (depth + 1) last (text ++ rest) =
      text.foldr emit (scan (depth + 1) (lastOf last text) rest) := by
  induction htext generalizing depth last rest with
  | nil => rfl
  | char hc _ ih => rw [List.cons_append, h.inner _ _ _ _ hc, ih]; rfl
  | @group o c inner text ho hc _ _ ihinner ih =>
    rw [List.cons_append, List.append_assoc, h.opening _ _ _ _ ho, ihinner, List.cons_append,
      h.closing _ _ _ _ hc, ih]
    simp [lastOf]

theorem group (h : Passes scan emit) {o c : Char} {inner : List Char} (ho : isOpening o)
    (hc : isClosing c) (hinner : Balanced inner) (depth : Nat) (last : Option Char)
    (rest : List Char) : scan depth last (o :: (inner ++ c :: rest)) =
      (o :: (inner ++ [c])).foldr emit (scan depth (some c) rest) := by
  rw [h.opening _ _ _ _ ho, h.balanced hinner, h.closing _ _ _ _ hc]
  simp

/-- A scan that hands on the characters with `p` outside of brackets hands on all of the text. -/
theorem level (h : Passes scan emit) (hp : ∀ last c rest, IsPlain c → p c →
      scan 0 last (c :: rest) = emit c (scan 0 (some c) rest)) {text : List Char}
    (htext : Level p text) (last : Option Char) (rest : List Char) :
    scan 0 last (text ++ rest) = text.foldr emit (scan 0 (lastOf last text) rest) := by
  induction htext generalizing last rest with
  | nil => rfl
  | char hc hpc _ ih => rw [List.cons_append, hp _ _ _ hc hpc, ih]; rfl
  | @group o c inner text ho hc hinner _ ih =>
    rw [List.cons_append, List.append_assoc, List.cons_append, h.group ho hc hinner, ih]
    simp [lastOf]

end Passes

theorem depthAfter_opening {c : Char} (h : isOpening c) (depth : Nat) :
    depthAfter depth c = (depth + 1 : Nat) := by
  simp [depthAfter, h]

theorem depthAfter_closing {c : Char} (h : isClosing c) (depth : Nat) :
    depthAfter ((depth + 1 : Nat) : Int) c = (depth : Nat) := by
  simp [depthAfter, h, not_opening_of_closing h]

theorem depthAfter_plain {c : Char} (h : IsPlain c) (depth : Int) : depthAfter depth c = depth := by
  simp [depthAfter, h.1, h.2]

theorem IsPlain.ne_opening {c d : Char} (h : IsPlain c) (hd : isOpening d) : d ≠ c := by
  rintro rfl
  simp [h.1] at hd

theorem IsPlain.ne_closing {c d : Char} (h : IsPlain c) (hd : isClosing d) : d ≠ c := by
  rintro rfl
  simp [h.2] at hd

/-! ## Parts -/

theorem foldr_consFirst (text part : List Char) (parts : List (List Char)) :
    text.foldr Text.consFirst (part :: parts) = (text ++ part) :: parts := by
  induction text with
  | nil => rfl
  | cons c text ih => rw [List.foldr_cons, ih]; rfl

section Split

variable {separator : Char}

theorem splitTop_passes (h : IsPlain separator) :
    Passes (fun depth _ text => splitTopFrom separator depth text) Text.consFirst where
  opening depth last c rest hc := by
    rw [splitTopFrom, if_neg fun hsep => h.ne_opening hc hsep.1, depthAfter_opening hc]
  closing depth last c rest hc := by
    rw [splitTopFrom, if_neg fun hsep => h.ne_closing hc hsep.1, depthAfter_closing hc]
  inner depth last c rest hc := by
    rw [splitTopFrom, if_neg (by omega), depthAfter_plain hc]

/-- No cut in text without a separator outside of brackets. -/
theorem splitTop_level (h : IsPlain separator) {text : List Char}
    (htext : Level (· ≠ separator) text) (rest : List Char) :
    splitTopFrom separator 0 (text ++ rest) =
      text.foldr Text.consFirst (splitTopFrom separator 0 rest) := by
  refine (splitTop_passes h).level (fun _ c rest hc hne => ?_) htext none rest
  rw [splitTopFrom, if_neg fun hsep => hne hsep.1, depthAfter_plain hc]

theorem splitTop_last (h : IsPlain separator) {text : List Char}
    (htext : Level (· ≠ separator) text) : splitTop separator text = [text] := by
  have hpass := splitTop_level h htext []
  rw [List.append_nil] at hpass
  rw [splitTop, hpass, splitTopFrom, foldr_consFirst, List.append_nil]

theorem splitTop_cons (h : IsPlain separator) {text : List Char}
    (htext : Level (· ≠ separator) text) (rest : List Char) :
    splitTop separator (text ++ separator :: rest) = text :: splitTop separator rest := by
  rw [splitTop, splitTop_level h htext, splitTopFrom, if_pos ⟨rfl, rfl⟩, foldr_consFirst,
    List.append_nil, splitTop]

theorem cutTop?_passes (h : IsPlain separator) :
    Passes (fun depth _ text => cutTopFrom? separator depth text)
      (fun c => Option.map fun (before, past) => (c :: before, past)) where
  opening depth last c rest hc := by
    rw [cutTopFrom?, if_neg fun hsep => h.ne_opening hc hsep.1, depthAfter_opening hc]
  closing depth last c rest hc := by
    rw [cutTopFrom?, if_neg fun hsep => h.ne_closing hc hsep.1, depthAfter_closing hc]
  inner depth last c rest hc := by
    rw [cutTopFrom?, if_neg (by omega), depthAfter_plain hc]

theorem foldr_cut (text : List Char) (found : Option (List Char × List Char)) :
    text.foldr (fun c => Option.map fun (before, past) => (c :: before, past)) found =
      found.map fun (before, past) => (text ++ before, past) := by
  induction text with
  | nil => cases found <;> rfl
  | cons c text ih => rw [List.foldr_cons, ih]; cases found <;> rfl

theorem cutTop?_level (h : IsPlain separator) {text : List Char}
    (htext : Level (· ≠ separator) text) (rest : List Char) :
    cutTop? separator (text ++ rest) =
      (cutTop? separator rest).map fun (before, past) => (text ++ before, past) := by
  rw [← foldr_cut]
  refine (cutTop?_passes h).level (fun _ c rest hc hne => ?_) htext none rest
  rw [cutTopFrom?, if_neg fun hsep => hne hsep.1, depthAfter_plain hc]

theorem cutTop?_none (h : IsPlain separator) {text : List Char}
    (htext : Level (· ≠ separator) text) : cutTop? separator text = none := by
  have hpass := cutTop?_level h htext []
  rwa [List.append_nil] at hpass

theorem cutTop?_some (h : IsPlain separator) {text : List Char}
    (htext : Level (· ≠ separator) text) (rest : List Char) :
    cutTop? separator (text ++ separator :: rest) = some (text, rest) := by
  have hhead : cutTop? separator (separator :: rest) = some ([], rest) := by
    rw [cutTop?, cutTopFrom?, if_pos ⟨rfl, rfl⟩]
  rw [cutTop?_level h htext, hhead, Option.map_some]
  simp

end Split

/-! ## Groups -/

/-- Inside of one bracket more than the depth says. -/
theorem closeFrom?_passes :
    Passes (fun depth _ text => closeFrom? (depth + 1) text) (fun c => Option.map (c :: ·)) where
  opening depth last c rest hc := by rw [closeFrom?, if_pos hc]
  closing depth last c rest hc := by
    rw [closeFrom?, if_neg (by simp [not_opening_of_closing hc]), if_pos hc, if_neg (by omega)]
    rfl
  inner depth last c rest hc := by
    rw [closeFrom?, if_neg (by simp [hc.1]), if_neg (by simp [hc.2])]

theorem foldr_close (text : List Char) (found : Option (List Char)) :
    text.foldr (fun c => Option.map (c :: ·)) found = found.map (text ++ ·) := by
  induction text with
  | nil => cases found <;> rfl
  | cons c text ih => rw [List.foldr_cons, ih]; cases found <;> rfl

/-- The bracketed text at the start of a text. -/
theorem group?_group {o c : Char} {inner : List Char} (ho : isOpening o) (hc : isClosing c)
    (hinner : Balanced inner) (rest : List Char) :
    group? (o :: (inner ++ c :: rest)) = some (o :: (inner ++ [c])) := by
  have hclose : closeFrom? 1 (c :: rest) = some [c] := by
    rw [closeFrom?, if_neg (by simp [not_opening_of_closing hc]), if_pos hc, if_pos (Nat.le_refl 1)]
  have hpass := closeFrom?_passes.level (p := fun _ => True) (fun last c rest hc _ => by
    rw [closeFrom?, if_neg (by simp [hc.1]), if_neg (by simp [hc.2])]) hinner.level none (c :: rest)
  rw [group?, closeFrom?, if_pos ho, hpass, foldr_close, hclose]
  rfl

end ClientBindings.Source
