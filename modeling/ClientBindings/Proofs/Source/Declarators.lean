import ClientBindings.Proofs.Source.Patterns

/-!
# Declarators

What the two scans of an exported statement, the one for its end and the one for its declarators,
make of the parts of a declarator.

* `readFrom`: both scans in one.
* `Goes`: a text that no declarator ends in. The scans hand on its characters, unless the statement
  ends inside.
* `Angled`: text with its angle brackets in pairs, such as a type.
* `Declarator`, `statementText`: the declarators of a statement, and its text.
-/

namespace ClientBindings.Source

/-! ## Both scans in one -/

/-- The declarators of the statement at the start of a text. -/
def readFrom (part : DeclaratorPart) (depth : Nat) (last : Option Char) (text : List Char) :
    List (List Char) :=
  declaratorsFrom depth part last (statementFrom depth text)

theorem declarators_statement (text : List Char) :
    declarators (statement text) = readFrom .target 0 none text := rfl

theorem statementFrom_opening {c : Char} (hc : isOpening c) (depth : Nat) (rest : List Char) :
    statementFrom depth (c :: rest) = c :: statementFrom (depth + 1) rest := by
  cases depth with
  | zero => rw [statementFrom, if_pos hc]
  | succ depth => rw [statementFrom, if_pos hc]

theorem statementFrom_inner {depth : Nat} {c : Char} (hc : IsPlain c) (rest : List Char) :
    statementFrom (depth + 1) (c :: rest) = c :: statementFrom (depth + 1) rest := by
  rw [statementFrom, if_neg (by simp [hc.1]), if_neg (by simp [hc.2]), if_neg (by omega)]

theorem statementFrom_closing {depth : Nat} {c : Char} (hc : isClosing c) (rest : List Char) :
    statementFrom (depth + 1) (c :: rest) = c :: statementFrom depth rest := by
  rw [statementFrom, if_neg (by simp [not_opening_of_closing hc]), if_pos hc]

/-- Outside of brackets a statement goes on at every character but a line feed that nothing
continues. -/
theorem statementFrom_plain {c : Char} (hc : IsPlain c) (rest : List Char) :
    statementFrom 0 (c :: rest) =
      if c = '\n' ∧ continues rest = false then [] else c :: statementFrom 0 rest := by
  rw [statementFrom, if_neg (by simp [hc.1]), if_neg (by simp [hc.2])]
  simp

theorem readFrom_passes (part : DeclaratorPart) : Passes (readFrom part) Text.consFirst where
  opening depth last c rest hc := by
    rw [readFrom, statementFrom_opening hc, declaratorsFrom, if_pos (by simp [hc]),
      depthAfter_opening hc, readFrom]
  closing depth last c rest hc := by
    rw [readFrom, statementFrom_closing hc, declaratorsFrom, if_pos (by simp [hc]),
      depthAfter_closing hc, readFrom]
  inner depth last c rest hc := by
    rw [readFrom, statementFrom_inner hc, declaratorsFrom, if_neg (by simp [hc.1, hc.2]),
      if_pos (by omega), readFrom]

/-- The end of the statement hides nothing from a look for `>`. -/
theorem head?_statementFrom (text : List Char) :
    (statementFrom 0 text).head? = some '>' ↔ text.head? = some '>' := by
  cases text with
  | nil => rfl
  | cons c rest =>
    by_cases ho : isOpening c
    · rw [statementFrom_opening ho]
      rfl
    by_cases hc : isClosing c
    · rw [statementFrom, if_neg ho, if_pos hc]
      have hne : c ≠ '>' := by
        rintro rfl
        exact absurd hc (by decide)
      simp [hne]
    rw [statementFrom_plain ⟨by simpa using ho, by simpa using hc⟩]
    split
    next h => simp [h.1]
    next => rfl

theorem DeclaratorPart.after?_congr (part : DeclaratorPart) (last : Option Char) (c : Char)
    {next next' : Option Char} (h : next = some '>' ↔ next' = some '>') :
    part.after? last c next = part.after? last c next' := by
  have hne : (next ≠ some '>') = (next' ≠ some '>') := propext (not_congr h)
  cases part with
  | target => simp only [DeclaratorPart.after?, hne]
  | typed angles => simp only [DeclaratorPart.after?, hne]
  | initializer => rfl

/-- What a character outside of brackets does, unless the statement ends before it. -/
theorem readFrom_plain {part : DeclaratorPart} {last : Option Char} {c : Char} {rest : List Char}
    (hc : IsPlain c) (hends : ¬ (c = '\n' ∧ continues rest = false)) :
    readFrom part 0 last (c :: rest) =
      match part.after? last c rest.head? with
      | none => [] :: readFrom .target 0 (some c) rest
      | some part => Text.consFirst c (readFrom part 0 (some c) rest) := by
  rw [readFrom, statementFrom_plain hc, if_neg hends, declaratorsFrom,
    if_neg (by simp [hc.1, hc.2]), if_neg (by omega),
    part.after?_congr last c (head?_statementFrom rest)]
  rfl

theorem readFrom_end {part : DeclaratorPart} {last : Option Char} {rest : List Char}
    (h : continues rest = false) : readFrom part 0 last ('\n' :: rest) = [[]] := by
  rw [readFrom, statementFrom_plain (by decide), if_pos ⟨rfl, h⟩]
  rfl

/-! ## Texts that no declarator ends in -/

/-- From `part` to `part'` through a text: the scans hand on all of its characters, or the
statement ends inside. -/
def Goes (part : DeclaratorPart) (last : Option Char) (text : List Char)
    (part' : DeclaratorPart) : Prop :=
  ∀ rest, readFrom part 0 last (text ++ rest) =
      text.foldr Text.consFirst (readFrom part' 0 (lastOf last text) rest) ∨
    ∃ start, start <+: text ∧ readFrom part 0 last (text ++ rest) = [start]

namespace Goes

variable {part mid part' : DeclaratorPart} {last : Option Char}

theorem nil : Goes part last [] part := fun _ => .inl rfl

theorem append {text more : List Char} (htext : Goes part last text mid)
    (hmore : Goes mid (lastOf last text) more part') : Goes part last (text ++ more) part' := by
  intro rest
  rw [List.append_assoc]
  rcases htext (more ++ rest) with hpass | ⟨start, hstart, hend⟩
  · rw [hpass]
    rcases hmore rest with hpass | ⟨start, hstart, hend⟩
    · left
      rw [hpass]
      simp [lastOf]
    · right
      refine ⟨text ++ start, (List.prefix_append_right_inj text).mpr hstart, ?_⟩
      rw [hend, foldr_consFirst]
  · exact .inr ⟨start, hstart.trans (List.prefix_append text more), hend⟩

theorem cons {c : Char} {text : List Char} (hc : IsPlain c)
    (hmove : ∀ rest, part.after? last c (text ++ rest).head? = some mid)
    (htext : Goes mid (some c) text part') : Goes part last (c :: text) part' := by
  intro rest
  rw [List.cons_append]
  by_cases hends : c = '\n' ∧ continues (text ++ rest) = false
  · obtain ⟨rfl, hends⟩ := hends
    exact .inr ⟨[], List.nil_prefix, readFrom_end hends⟩
  rw [readFrom_plain hc hends, hmove]
  rcases htext rest with hpass | ⟨start, hstart, hend⟩
  · exact .inl (congrArg (Text.consFirst c) hpass)
  · refine .inr ⟨c :: start, List.cons_prefix_cons.mpr ⟨rfl, hstart⟩, ?_⟩
    exact congrArg (Text.consFirst c) hend

theorem group {o c : Char} {inner text : List Char} (ho : isOpening o) (hc : isClosing c)
    (hinner : Balanced inner) (htext : Goes part (some c) text part') :
    Goes part last (o :: (inner ++ c :: text)) part' := by
  have hgroup : Goes part last (o :: (inner ++ [c])) part := by
    intro rest
    left
    rw [List.cons_append, List.append_assoc, List.singleton_append,
      (readFrom_passes part).group ho hc hinner]
    simp [lastOf]
  have hsplit : o :: (inner ++ c :: text) = (o :: (inner ++ [c])) ++ text := by simp
  rw [hsplit]
  refine hgroup.append ?_
  simpa [lastOf] using htext

/-- Through a text whose characters outside of brackets leave the part as it is. -/
theorem level {p : Char → Prop} (hp : ∀ last c next, p c → part.after? last c next = some part)
    {text : List Char} (htext : Level p text) (last : Option Char) :
    Goes part last text part := by
  induction htext generalizing last with
  | nil => exact nil
  | char hc hpc _ ih => exact cons hc (fun _ => hp _ _ _ hpc) (ih _)
  | group ho hc hinner _ ih => exact group ho hc hinner (ih _)

end Goes

theorem DeclaratorPart.target_after? {c : Char} (h : c ≠ ',' ∧ c ≠ ':' ∧ c ≠ '=')
    (last next : Option Char) : DeclaratorPart.target.after? last c next = some .target := by
  simp [DeclaratorPart.after?, h]

theorem DeclaratorPart.typed_after? {c : Char} (h : c ≠ ',' ∧ c ≠ '<' ∧ c ≠ '>' ∧ c ≠ '=')
    (angles : Nat) (last next : Option Char) :
    (DeclaratorPart.typed angles).after? last c next = some (.typed angles) := by
  simp [DeclaratorPart.after?, h]

theorem DeclaratorPart.initializer_after? {c : Char} (h : c ≠ ',') (last next : Option Char) :
    DeclaratorPart.initializer.after? last c next = some .initializer := by
  simp [DeclaratorPart.after?, h]

theorem DeclaratorPart.blank_after? {c : Char} (hc : Text.isBlank c) (part : DeclaratorPart)
    (last next : Option Char) : part.after? last c next = some part := by
  have hne (e : Char) (he : Text.isBlank e = false) : c ≠ e := ne_of_isBlank hc he
  cases part with
  | target =>
    exact target_after? ⟨hne ',' (by decide), hne ':' (by decide), hne '=' (by decide)⟩ _ _
  | typed angles =>
    exact typed_after? ⟨hne ',' (by decide), hne '<' (by decide), hne '>' (by decide),
      hne '=' (by decide)⟩ _ _ _
  | initializer => exact initializer_after? (hne ',' (by decide)) _ _

/-! ## Angle brackets -/

/-- Text with its angle brackets in pairs, and `p` for every other character outside of brackets.
Between angle brackets, and everywhere if `inside`, it may have commas and signs of equality. -/
inductive Angled (p : Char → Prop) : Bool → List Char → Prop
  | nil {inside : Bool} : Angled p inside []
  | char {inside : Bool} {c : Char} {rest : List Char} : IsPlain c → p c →
      c ≠ ',' ∧ c ≠ '<' ∧ c ≠ '>' ∧ c ≠ '=' → Angled p inside rest → Angled p inside (c :: rest)
  | comma {rest : List Char} : Angled p true rest → Angled p true (',' :: rest)
  | equals {rest : List Char} : rest ≠ [] → Angled p true rest → Angled p true ('=' :: rest)
  | arrow {inside : Bool} {rest : List Char} : Angled p inside rest →
      Angled p inside ('=' :: '>' :: rest)
  | group {inside : Bool} {o c : Char} {inner rest : List Char} : isOpening o → isClosing c →
      Balanced inner → Angled p inside rest → Angled p inside (o :: (inner ++ c :: rest))
  | angles {inside : Bool} {inner rest : List Char} : Angled p true inner →
      Angled p inside rest → Angled p inside ('<' :: (inner ++ '>' :: rest))

theorem lastOf_append_cons (last : Option Char) (text : List Char) (c : Char) (rest : List Char) :
    lastOf last (text ++ c :: rest) = lastOf (some c) rest := by
  simp [lastOf]

namespace Angled

variable {p : Char → Prop} {inside : Bool} {text : List Char}

/-- No sign of equality at the end, so that a bracket past it is not taken for an arrow. -/
theorem lastOf_ne (h : Angled p inside text) {last : Option Char}
    (hlast : text ≠ [] ∨ last ≠ some '=') : lastOf last text ≠ some '=' := by
  induction h generalizing last with
  | nil => exact hlast.resolve_left fun hne => hne rfl
  | char _ _ hc _ ih => exact ih (.inr (by simpa using hc.2.2.2))
  | comma _ ih => exact ih (.inr (by simp))
  | equals hne _ ih => exact ih (.inl hne)
  | arrow _ ih => exact ih (.inr (by simp))
  | @group _ o c inner rest ho hc _ _ ih =>
    have hne : c ≠ '=' := by
      rintro rfl
      exact absurd hc (by decide)
    rw [← List.cons_append, lastOf_append_cons]
    exact ih (.inr (by simpa using hne))
  | angles _ _ _ ih =>
    rw [← List.cons_append, lastOf_append_cons]
    exact ih (.inr (by decide))

/-- No declarator ends in a type, whether angle brackets are open around it or not. -/
theorem goes (h : Angled p inside text) {n : Nat} (hn : inside → 0 < n) (last : Option Char) :
    Goes (.typed n) last text (.typed n) := by
  induction h generalizing n last with
  | nil => exact .nil
  | char hc _ hne _ ih => exact .cons hc (fun _ => DeclaratorPart.typed_after? hne n _ _) (ih hn _)
  | comma _ ih =>
    have hpos := hn rfl
    refine .cons (by decide) (fun _ => ?_) (ih hn _)
    simp [DeclaratorPart.after?, Nat.ne_of_gt hpos]
  | equals _ _ ih =>
    have hpos := hn rfl
    refine .cons (by decide) (fun _ => ?_) (ih hn _)
    simp [DeclaratorPart.after?, Nat.ne_of_gt hpos]
  | @arrow _ rest _ ih =>
    have hpast : Goes (.typed n) (some '=') ('>' :: rest) (.typed n) := by
      refine .cons (by decide) (fun _ => ?_) (ih hn _)
      simp [DeclaratorPart.after?]
    refine .cons (by decide) (fun _ => ?_) hpast
    simp [DeclaratorPart.after?]
  | group ho hc hinner _ ih => exact .group ho hc hinner (ih hn _)
  | @angles _ inner rest hinner _ ihinner ih =>
    have hlast : lastOf (some '<') inner ≠ some '=' := hinner.lastOf_ne (.inr (by decide))
    refine .cons (by decide) (fun _ => rfl) (.append (ihinner (fun _ => Nat.succ_pos n) _) ?_)
    refine .cons (by decide) (fun _ => ?_) (ih hn _)
    simp [DeclaratorPart.after?, hlast]

end Angled

/-! ## Declarators -/

/-- A declarator: blanks, the pattern that it binds, and what follows the pattern. -/
structure Declarator where
  lead : List Char
  target : List Char
  names : List String
  tail : List Char
  blanks : Blanks lead
  binds : Binds .pattern target names
  parted : Parted tail

namespace Declarator

def text (d : Declarator) : List Char := d.lead ++ (d.target ++ d.tail)

theorem text_append (d : Declarator) (rest : List Char) :
    d.text ++ rest = d.lead ++ (d.target ++ (d.tail ++ rest)) := by
  simp [text]

/-- What may be left of a declarator where its statement ends inside: blanks, or the pattern with
the start of what follows it. -/
def Remains (d : Declarator) (part : List Char) : Prop :=
  Blanks part ∨ ∃ tail, Parted tail ∧ part = d.lead ++ (d.target ++ tail)

theorem remains_text (d : Declarator) : d.Remains d.text := .inr ⟨d.tail, d.parted, rfl⟩

theorem declaratorTarget_of_parted (d : Declarator) {tail : List Char} (h : Parted tail) :
    declaratorTarget (d.lead ++ (d.target ++ tail)) = d.target :=
  declaratorTarget_pad d.blanks d.binds h

theorem Remains.names {d : Declarator} {part : List Char} (h : d.Remains part) {name : String}
    (hname : name ∈ patternNames (declaratorTarget part)) : name ∈ d.names := by
  rcases h with hblanks | ⟨tail, htail, rfl⟩
  · have htrim : Text.trim part = [] := by
      simpa using trim_pad hblanks .nil .nil
    have hnone : patternNames (declaratorTarget part) = [] := by
      simp only [declaratorTarget, htrim]
      rfl
    simp [hnone] at hname
  · rw [d.declaratorTarget_of_parted htail, patternNames_binds d.binds] at hname
    exact (List.mem_filter.mp hname).1

/-- The characters of a pattern are handed on: no statement ends inside of it. -/
theorem readFrom_pattern (d : Declarator) (last : Option Char) (rest : List Char) :
    readFrom .target 0 last (d.target ++ rest) = d.target.foldr Text.consFirst
      (readFrom .target 0 (lastOf last d.target) rest) := by
  obtain ⟨-, -, hlevel⟩ := d.binds.shape
  refine (readFrom_passes .target).level (fun last c rest hc hname => ?_) hlevel last rest
  have hne (e : Char) (he : isNameChar e = false) : c ≠ e := ne_of_isNameChar hname he
  rw [readFrom_plain hc fun h => hne '\n' (by decide) h.1, DeclaratorPart.target_after?
    ⟨hne ',' (by decide), hne ':' (by decide), hne '=' (by decide)⟩]

/-- So are the blanks before it, unless the statement ends in them. -/
theorem readFrom_lead (d : Declarator) (last : Option Char) (rest : List Char) :
    readFrom .target 0 last (d.lead ++ (d.target ++ rest)) =
      (d.lead ++ d.target).foldr Text.consFirst
        (readFrom .target 0 (lastOf last (d.lead ++ d.target)) rest) ∨
    ∃ start, Blanks start ∧ readFrom .target 0 last (d.lead ++ (d.target ++ rest)) = [start] := by
  have hlevel : Level (fun c => Text.isBlank c) d.lead := d.blanks.level fun _ hc => hc
  have hlead : Goes .target last d.lead .target :=
    .level (fun _ _ _ hc => DeclaratorPart.blank_after? hc _ _ _) hlevel last
  rcases hlead (d.target ++ rest) with hpass | ⟨start, hstart, hend⟩
  · left
    rw [hpass, readFrom_pattern]
    simp [lastOf]
  · exact .inr ⟨start, d.blanks.of_prefix hstart, hend⟩

end Declarator

/-- The text of declarators with commas between them. -/
def statementText : List Declarator → List Char
  | [] => []
  | [d] => d.text
  | d :: next :: ds => d.text ++ ',' :: statementText (next :: ds)

theorem mem_firstSeen {α : Type} [DecidableEq α] {a : α} {entries : List α} :
    a ∈ firstSeen entries ↔ a ∈ entries := by
  induction entries with
  | nil => rfl
  | cons b rest ih =>
    by_cases hab : a = b
    · simp [firstSeen, hab]
    · simp [firstSeen, hab, ih]

theorem firstSeen_nodup {α : Type} [DecidableEq α] (entries : List α) : (firstSeen entries).Nodup := by
  induction entries with
  | nil => exact .nil
  | cons a rest ih => exact List.nodup_cons.mpr ⟨by simp, ih.filter _⟩

end ClientBindings.Source
