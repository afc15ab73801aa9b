import ClientBindings.Proofs.Source.Names
import ClientBindings.Proofs.Source.Nesting

/-!
# Binding patterns

The grammar of the patterns that bind names, and what the reader of patterns makes of them.

* `Binds`: a text as a pattern, as an entry of one, or as a list of entries, with the names that it
  binds.
* `patternNames_binds`: of a pattern the names that are identifiers are read, in order.
* `declaratorTarget_pad`: the pattern at the start of a declarator is found.
* `patternNames_declaratorTarget`: so of a declarator the names that its pattern binds are read.

A default value is any text with its brackets in pairs and no comma outside of them. The default of
a name that stands for its own key has no colon outside of brackets either: the reader takes the
text past the first colon of an entry for a pattern.
-/

namespace ClientBindings.Source

/-! ## Grammar -/

/-- A pattern of entries in brackets. -/
inductive Kind
  | object
  | array

namespace Kind

def opening : Kind → Char
  | object => '{'
  | array => '['

def closing : Kind → Char
  | object => '}'
  | array => ']'

theorem isOpening_opening (kind : Kind) : isOpening kind.opening := by
  cases kind with
  | object => rfl
  | array => rfl

theorem isClosing_closing (kind : Kind) : isClosing kind.closing := by
  cases kind with
  | object => rfl
  | array => rfl

end Kind

/-- What a text of a pattern is. -/
inductive Role
  | pattern
  | entry (kind : Kind)
  | entries (kind : Kind)

/-- A default value with the sign before it, or nothing; `p` holds of the characters of the value
outside of brackets. -/
inductive Default (p : Char → Prop) : List Char → Prop
  | none : Default p []
  | value {gap value : List Char} : Blanks gap → Level p value →
      (∀ c ∈ value.getLast?, Text.isBlank c = false) → Default p (gap ++ '=' :: value)

/-- The text of a role, with the names that it binds. -/
inductive Binds : Role → List Char → List String → Prop
  | name {text : List Char} : IsName text → Binds .pattern text [String.ofList text]
  | bracketed {kind : Kind} {text : List Char} {names : List String} :
      Binds (.entries kind) text names →
      Binds .pattern (kind.opening :: (text ++ [kind.closing])) names
  | last {kind : Kind} {before text after : List Char} {names : List String} : Blanks before →
      Binds (.entry kind) text names → Blanks after →
      Binds (.entries kind) (before ++ (text ++ after)) names
  | more {kind : Kind} {before text after rest : List Char} {names others : List String} :
      Blanks before → Binds (.entry kind) text names → Blanks after →
      Binds (.entries kind) rest others →
      Binds (.entries kind) (before ++ (text ++ after) ++ ',' :: rest) (names ++ others)
  /-- Nothing between two commas, or past the last one. -/
  | hole {kind : Kind} : Binds (.entry kind) [] []
  /-- `a` or `a = value` in an object pattern. -/
  | shorthand {text value : List Char} : IsName text → Default (fun c => c ≠ ',' ∧ c ≠ ':') value →
      Binds (.entry .object) (text ++ value) [String.ofList text]
  /-- `key: target` or `key: target = value` in an object pattern. -/
  | renamed {key gap text value : List Char} {names : List String} : key ≠ [] →
      Level (fun c => c ≠ ',' ∧ c ≠ ':' ∧ c ≠ '=') key →
      (∀ c ∈ key.head?, Text.isBlank c = false) → ¬ restDots <+: key → Blanks gap →
      Binds .pattern text names → Default (· ≠ ',') value →
      Binds (.entry .object) (key ++ ':' :: (gap ++ (text ++ value))) names
  /-- `target` or `target = value` in an array pattern. -/
  | element {text value : List Char} {names : List String} : Binds .pattern text names →
      Default (· ≠ ',') value → Binds (.entry .array) (text ++ value) names
  /-- `...target`. -/
  | rest {kind : Kind} {gap text : List Char} {names : List String} : Blanks gap →
      Binds .pattern text names → Binds (.entry kind) (restDots ++ (gap ++ text)) names

/-- The names that the reader takes: a dollar is no character of an identifier for it. -/
def bindable (names : List String) : List String :=
  names.filter fun name => isIdentifier name.toList

/-! ## Shapes -/

theorem bracket_class {c : Char} (h : isOpening c ∨ isClosing c) :
    Text.isBlank c = false ∧ isNameChar c = false := by
  simp only [isOpening, isClosing, Bool.or_eq_true, beq_iff_eq] at h
  rcases h with ((rfl | rfl) | rfl) | (rfl | rfl) | rfl
  all_goals decide

theorem isPlain_of_not {c : Char} (h : ¬ (isOpening c ∨ isClosing c)) : IsPlain c := by
  rw [not_or, Bool.not_eq_true, Bool.not_eq_true] at h
  exact h

theorem isPlain_of_isBlank {c : Char} (h : Text.isBlank c) : IsPlain c := by
  apply isPlain_of_not
  intro hbracket
  rw [(bracket_class hbracket).1] at h
  exact Bool.false_ne_true h

theorem isPlain_of_isWord {c : Char} (h : Text.isWord c) : IsPlain c := by
  apply isPlain_of_not
  simp only [isOpening, isClosing, Bool.or_eq_true, beq_iff_eq]
  rintro (((rfl | rfl) | rfl) | (rfl | rfl) | rfl)
  all_goals exact absurd h (by decide)

theorem isPlain_of_isNameChar {c : Char} (h : isNameChar c) : IsPlain c := by
  apply isPlain_of_not
  intro hbracket
  rw [(bracket_class hbracket).2] at h
  exact Bool.false_ne_true h

variable {p : Char → Prop}

theorem Blanks.level {text : List Char} (h : Blanks text) (hp : ∀ c, Text.isBlank c → p c) :
    Level p text :=
  .of_forall fun c hc => ⟨isPlain_of_isBlank (h c hc), hp c (h c hc)⟩

theorem Level.pad {before text after : List Char} (h : Level p text) (hbefore : Blanks before)
    (hafter : Blanks after) (hp : ∀ c, Text.isBlank c → p c) :
    Level p (before ++ (text ++ after)) :=
  (hbefore.level hp).append (h.append (hafter.level hp))

theorem IsName.level {name : List Char} (h : IsName name) (hp : ∀ c, isNameChar c → p c) :
    Level p name :=
  .of_forall fun c hc => ⟨isPlain_of_isNameChar (h.chars c hc), hp c (h.chars c hc)⟩

theorem Default.level {text : List Char} (h : Default p text) (hp : ∀ c, Text.isBlank c → p c)
    (heq : p '=') : Level p text := by
  cases h with
  | none => exact .nil
  | value hgap hvalue _ => exact (hgap.level hp).append (.char (by decide) heq hvalue)

theorem Default.final {text : List Char} (h : Default p text) :
    ∀ c ∈ text.getLast?, Text.isBlank c = false := by
  cases h with
  | none => simp
  | value _ _ hlast =>
    exact final_append (fun hnil => by simp at hnil) (final_cons (by decide) hlast)

theorem Kind.solid (kind : Kind) (text : List Char) :
    Solid (kind.opening :: (text ++ [kind.closing])) := by
  have hfirst := (bracket_class (.inl kind.isOpening_opening)).1
  have hfinal := (bracket_class (.inr kind.isClosing_closing)).1
  constructor
  · intro c hc
    obtain rfl : kind.opening = c := by simpa using hc
    exact hfirst
  · refine final_cons hfirst (final_append (fun h => by simp at h) ?_)
    intro c hc
    obtain rfl : kind.closing = c := by simpa using hc
    exact hfinal

/-- The shape of the texts of a role: how a pattern begins and ends, and what stands outside of
brackets. -/
def Role.Shape : Role → List Char → Prop
  | .pattern, text => text ≠ [] ∧ Solid text ∧ Level (fun c => isNameChar c) text
  | .entry _, text => Solid text ∧ Level (· ≠ ',') text
  | .entries _, text => Balanced text

namespace Role.Shape

/-- A pattern with a default value. -/
theorem withDefault {text value : List Char} (h : Role.pattern.Shape text)
    (hvalue : Default p value) (hname : ∀ c, isNameChar c → p c)
    (hblank : ∀ c, Text.isBlank c → p c) (heq : p '=') :
    Solid (text ++ value) ∧ Level p (text ++ value) := by
  obtain ⟨hne, hsolid, hlevel⟩ := h
  exact ⟨hsolid.append hne hvalue.final, (hlevel.mono hname).append (hvalue.level hblank heq)⟩

theorem ofName {name : List Char} (h : IsName name) : Role.pattern.Shape name :=
  ⟨h.ne_nil, h.solid, h.level fun _ hc => hc⟩

end Role.Shape

theorem nameChar_ne_comma : ∀ c, isNameChar c → c ≠ ',' :=
  fun _ hc => ne_of_isNameChar hc (by decide)

theorem blank_ne_comma : ∀ c, Text.isBlank c → c ≠ ',' := fun _ hc => ne_of_isBlank hc (by decide)

theorem Binds.shape {role : Role} {text : List Char} {names : List String}
    (h : Binds role text names) : role.Shape text := by
  induction h with
  | name h => exact .ofName h
  | @bracketed kind text names _ ih =>
    exact ⟨List.cons_ne_nil _ _, kind.solid text,
      .group kind.isOpening_opening kind.isClosing_closing ih .nil⟩
  | last hbefore _ hafter ih =>
    exact (ih.2.pad hbefore hafter blank_ne_comma).balanced
  | more hbefore _ hafter _ ih ihrest =>
    exact (ih.2.pad hbefore hafter blank_ne_comma).balanced.append (.char (by decide) ihrest)
  | hole => exact ⟨.nil, .nil⟩
  | shorthand hname hvalue =>
    have hshape := Role.Shape.ofName hname |>.withDefault hvalue
      (fun c hc => ⟨nameChar_ne_comma c hc, ne_of_isNameChar hc (by decide)⟩)
      (fun c hc => ⟨blank_ne_comma c hc, ne_of_isBlank hc (by decide)⟩) (by decide)
    exact ⟨hshape.1, hshape.2.mono fun c hc => hc.1⟩
  | @renamed key gap text value names hne hkey hfirst _ hgap _ hvalue ih =>
    obtain ⟨hsolid, hlevel⟩ := ih.withDefault hvalue nameChar_ne_comma blank_ne_comma (by decide)
    have hfinal : ∀ c ∈ (key ++ ':' :: (gap ++ (text ++ value))).getLast?,
        Text.isBlank c = false := by
      refine final_append (fun h => by simp at h) (final_cons (by decide) ?_)
      exact final_append (fun h => absurd (List.append_eq_nil_iff.mp h).1 ih.1) hsolid.final
    refine ⟨⟨fun c hc => ?_, hfinal⟩, ?_⟩
    · cases key with
      | nil => exact absurd rfl hne
      | cons d key => exact hfirst c hc
    · refine (hkey.mono fun c hc => hc.1).append (.char (by decide) (by decide) ?_)
      exact (hgap.level blank_ne_comma).append hlevel
  | element _ hvalue ih => exact ih.withDefault hvalue nameChar_ne_comma blank_ne_comma (by decide)
  | @rest kind gap text names hgap _ ih =>
    obtain ⟨hne, hsolid, hlevel⟩ := ih
    have hdots : Level (· ≠ ',') restDots := .of_forall (by simp [restDots]; decide)
    refine ⟨⟨?_, ?_⟩, hdots.append ?_⟩
    · intro c hc
      obtain rfl : '.' = c := by simpa [restDots] using hc
      decide
    · refine final_append (fun h => ?_) (final_append (fun h => absurd h hne) hsolid.final)
      exact absurd (List.append_eq_nil_iff.mp h).2 hne
    · exact (hgap.level blank_ne_comma).append (hlevel.mono nameChar_ne_comma)

/-! ## Marks -/

/-- An occurrence that reaches to the rest has the length of its opening. -/
theorem upTo_append {α β : Type} (opening rest : List α) (found : β) :
    upTo (opening ++ rest) rest found = (found, opening.length) := by
  simp [upTo]

theorem dropMark?_append (mark rest : List Char) :
    dropMark? id mark (mark ++ rest) = some rest := by
  induction mark with
  | nil => rfl
  | cons m mark ih => simpa [dropMark?] using ih

theorem dropMark?_eq_none {mark text : List Char} (h : ¬ mark <+: text) :
    dropMark? id mark text = none := by
  induction mark generalizing text with
  | nil => exact absurd List.nil_prefix h
  | cons m mark ih =>
    cases text with
    | nil => rfl
    | cons c rest =>
      rw [dropMark?]
      by_cases hc : id c = m
      · rw [if_pos hc]
        exact ih fun hrest => h (List.cons_prefix_cons.mpr ⟨hc.symm, hrest⟩)
      · rw [if_neg hc]

/-- A mark without the character `c` does not reach past it. -/
theorem prefix_of_append_cons {mark text rest : List Char} {c : Char} (hc : c ∉ mark)
    (h : mark <+: text ++ c :: rest) : mark <+: text := by
  obtain ⟨past, hpast⟩ := h
  rcases List.append_eq_append_iff.mp hpast with ⟨other, rfl, -⟩ | ⟨other, rfl, hother⟩
  · exact List.prefix_append _ _
  · cases other with
    | nil => simp
    | cons d other =>
      obtain ⟨rfl, -⟩ := List.cons.inj hother
      exact absurd (by simp) hc

/-- No new name is split off a text without blanks. -/
theorem before_asWord {text : List Char} (h : ∀ c ∈ text, isNameChar c) :
    Text.before asWord text = text := by
  induction text with
  | nil => rfl
  | cons c rest ih =>
    have hc : (' ' == c) = false :=
      beq_eq_false_iff_ne.mpr (ne_of_isNameChar (h c List.mem_cons_self) (by decide)).symm
    rw [Text.before, ih fun d hd => h d (List.mem_cons_of_mem c hd)]
    simp [asWord, List.isPrefixOf, hc]

/-! ## Reading -/

/-- The names read from an entry of a pattern. -/
def entryNames (kind : Kind) (fuel : Nat) (text : List Char) : List String :=
  let element := Text.trim text
  match kind with
  | .object =>
    if element.isEmpty then []
    else match dropMark? id restDots element with
      | some rest => patternNamesFrom fuel rest
      | none =>
        match cutTop? ':' element with
        | some (_, target) => patternNamesFrom fuel (withoutDefault target)
        | none => patternNamesFrom fuel (Text.before asWord (withoutDefault element))
  | .array =>
    patternNamesFrom fuel (withoutDefault ((dropMark? id restDots element).getD element))

theorem entryNames_congr (kind : Kind) (fuel : Nat) {a b : List Char}
    (h : Text.trim a = Text.trim b) : entryNames kind fuel a = entryNames kind fuel b := by
  cases kind with
  | object => simp only [entryNames, h]
  | array => simp only [entryNames, h]

theorem patternNamesFrom_congr (fuel : Nat) {a b : List Char} (h : Text.trim a = Text.trim b) :
    patternNamesFrom fuel a = patternNamesFrom fuel b := by
  cases fuel with
  | zero => rfl
  | succ fuel => rw [patternNamesFrom, patternNamesFrom, h]

theorem between?_bracketed (o c : Char) (text : List Char) :
    between? o c (o :: (text ++ [c])) = some text := by
  simp [between?]

theorem between?_other {o d : Char} (h : d ≠ o) (c : Char) (rest : List Char) :
    between? o c (d :: rest) = none := by
  simp [between?, h]

theorem patternNamesFrom_bracketed (kind : Kind) (fuel : Nat) (text : List Char) :
    patternNamesFrom (fuel + 1) (kind.opening :: (text ++ [kind.closing])) =
      (splitTop ',' text).flatMap (entryNames kind fuel) := by
  rw [patternNamesFrom, trim_solid (kind.solid text)]
  cases kind with
  | object =>
    simp only [Kind.opening, Kind.closing, between?_bracketed]
    rfl
  | array =>
    have hobject : between? '{' '}' ('[' :: (text ++ [']'])) = none :=
      between?_other (by decide) _ _
    simp only [Kind.opening, Kind.closing, hobject, between?_bracketed]
    rfl

theorem patternNamesFrom_name {name : List Char} (h : IsName name) (fuel : Nat) :
    patternNamesFrom (fuel + 1) name = bindable [String.ofList name] := by
  rw [patternNamesFrom, trim_solid h.solid]
  cases name with
  | nil => exact h.elim
  | cons c rest =>
    have hc := h.chars c List.mem_cons_self
    simp only [between?_other (ne_of_isNameChar hc (by decide : isNameChar '{' = false)),
      between?_other (ne_of_isNameChar hc (by decide : isNameChar '[' = false)), bindable,
      List.filter_cons, List.filter_nil, String.toList_ofList]

/-- The default value of a pattern is taken off, and the blanks around the pattern. -/
theorem withoutDefault_pattern {gap text value : List Char} (hgap : Blanks gap)
    (htext : Role.pattern.Shape text) (hvalue : Default p value) :
    withoutDefault (gap ++ (text ++ value)) = text := by
  obtain ⟨-, hsolid, hlevel⟩ := htext
  have hname : ∀ c, isNameChar c → c ≠ '=' := fun _ hc => ne_of_isNameChar hc (by decide)
  have hblank : ∀ c, Text.isBlank c → c ≠ '=' := fun _ hc => ne_of_isBlank hc (by decide)
  have hbefore {after : List Char} (hafter : Blanks after) :
      Level (· ≠ '=') (gap ++ (text ++ after)) := (hlevel.mono hname).pad hgap hafter hblank
  cases hvalue with
  | none =>
    rw [withoutDefault, cutTop?_none (by decide) (hbefore .nil)]
    exact trim_pad hgap hsolid .nil
  | @value blanks value hblanks _ _ =>
    have hassoc : gap ++ (text ++ (blanks ++ '=' :: value)) =
        (gap ++ (text ++ blanks)) ++ '=' :: value := by simp
    rw [withoutDefault, hassoc, cutTop?_some (by decide) (hbefore hblanks)]
    exact trim_pad hgap hsolid hblanks

/-- How the reader takes a text of a role. -/
def Role.read : Role → Nat → List Char → List String
  | .pattern, fuel, text => patternNamesFrom fuel text
  | .entry kind, fuel, text => entryNames kind fuel text
  | .entries kind, fuel, text => (splitTop ',' text).flatMap (entryNames kind fuel)

/-- A pattern does not start like a rest element. -/
theorem Role.Shape.not_restDots {text : List Char} (h : Role.pattern.Shape text)
    (rest : List Char) : ¬ restDots <+: text ++ rest := by
  obtain ⟨hne, -, hlevel⟩ := h
  intro hdots
  cases hlevel with
  | nil => exact hne rfl
  | @char c _ _ hc _ =>
    have hdot : '.' = c := (List.cons_prefix_cons.mp hdots).1
    exact ne_of_isNameChar hc (by decide) hdot.symm
  | @group o _ _ _ ho _ _ _ =>
    have hdot : '.' = o := (List.cons_prefix_cons.mp hdots).1
    rw [← hdot] at ho
    exact absurd ho (by decide)

theorem entryNames_shorthand {text value : List Char} (htext : IsName text)
    (hvalue : Default (fun c => c ≠ ',' ∧ c ≠ ':') value) (fuel : Nat) :
    entryNames .object fuel (text ++ value) = patternNamesFrom fuel text := by
  have hshape := Role.Shape.ofName htext
  have hentry := (Binds.shorthand htext hvalue).shape
  have hcolon : Level (· ≠ ':') (text ++ value) :=
    (hshape.withDefault hvalue
      (fun c hc => ⟨nameChar_ne_comma c hc, ne_of_isNameChar hc (by decide)⟩)
      (fun c hc => ⟨blank_ne_comma c hc, ne_of_isBlank hc (by decide)⟩) (by decide)).2.mono
        fun c hc => hc.2
  have hnonempty : (text ++ value).isEmpty = false := by simp [htext.ne_nil]
  have hbare : withoutDefault (text ++ value) = text :=
    withoutDefault_pattern .nil hshape hvalue
  simp only [entryNames, trim_solid hentry.1, hnonempty, Bool.false_eq_true, if_false,
    dropMark?_eq_none (hshape.not_restDots value), cutTop?_none (by decide) hcolon, hbare,
    before_asWord htext.chars]

theorem entryNames_renamed {key gap text value : List Char}
    (hkey : Level (fun c => c ≠ ',' ∧ c ≠ ':' ∧ c ≠ '=') key) (hdots : ¬ restDots <+: key)
    (hgap : Blanks gap) (htext : Role.pattern.Shape text) (hvalue : Default (· ≠ ',') value)
    (hsolid : Solid (key ++ ':' :: (gap ++ (text ++ value)))) (fuel : Nat) :
    entryNames .object fuel (key ++ ':' :: (gap ++ (text ++ value))) =
      patternNamesFrom fuel text := by
  have hnonempty : (key ++ ':' :: (gap ++ (text ++ value))).isEmpty = false := by simp
  have hdots : ¬ restDots <+: key ++ ':' :: (gap ++ (text ++ value)) :=
    fun h => hdots (prefix_of_append_cons (by decide) h)
  have hcolon : Level (· ≠ ':') key := hkey.mono fun c hc => hc.2.1
  simp only [entryNames, trim_solid hsolid, hnonempty, Bool.false_eq_true, if_false,
    dropMark?_eq_none hdots, cutTop?_some (by decide) hcolon,
    withoutDefault_pattern hgap htext hvalue]

theorem entryNames_element {text value : List Char} (htext : Role.pattern.Shape text)
    (hvalue : Default (· ≠ ',') value) (fuel : Nat) :
    entryNames .array fuel (text ++ value) = patternNamesFrom fuel text := by
  have hsolid := (htext.withDefault hvalue nameChar_ne_comma blank_ne_comma (by decide)).1
  have hbare : withoutDefault (text ++ value) = text := withoutDefault_pattern .nil htext hvalue
  simp only [entryNames, trim_solid hsolid, dropMark?_eq_none (htext.not_restDots value),
    Option.getD_none, hbare]

theorem entryNames_rest (kind : Kind) {gap text : List Char} (hgap : Blanks gap)
    (htext : Role.pattern.Shape text) (hsolid : Solid (restDots ++ (gap ++ text))) (fuel : Nat) :
    entryNames kind fuel (restDots ++ (gap ++ text)) = patternNamesFrom fuel text := by
  have hbare : Text.trim (gap ++ text) = text := by
    simpa using trim_pad hgap htext.2.1 .nil
  cases kind with
  | object =>
    have hnonempty : (restDots ++ (gap ++ text)).isEmpty = false := rfl
    simp only [entryNames, trim_solid hsolid, hnonempty, Bool.false_eq_true, if_false,
      dropMark?_append]
    exact patternNamesFrom_congr fuel (hbare.trans (trim_solid htext.2.1).symm)
  | array =>
    have hpattern : withoutDefault (gap ++ text) = text := by
      simpa using withoutDefault_pattern hgap htext (Default.none (p := fun _ => True))
    simp only [entryNames, trim_solid hsolid, dropMark?_append, Option.getD_some, hpattern]

theorem bindable_append (names others : List String) :
    bindable (names ++ others) = bindable names ++ bindable others :=
  List.filter_append names others

theorem entryNames_pad (kind : Kind) (fuel : Nat) {before text after : List Char}
    (hbefore : Blanks before) (htext : Solid text) (hafter : Blanks after) :
    entryNames kind fuel (before ++ (text ++ after)) = entryNames kind fuel text := by
  refine entryNames_congr kind fuel ?_
  rw [trim_pad hbefore htext hafter, trim_solid htext]

/-- The names that a text of a role binds are read, given fuel for its length. -/
theorem Binds.read {role : Role} {text : List Char} {names : List String}
    (h : Binds role text names) {fuel : Nat} (hfuel : text.length < fuel) :
    role.read fuel text = bindable names := by
  -- Only a pair of brackets takes fuel, and it is two characters shorter inside.
  induction h generalizing fuel with
  | name htext =>
    obtain ⟨fuel, rfl⟩ : ∃ n, fuel = n + 1 := ⟨fuel - 1, by omega⟩
    exact patternNamesFrom_name htext fuel
  | @bracketed kind text names _ ih =>
    obtain ⟨fuel, rfl⟩ : ∃ n, fuel = n + 1 := ⟨fuel - 1, by omega⟩
    rw [Role.read, patternNamesFrom_bracketed]
    refine ih ?_
    simp only [List.length_cons, List.length_append] at hfuel
    omega
  | @last kind before text after names hbefore htext hafter ih =>
    have hshape := htext.shape
    have hlevel := hshape.2.pad hbefore hafter blank_ne_comma
    rw [Role.read, splitTop_last (by decide) hlevel, List.flatMap_singleton,
      entryNames_pad kind fuel hbefore hshape.1 hafter]
    refine ih ?_
    simp only [List.length_append] at hfuel
    omega
  | @more kind before text after rest names others hbefore htext hafter _ ih ihrest =>
    have hshape := htext.shape
    have hlevel := hshape.2.pad hbefore hafter blank_ne_comma
    simp only [List.length_append, List.length_cons] at hfuel
    have hentry := ih (show text.length < fuel by omega)
    have hothers := ihrest (show rest.length < fuel by omega)
    rw [Role.read, splitTop_cons (by decide) hlevel, List.flatMap_cons,
      entryNames_pad kind fuel hbefore hshape.1 hafter, bindable_append, ← hentry, ← hothers]
    rfl
  | @hole kind =>
    obtain ⟨fuel, rfl⟩ : ∃ n, fuel = n + 1 := ⟨fuel - 1, by omega⟩
    cases kind <;> rfl
  | @shorthand text value htext hvalue =>
    obtain ⟨fuel, rfl⟩ : ∃ n, fuel = n + 1 := ⟨fuel - 1, by omega⟩
    rw [Role.read, entryNames_shorthand htext hvalue]
    exact patternNamesFrom_name htext fuel
  | @renamed key gap text value names hne hkey hfirst hdots hgap htext hvalue ih =>
    have hsolid := (Binds.renamed hne hkey hfirst hdots hgap htext hvalue).shape.1
    rw [Role.read, entryNames_renamed hkey hdots hgap htext.shape hvalue hsolid]
    refine ih ?_
    simp only [List.length_append, List.length_cons] at hfuel
    omega
  | element htext hvalue ih =>
    rw [Role.read, entryNames_element htext.shape hvalue]
    refine ih ?_
    simp only [List.length_append] at hfuel
    omega
  | @rest kind gap text names hgap htext ih =>
    have hentry : Binds (.entry kind) (restDots ++ (gap ++ text)) names := .rest hgap htext
    rw [Role.read, entryNames_rest kind hgap htext.shape hentry.shape.1]
    refine ih ?_
    simp only [List.length_append] at hfuel
    omega

/-- **Patterns.** Of the names that a pattern binds, those that are identifiers are read, in
order. -/
theorem patternNames_binds {text : List Char} {names : List String}
    (h : Binds .pattern text names) : patternNames text = bindable names :=
  h.read (Nat.lt_succ_self text.length)

/-! ## Declarators -/

/-- What follows a pattern is no part of a name. -/
def Parted (rest : List Char) : Prop := ∀ c ∈ rest.head?, isNamePart c = false

theorem Parted.cons {c : Char} (h : isNamePart c = false) (rest : List Char) :
    Parted (c :: rest) := by
  intro d hd
  obtain rfl : c = d := by simpa using hd
  exact h

theorem Parted.of_prefix {text start : List Char} (h : Parted text) (hstart : start <+: text) :
    Parted start := by
  obtain ⟨rest, rfl⟩ := hstart
  cases start with
  | nil => simp [Parted]
  | cons c start => exact h

theorem takeWhile_parted (text : List Char) {rest : List Char} (h : Parted rest) :
    (text ++ rest).takeWhile isNamePart = text.takeWhile isNamePart := by
  induction text with
  | nil =>
    cases rest with
    | nil => rfl
    | cons c rest => rw [List.nil_append, List.takeWhile_cons, h c rfl]; rfl
  | cons c text ih => rw [List.cons_append, List.takeWhile_cons, List.takeWhile_cons, ih]

section Target

variable {lead : List Char} (hlead : Blanks lead)

include hlead

/-- The target of a declarator that starts with a name ends where no part of a name follows. -/
theorem declaratorTarget_name {c : Char} (hblank : Text.isBlank c = false)
    (hc : ¬ (c = '{' ∨ c = '[')) (text : List Char) :
    declaratorTarget (lead ++ c :: text) = (c :: text).takeWhile isNamePart := by
  have hfirst : ∀ d ∈ (c :: text).head?, Text.isBlank d = false := by simpa using hblank
  have hsingle : ∀ d ∈ [c].getLast?, Text.isBlank d = false := by simpa using hblank
  have htrim : Text.trim (lead ++ c :: text) = c :: Text.trimEnd text := by
    rw [Text.trim, trimStart_blanks hlead, trimStart_eq hfirst, ← List.singleton_append,
      trimEnd_append hsingle, List.singleton_append]
  obtain ⟨after, hafter, htext⟩ := exists_trimEnd text
  have hparted : Parted after := fun d hd =>
    not_isNamePart_of_isBlank (hafter d (List.mem_of_mem_head? hd))
  have htake := takeWhile_parted (c :: Text.trimEnd text) hparted
  rw [List.cons_append, ← htext] at htake
  rw [htake]
  simp only [declaratorTarget, htrim, if_neg hc]
  rfl

/-- That of one that starts with a bracket ends where the bracket is closed. -/
theorem declaratorTarget_group {o c : Char} (ho : o = '{' ∨ o = '[') (hc : isClosing c)
    {inner : List Char} (hinner : Balanced inner) (rest : List Char) :
    declaratorTarget (lead ++ o :: (inner ++ c :: rest)) = o :: (inner ++ [c]) := by
  have hopening : isOpening o := by rcases ho with rfl | rfl <;> decide
  have hfirst : ∀ d ∈ (o :: (inner ++ c :: rest)).head?, Text.isBlank d = false := by
    simpa using (bracket_class (.inl hopening)).1
  have hfinal : ∀ d ∈ (o :: (inner ++ [c])).getLast?, Text.isBlank d = false := by
    rw [← List.cons_append, List.getLast?_concat]
    simpa using (bracket_class (.inr hc)).1
  have htrim : Text.trim (lead ++ o :: (inner ++ c :: rest)) =
      o :: (inner ++ c :: Text.trimEnd rest) := by
    have hend := trimEnd_append hfinal rest
    simp only [List.cons_append, List.append_assoc, List.nil_append] at hend
    rw [Text.trim, trimStart_blanks hlead, trimStart_eq hfirst, hend]
  simp only [declaratorTarget, htrim, if_pos ho, group?_group hopening hc hinner,
    Option.getD_some]

end Target

/-- The pattern of a declarator is found between the blanks before it and any text past it. -/
theorem declaratorTarget_pad {lead target rest : List Char} {names : List String}
    (hlead : Blanks lead) (htarget : Binds .pattern target names) (hrest : Parted rest) :
    declaratorTarget (lead ++ (target ++ rest)) = target := by
  cases htarget with
  | name hname =>
    cases target with
    | nil => exact hname.elim
    | cons c name =>
      have hc := hname.chars c List.mem_cons_self
      have hbracket : ¬ (c = '{' ∨ c = '[') :=
        not_or.mpr ⟨ne_of_isNameChar hc (by decide), ne_of_isNameChar hc (by decide)⟩
      have hall : ∀ d ∈ c :: name, isNamePart d :=
        fun d hd => isNamePart_of_isNameChar (hname.chars d hd)
      have hname : (c :: name).takeWhile isNamePart = c :: name := List.takeWhile_eq_self_iff.mpr hall
      have htake := takeWhile_parted (c :: name) hrest
      rw [hname] at htake
      exact (declaratorTarget_name hlead (not_isBlank_of_isNameChar hc) hbracket _).trans htake
  | @bracketed kind text names htext =>
    have hbracket : kind.opening = '{' ∨ kind.opening = '[' := by cases kind <;> decide
    have htarget := declaratorTarget_group hlead hbracket kind.isClosing_closing htext.shape rest
    simpa using htarget

/-- Blanks and a mark after a pattern are no part of a name: those of a type or an initializer. -/
theorem Parted.mark {gap : List Char} (hgap : Blanks gap) {mark : Char}
    (hmark : isNamePart mark = false) (rest : List Char) : Parted (gap ++ mark :: rest) := by
  cases gap with
  | nil => exact .cons hmark rest
  | cons c gap => exact .cons (not_isNamePart_of_isBlank (hgap c List.mem_cons_self)) _

theorem bindable_eq_self {names : List String}
    (h : ∀ name ∈ names, isIdentifier name.toList) : bindable names = names :=
  List.filter_eq_self.mpr h

/-- **Declarators.** Of a declarator the identifiers that its pattern binds are read, in order, and
nothing else: no key, no default value, and nothing of what follows the pattern. In a pattern over
identifiers these are all the names that it binds. -/
theorem patternNames_declaratorTarget {lead text rest : List Char} {names : List String}
    (hlead : Blanks lead) (htext : Binds .pattern text names) (hrest : Parted rest) :
    patternNames (declaratorTarget (lead ++ (text ++ rest))) = bindable names ∧
      ((∀ name ∈ names, isIdentifier name.toList) →
        patternNames (declaratorTarget (lead ++ (text ++ rest))) = names) := by
  have hread : patternNames (declaratorTarget (lead ++ (text ++ rest))) = bindable names := by
    rw [declaratorTarget_pad hlead htext hrest, patternNames_binds htext]
  exact ⟨hread, fun hnames => hread.trans (bindable_eq_self hnames)⟩

/-- A pattern nested in another one, with a hole, a rest, a masked key in brackets, default values
and a comma at its end; a type and an initializer follow. -/
theorem patternNames_declaratorTarget_nested :
    patternNames (declaratorTarget
      " \x7b k: [a, , ...b] = d, [' ']: c, e = f(x, y), \x7d : T<u> = g(v)".toList) =
        ["a", "b", "c", "e"] := by
  have hname (c : Char) (h : c.isDigit = false ∧ isNameChar c) : IsName [c] :=
    ⟨h.1, List.forall_mem_singleton.mpr h.2⟩
  have hblank : Blanks [' '] := List.forall_mem_singleton.mpr rfl
  have harray : Binds .pattern "[a, , ...b]".toList ["a", "b"] := by
    have hlast : Binds (.entries .array) ([' '] ++ ((restDots ++ ([] ++ ['b'])) ++ [])) ["b"] :=
      .last hblank (.rest .nil (.name (hname 'b' (by decide)))) .nil
    exact .bracketed (.more .nil (.element (.name (hname 'a' (by decide))) .none) .nil
      (.more hblank .hole .nil hlast))
  have hkeyed : Binds (.entry .object)
      (['k'] ++ ':' :: ([' '] ++ ("[a, , ...b]".toList ++ ([' '] ++ '=' :: [' ', 'd']))))
      ["a", "b"] :=
    .renamed (List.cons_ne_nil _ _) (.of_forall (by simp; decide)) (by simp; decide) (by decide)
      hblank harray (.value hblank (.of_forall (by simp; decide)) (by simp; decide))
  have hgroup (p : Char → Prop) {o c : Char} {inner : List Char}
      (h : isOpening o ∧ isClosing c ∧ ∀ d ∈ inner, IsPlain d ∧ True) :
      Level p (o :: (inner ++ [c])) :=
    .group h.1 h.2.1 (Level.of_forall h.2.2).balanced .nil
  have hquoted : Binds (.entry .object)
      (['[', '\'', ' ', '\'', ']'] ++ ':' :: ([' '] ++ (['c'] ++ []))) ["c"] :=
    .renamed (List.cons_ne_nil _ _) (@hgroup _ '[' ']' ['\'', ' ', '\''] (by simp; decide))
      (by simp; decide) (by decide) hblank (.name (hname 'c' (by decide))) .none
  have hdefault : Binds (.entry .object)
      (['e'] ++ ([' '] ++ '=' :: " f(x, y)".toList)) ["e"] := by
    have hcallee : Level (fun c => c ≠ ',' ∧ c ≠ ':') [' ', 'f'] := .of_forall (by simp; decide)
    exact .shorthand (hname 'e' (by decide)) (.value hblank
      (hcallee.append (@hgroup _ '(' ')' ['x', ',', ' ', 'y'] (by simp; decide))) (by simp; decide))
  have hobject : Binds .pattern
      "\x7b k: [a, , ...b] = d, [' ']: c, e = f(x, y), \x7d".toList ["a", "b", "c", "e"] :=
    .bracketed (.more hblank hkeyed .nil (.more hblank hquoted .nil (.more hblank hdefault .nil
      (.last hblank .hole .nil))))
  exact (patternNames_declaratorTarget hblank hobject
    (Parted.mark hblank (by decide) " T<u> = g(v)".toList)).2 (by decide)

end ClientBindings.Source
