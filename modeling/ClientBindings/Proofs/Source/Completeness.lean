import ClientBindings.Proofs.Source.Declarators

/-!
# Bound names are exported

No name is lost: what the declarators of an exported statement bind is read, as long as the
statement is taken for one.

* `AssignedTail`: what follows the pattern of a declarator, a sign of equality and a value.
* `Declarator.Follows`: the reader takes the declarator for a part of the statement.
* `scan_occurrence`: an occurrence of a pattern that no other one reaches into is found.
* `exportedNames_complete`: every identifier that a declarator binds is exported.

A line feed before a comma is passed over. One between a comma and a name ends the statement
(`exportedNames_trailingComma`).
-/

namespace ClientBindings.Source

/-! ## Parts -/

namespace DeclaratorPart

/-- The part past a character, be it in the same declarator or in the next one. -/
def past (part : DeclaratorPart) (last : Option Char) (c : Char) (next : Option Char) :
    DeclaratorPart :=
  (part.after? last c next).getD .target

/-- At most `n` angle brackets are open. -/
def Under (n : Nat) : DeclaratorPart → Prop
  | target => True
  | typed angles => angles ≤ n
  | initializer => True

theorem Under.separates {part : DeclaratorPart} (h : part.Under 0) (last next : Option Char) :
    part.after? last ',' next = none := by
  cases part with
  | target => rfl
  | typed angles =>
    obtain rfl : angles = 0 := Nat.le_zero.mp h
    rfl
  | initializer => rfl

end DeclaratorPart

theorem tail_consFirst (c : Char) (parts : List (List Char)) :
    (Text.consFirst c parts).tail = parts.tail := by
  cases parts with
  | nil => rfl
  | cons part parts => rfl

theorem tail_foldr_consFirst (text : List Char) (parts : List (List Char)) :
    (text.foldr Text.consFirst parts).tail = parts.tail := by
  induction text with
  | nil => rfl
  | cons c text ih => rw [List.foldr_cons, tail_consFirst, ih]

/-- Declarators past the first one are not lost with a character that ends no statement. -/
theorem tail_readFrom {part : DeclaratorPart} {last : Option Char} {c : Char} {rest : List Char}
    (hc : IsPlain c) (hends : ¬ (c = '\n' ∧ continues rest = false)) :
    (readFrom (part.past last c rest.head?) 0 (some c) rest).tail ⊆
      (readFrom part 0 last (c :: rest)).tail := by
  rw [readFrom_plain hc hends, DeclaratorPart.past]
  cases part.after? last c rest.head? with
  | none => exact (List.tail_sublist _).subset
  | some mid =>
    rw [tail_consFirst]
    exact List.Subset.refl _

/-! ## Texts that lose no declarator -/

/-- From one set of parts to another through a text: the declarators past the first one of what
follows are not lost. -/
def Keeps (good : DeclaratorPart → Prop) (last : Option Char) (text : List Char)
    (good' : DeclaratorPart → Prop) : Prop :=
  ∀ part, good part → ∀ rest, ∃ part', good' part' ∧
    (readFrom part' 0 (lastOf last text) rest).tail ⊆ (readFrom part 0 last (text ++ rest)).tail

namespace Keeps

variable {good mid good' : DeclaratorPart → Prop} {last : Option Char}

theorem nil : Keeps good last [] good := fun part hpart _ => ⟨part, hpart, List.Subset.refl _⟩

theorem cons {c : Char} {text : List Char} (hc : IsPlain c) (hline : c ≠ '\n')
    (hmove : ∀ part next, good part → mid (part.past last c next))
    (htext : Keeps mid (some c) text good') : Keeps good last (c :: text) good' := by
  intro part hpart rest
  obtain ⟨part', hpart', hkeep⟩ := htext _ (hmove part (text ++ rest).head? hpart) rest
  exact ⟨part', hpart', List.Subset.trans hkeep (tail_readFrom hc fun h => hline h.1)⟩

theorem append {text more : List Char} (htext : Keeps good last text mid)
    (hmore : Keeps mid (lastOf last text) more good') : Keeps good last (text ++ more) good' := by
  intro part hpart rest
  obtain ⟨part₁, hpart₁, hkeep₁⟩ := htext part hpart (more ++ rest)
  obtain ⟨part₂, hpart₂, hkeep₂⟩ := hmore part₁ hpart₁ rest
  refine ⟨part₂, hpart₂, ?_⟩
  have hlast : lastOf last (text ++ more) = lastOf (lastOf last text) more := by simp [lastOf]
  rw [hlast, List.append_assoc]
  exact List.Subset.trans hkeep₂ hkeep₁

theorem group {o c : Char} {inner text : List Char} (ho : isOpening o) (hc : isClosing c)
    (hinner : Balanced inner) (htext : Keeps good (some c) text good') :
    Keeps good last (o :: (inner ++ c :: text)) good' := by
  intro part hpart rest
  obtain ⟨part', hpart', hkeep⟩ := htext part hpart rest
  refine ⟨part', hpart', ?_⟩
  rw [← List.cons_append, lastOf_append_cons, List.append_assoc, List.cons_append,
    List.cons_append, (readFrom_passes part).group ho hc hinner, tail_foldr_consFirst]
  exact hkeep

theorem level {p : Char → Prop} {text : List Char}
    (hmove : ∀ part last c next, good part → p c → good (part.past last c next))
    (htext : Level (fun c => c ≠ '\n' ∧ p c) text) (last : Option Char) :
    Keeps good last text good := by
  induction htext generalizing last with
  | nil => exact nil
  | char hc hpc _ ih =>
    exact cons hc hpc.1 (fun part next hpart => hmove part _ _ next hpart hpc.2) (ih _)
  | group ho hc hinner _ ih => exact group ho hc hinner (ih _)

end Keeps

theorem Keeps.mono {good good' a b : DeclaratorPart → Prop} {last : Option Char} {text : List Char}
    (h : Keeps good last text good') (ha : ∀ part, a part → good part)
    (hb : ∀ part, good' part → b part) : Keeps a last text b := by
  intro part hpart rest
  obtain ⟨part', hpart', hkeep⟩ := h part (ha part hpart) rest
  exact ⟨part', hb part' hpart', hkeep⟩

namespace DeclaratorPart.Under

variable {n : Nat} {part : DeclaratorPart}

theorem past_other {c : Char} (hc : c ≠ '<') (h : part.Under n) (last next : Option Char) :
    (part.past last c next).Under n := by
  cases part with
  | target =>
    simp only [past, after?]
    repeat' split
    all_goals simp [Under]
  | typed angles =>
    have hangles : angles ≤ n := h
    simp only [past, after?, if_neg hc]
    repeat' split
    all_goals simp only [Option.getD_none, Option.getD_some, Under]
    all_goals omega
  | initializer =>
    simp only [past, after?]
    split
    all_goals simp [Under]

theorem past_opening (h : part.Under n) (last next : Option Char) :
    (part.past last '<' next).Under (n + 1) := by
  cases part with
  | target => trivial
  | typed angles => exact Nat.succ_le_succ h
  | initializer => trivial

theorem past_closing (h : part.Under (n + 1)) {last : Option Char} (hlast : last ≠ some '=')
    (next : Option Char) : (part.past last '>' next).Under n := by
  cases part with
  | target => trivial
  | typed angles =>
    have hangles : angles ≤ n + 1 := h
    have hpast : (typed angles).past last '>' next = .typed (angles - 1) := by
      simp [past, after?, hlast]
    rw [hpast, Under]
    omega
  | initializer => trivial

end DeclaratorPart.Under

/-- Angle brackets in pairs leave no more of them open than there were. -/
theorem Angled.keeps {inside : Bool} {text : List Char} (h : Angled (· ≠ '\n') inside text)
    (n : Nat) (last : Option Char) :
    Keeps (DeclaratorPart.Under n) last text (DeclaratorPart.Under n) := by
  induction h generalizing n last with
  | nil => exact .nil
  | char hc hline hother _ ih =>
    exact .cons hc hline (fun _ _ hpart => hpart.past_other hother.2.1 _ _) (ih n _)
  | comma _ ih =>
    exact .cons (by decide) (by decide) (fun _ _ hpart => hpart.past_other (by decide) _ _) (ih n _)
  | equals _ _ ih =>
    exact .cons (by decide) (by decide) (fun _ _ hpart => hpart.past_other (by decide) _ _) (ih n _)
  | @arrow _ rest _ ih =>
    have hpast : Keeps (DeclaratorPart.Under n) (some '=') ('>' :: rest) (DeclaratorPart.Under n) :=
      .cons (by decide) (by decide) (fun _ _ hpart => hpart.past_other (by decide) _ _) (ih n _)
    exact .cons (by decide) (by decide) (fun _ _ hpart => hpart.past_other (by decide) _ _) hpast
  | group ho hc hinner _ ih => exact .group ho hc hinner (ih n _)
  | @angles _ inner rest hinner _ ihinner ih =>
    have hlast : lastOf (some '<') inner ≠ some '=' := hinner.lastOf_ne (.inr (by decide))
    have hclose : Keeps (DeclaratorPart.Under (n + 1)) (lastOf (some '<') inner) ('>' :: rest)
        (DeclaratorPart.Under n) :=
      .cons (by decide) (by decide) (fun _ _ hpart => hpart.past_closing hlast _) (ih n _)
    exact .cons (by decide) (by decide) (fun _ _ hpart => hpart.past_opening _ _)
      ((ihinner (n + 1) _).append hclose)

/-! ## Declarators with a value -/

/-- A value with its line feeds inside of brackets, that leaves no angle bracket open: it has no
comma outside of brackets, or no colon, or its angle brackets are in pairs. -/
def Value (text : List Char) : Prop :=
  Level (fun c => c ≠ '\n' ∧ c ≠ ',') text ∨ Level (fun c => c ≠ '\n' ∧ c ≠ ':') text ∨
    Angled (· ≠ '\n') true text

/-- What follows the pattern of a declarator: a sign of equality, a value, and blanks. -/
inductive AssignedTail : List Char → Prop
  | mk {gap trail value : List Char} {c : Char} : Blanks gap → '\n' ∉ gap → c ≠ '>' →
      Value (c :: value) → Blanks trail → AssignedTail (gap ++ '=' :: (c :: value ++ trail))

/-- No line feed before the pattern of a declarator, unless it is an object pattern. -/
def Declarator.Follows (d : Declarator) : Prop := '\n' ∉ d.lead ∨ d.target.head? = some '{'

theorem Value.keeps {text : List Char} (h : Value text) (last : Option Char) :
    Keeps (· = .initializer) last text (DeclaratorPart.Under 0) := by
  rcases h with hcomma | hcolon | hangled
  · have hkeeps : Keeps (· = .initializer) last text (· = .initializer) := by
      refine .level (fun part _ c _ hpart hc => ?_) hcomma last
      rw [hpart, DeclaratorPart.past, DeclaratorPart.initializer_after? hc, Option.getD_some]
    refine hkeeps.mono (fun _ hpart => hpart) fun part hpart => ?_
    rw [hpart]
    trivial
  · have hkeeps : Keeps (fun part => part = .target ∨ part = .initializer) last text
        (fun part => part = .target ∨ part = .initializer) := by
      refine .level (fun part _ c _ hpart hc => ?_) hcolon last
      rcases hpart with rfl | rfl
      · simp only [DeclaratorPart.past, DeclaratorPart.after?, if_neg hc]
        repeat' split
        all_goals simp
      · simp only [DeclaratorPart.past, DeclaratorPart.after?]
        split
        all_goals simp
    refine hkeeps.mono (fun _ hpart => .inr hpart) fun part hpart => ?_
    rcases hpart with rfl | rfl
    · trivial
    · trivial
  · refine (hangled.keeps 0 last).mono (fun part hpart => ?_) fun _ hpart => hpart
    rw [hpart]
    trivial

theorem continues_blanks {blanks : List Char} (h : Blanks blanks) {c : Char}
    (hc : c = ',' ∨ c = '{') (rest : List Char) : continues (blanks ++ c :: rest) := by
  have hsolid : Text.isBlank c = false := by
    rcases hc with rfl | rfl
    · decide
    · decide
  have htrim : Text.trimStart (c :: rest) = c :: rest := trimStart_eq (by simpa using hsolid)
  rw [continues, trimStart_blanks h, htrim]
  simpa using hc

/-- Blanks are handed on, line feeds included if a comma or a brace follows. -/
theorem readFrom_blanks {blanks : List Char} (h : Blanks blanks) {rest : List Char}
    (hrest : '\n' ∉ blanks ∨ ∃ c ∈ rest.head?, c = ',' ∨ c = '{') (part : DeclaratorPart)
    (last : Option Char) : readFrom part 0 last (blanks ++ rest) =
      blanks.foldr Text.consFirst (readFrom part 0 (lastOf last blanks) rest) := by
  induction blanks generalizing last with
  | nil => rfl
  | cons c blanks ih =>
    have hblanks : Blanks blanks := fun d hd => h d (List.mem_cons_of_mem c hd)
    have hc : Text.isBlank c := h c List.mem_cons_self
    have hends : ¬ (c = '\n' ∧ continues (blanks ++ rest) = false) := by
      rintro ⟨rfl, hends⟩
      rcases hrest with hline | ⟨d, hd, hmark⟩
      · exact hline List.mem_cons_self
      · cases rest with
        | nil => simp at hd
        | cons e rest =>
          obtain rfl : e = d := by simpa using hd
          simp [continues_blanks hblanks hmark] at hends
    rw [List.cons_append, readFrom_plain (isPlain_of_isBlank hc) hends,
      DeclaratorPart.blank_after? hc]
    refine congrArg (Text.consFirst c) (ih hblanks (hrest.imp_left ?_) _)
    exact fun hline hmem => hline (List.mem_cons_of_mem c hmem)

theorem declaratorsFrom_cons (depth : Int) (part : DeclaratorPart) (last : Option Char)
    (text : List Char) :
    ∃ first others, declaratorsFrom depth part last text = first :: others := by
  refine List.exists_cons_of_ne_nil ?_
  have hfirst (c : Char) (parts : List (List Char)) : Text.consFirst c parts ≠ [] := by
    cases parts with
    | nil => exact List.cons_ne_nil _ _
    | cons part parts => exact List.cons_ne_nil _ _
  cases text with
  | nil => exact List.cons_ne_nil _ _
  | cons c rest =>
    rw [declaratorsFrom]
    repeat' split
    · exact hfirst _ _
    · exact hfirst _ _
    · exact List.cons_ne_nil _ _
    · exact hfirst _ _

theorem Blanks.parted {blanks : List Char} (h : Blanks blanks) {rest : List Char}
    (hrest : Parted rest) : Parted (blanks ++ rest) := by
  cases blanks with
  | nil => exact hrest
  | cons c blanks =>
    exact .cons (not_isNamePart_of_isBlank (h c List.mem_cons_self)) _

/-- A value belongs to its declarator, and what follows the comma past it is not lost. -/
theorem AssignedTail.readFrom {tail : List Char} (h : AssignedTail tail) (last : Option Char)
    (rest : List Char) :
    ∃ first others, Source.readFrom .target 0 last (tail ++ rest) = first :: others ∧
      Parted first ∧
      ∀ more, rest = ',' :: more → Source.readFrom .target 0 (some ',') more ⊆ others := by
  cases h with
  | @mk gap trail value c hgap hline hc hvalue htrail =>
    have hassoc : gap ++ '=' :: (c :: value ++ trail) ++ rest =
        gap ++ '=' :: (c :: value ++ (trail ++ rest)) := by simp
    have hmove : DeclaratorPart.target.after? (lastOf last gap) '='
        (c :: value ++ (trail ++ rest)).head? = some .initializer := by
      simp [DeclaratorPart.after?, hc]
    obtain ⟨part, others, hparts⟩ : ∃ part others, Source.readFrom .initializer 0 (some '=')
        (c :: value ++ (trail ++ rest)) = part :: others := declaratorsFrom_cons _ _ _ _
    refine ⟨gap ++ '=' :: part, others, ?_, hgap.parted (.cons (by decide) part), ?_⟩
    · rw [hassoc, readFrom_blanks hgap (.inl hline), readFrom_plain (by decide) (by simp), hmove]
      simp only [hparts]
      exact foldr_consFirst gap _ _
    -- Past the value no angle bracket is open, so that the comma ends the declarator.
    · rintro more rfl
      obtain ⟨part', hpart', hkeep⟩ :=
        hvalue.keeps (some '=') .initializer rfl (trail ++ ',' :: more)
      rw [hparts, List.tail_cons,
        readFrom_blanks htrail (.inr ⟨',', by simp, .inl rfl⟩), tail_foldr_consFirst,
        readFrom_plain (by decide) (by simp), hpart'.separates] at hkeep
      exact hkeep

/-- The pattern of a declarator that follows is found, and what follows the comma past it is not
lost. -/
theorem Declarator.readFrom_first (d : Declarator) (htail : AssignedTail d.tail) (hd : d.Follows)
    (last : Option Char) (rest : List Char) :
    ∃ first others, readFrom .target 0 last (d.text ++ rest) = first :: others ∧
      declaratorTarget first = d.target ∧
      ∀ more, rest = ',' :: more → readFrom .target 0 (some ',') more ⊆ others := by
  have hlead : '\n' ∉ d.lead ∨ ∃ c ∈ (d.target ++ (d.tail ++ rest)).head?, c = ',' ∨ c = '{' := by
    refine hd.imp_right fun hobject => ⟨'{', ?_, .inr rfl⟩
    simp [hobject]
  obtain ⟨first, others, hread, hparted, hothers⟩ :=
    htail.readFrom (lastOf (lastOf last d.lead) d.target) rest
  refine ⟨d.lead ++ (d.target ++ first), others, ?_, d.declaratorTarget_of_parted hparted, hothers⟩
  rw [d.text_append, readFrom_blanks d.blanks hlead, d.readFrom_pattern, hread, foldr_consFirst,
    foldr_consFirst]

/-- The pattern of every declarator is found, whatever follows the last one. -/
theorem readFrom_declarators {ds : List Declarator}
    (hds : ∀ d ∈ ds, AssignedTail d.tail ∧ d.Follows) (after : List Char) (last : Option Char) :
    ∀ d ∈ ds, ∃ part ∈ readFrom .target 0 last (statementText ds ++ after),
      declaratorTarget part = d.target := by
  induction ds generalizing last with
  | nil => simp
  | cons d ds ih =>
    obtain ⟨htail, hfollows⟩ := hds d List.mem_cons_self
    have hrest := ih fun e he => hds e (List.mem_cons_of_mem d he)
    cases ds with
    | nil =>
      intro e he
      obtain rfl := List.mem_singleton.mp he
      obtain ⟨first, others, hread, htarget, -⟩ := e.readFrom_first htail hfollows last after
      exact ⟨first, by simp [statementText, hread], htarget⟩
    | cons next ds =>
      obtain ⟨first, others, hread, htarget, hothers⟩ := d.readFrom_first htail hfollows last
        (',' :: (statementText (next :: ds) ++ after))
      rw [statementText, List.append_assoc, List.cons_append, hread]
      intro e he
      rcases List.mem_cons.mp he with rfl | he
      · exact ⟨first, List.mem_cons_self, htarget⟩
      · obtain ⟨part, hpart, hfound⟩ := hrest (some ',') e he
        exact ⟨part, List.mem_cons_of_mem first (hothers _ rfl hpart), hfound⟩

/-! ## Occurrences -/

theorem scanFrom_occurrence {find? : Option Char → List Char → Option (List Char × Nat)}
    {c : Char} {text found : List Char} {length : Nat}
    (hapart : ∀ last before other n, before ≠ [] →
      find? last (before ++ c :: text) = some (other, n) → n ≤ before.length)
    {before : List Char} {last : Option Char}
    (hfind : find? (lastOf last before) (c :: text) = some (found, length)) {skip : Nat}
    (hskip : skip ≤ before.length) : found ∈ scanFrom find? last skip (before ++ c :: text) := by
  induction before generalizing last skip with
  | nil =>
    obtain rfl : skip = 0 := Nat.le_zero.mp hskip
    have hhere : find? last (c :: text) = some (found, length) := hfind
    simp [scanFrom, hhere]
  | cons d before ih =>
    cases skip with
    | succ skip =>
      rw [List.cons_append, scanFrom]
      exact ih hfind (Nat.le_of_succ_le_succ hskip)
    | zero =>
      rw [List.cons_append, scanFrom]
      split
      next other n hother =>
        have hlength := hapart last (d :: before) other n (List.cons_ne_nil d before) hother
        rw [List.length_cons] at hlength
        exact List.mem_cons_of_mem other (ih hfind (by omega))
      next => exact ih hfind (Nat.zero_le _)

theorem lastOf_eq (last : Option Char) (text : List Char) :
    lastOf last text = text.getLast?.or last := by
  induction text generalizing last with
  | nil => rfl
  | cons c text ih =>
    have hstep : lastOf last (c :: text) = lastOf (some c) text := rfl
    rw [hstep, ih, List.getLast?_cons]
    cases text.getLast? with
    | none => rfl
    | some d => rfl

/-- An occurrence is found if no occurrence from further left reaches into it. -/
theorem scan_occurrence {find? : Option Char → List Char → Option (List Char × Nat)}
    {c : Char} {before text found : List Char} {length : Nat}
    (hapart : ∀ last before other n, before ≠ [] →
      find? last (before ++ c :: text) = some (other, n) → n ≤ before.length)
    (hfind : find? before.getLast? (c :: text) = some (found, length)) :
    found ∈ scan find? (before ++ c :: text) := by
  have hlast : lastOf none before = before.getLast? := by
    rw [lastOf_eq, Option.or_none]
  rw [← hlast] at hfind
  exact scanFrom_occurrence hapart hfind (Nat.zero_le _)

/-- The keywords before the declarators of an exported statement. -/
inductive Opening : List Char → Prop
  | mk {blanks word : List Char} {b c : Char} : Text.isBlank b → Blanks blanks →
      word = ['c', 'o', 'n', 's', 't'] ∨ word = ['l', 'e', 't'] → Text.isBlank c →
      Opening (['e', 'x', 'p', 'o', 'r', 't'] ++ b :: (blanks ++ (word ++ [c])))

theorem dropMark?_eq_some {mark text rest : List Char} (h : dropMark? id mark text = some rest) :
    text = mark ++ rest := by
  induction mark generalizing text with
  | nil => exact Option.some.inj h
  | cons m mark ih =>
    cases text with
    | nil => exact absurd h (by simp [dropMark?])
    | cons c text =>
      rw [dropMark?] at h
      split at h
      next hc => rw [ih h, ← hc]; rfl
      next => exact absurd h (by simp)

theorem blank?_eq_some {text rest : List Char} (h : blank? text = some rest) :
    ∃ c, Text.isBlank c ∧ text = c :: rest := by
  cases text with
  | nil => exact absurd h (by simp [blank?])
  | cons c text =>
    rw [blank?] at h
    split at h
    next hc => exact ⟨c, hc, congrArg (c :: ·) (Option.some.inj h)⟩
    next => exact absurd h (by simp)

/-- The words of a binding statement. -/
theorem dropAny?_bindingWord {text rest : List Char} :
    dropAny? id text [("const", ()), ("let", ())] = some ((), rest) ↔
      ∃ word, (word = ['c', 'o', 'n', 's', 't'] ∨ word = ['l', 'e', 't']) ∧
        text = word ++ rest := by
  have hconst : "const".toList = ['c', 'o', 'n', 's', 't'] := rfl
  have hlet : "let".toList = ['l', 'e', 't'] := rfl
  simp only [dropAny?, hconst, hlet]
  constructor
  · intro h
    split at h
    next found hfound =>
      obtain rfl : found = rest := by simpa using h
      exact ⟨_, .inl rfl, dropMark?_eq_some hfound⟩
    next =>
      split at h
      next found hfound =>
        obtain rfl : found = rest := by simpa using h
        exact ⟨_, .inr rfl, dropMark?_eq_some hfound⟩
      next => exact absurd h (by simp)
  · rintro ⟨word, rfl | rfl, rfl⟩
    · rw [dropMark?_append]
    · rw [dropMark?_append, dropMark?_eq_none]
      intro h
      exact absurd (List.cons_prefix_cons.mp h).1 (by decide)

theorem skipBlanks_append {blanks : List Char} (h : Blanks blanks) {text : List Char}
    (htext : ∀ c ∈ text.head?, Text.isBlank c = false) : skipBlanks id (blanks ++ text) = text :=
  (trimStart_blanks h text).trans (trimStart_eq htext)

theorem exists_skipBlanks (text : List Char) :
    ∃ blanks, Blanks blanks ∧ text = blanks ++ skipBlanks id text :=
  ⟨text.takeWhile Text.isBlank, fun _ hd => List.mem_takeWhile_imp hd,
    List.takeWhile_append_dropWhile.symm⟩

/-- Where a statement that binds names is exported, and the text past its keywords. -/
theorem exportBinding?_eq_some {last : Option Char} {text rest : List Char} {n : Nat} :
    exportBinding? last text = some (rest, n) ↔ outsideWord id last ∧
      ∃ opening, Opening opening ∧ text = opening ++ rest ∧ n = opening.length := by
  constructor
  · intro h
    simp only [exportBinding?, exportWord?, Option.bind_eq_bind, Option.bind_eq_some_iff] at h
    obtain ⟨afterExport, hexport, afterBlank, hblank, ⟨⟨⟩, afterWord⟩, hword, past, hpast, hup⟩ := h
    by_cases hlast : outsideWord id last
    · rw [if_pos hlast] at hexport
      obtain ⟨b, hb, rfl⟩ := blank?_eq_some hblank
      obtain ⟨word, hmark, hword⟩ := dropAny?_bindingWord.mp hword
      obtain ⟨c, hc, rfl⟩ := blank?_eq_some hpast
      obtain ⟨blanks, hblanks, hskip⟩ := exists_skipBlanks afterBlank
      rw [hword] at hskip
      obtain ⟨rfl, rfl⟩ : past = rest ∧ text.length - past.length = n := by
        simpa [upTo] using hup
      refine ⟨hlast, _, .mk hb hblanks hmark hc, ?_, ?_⟩
      · rw [dropMark?_eq_some hexport, hskip]
        simp
      · rw [dropMark?_eq_some hexport, hskip]
        simp only [List.length_append, List.length_cons, List.length_nil]
        omega
    · rw [if_neg hlast] at hexport
      exact absurd hexport (by simp)
  · rintro ⟨hlast, opening, hopening, rfl, rfl⟩
    cases hopening with
    | @mk blanks word b c hb hblanks hword hc =>
      have hfirst : ∀ d ∈ (word ++ c :: rest).head?, Text.isBlank d = false := by
        rcases hword with rfl | rfl
        · simp
          decide
        · simp
          decide
      have hbinding : dropAny? id (word ++ c :: rest) [("const", ()), ("let", ())] =
          some ((), c :: rest) := dropAny?_bindingWord.mpr ⟨word, hword, rfl⟩
      have hassoc : ['e', 'x', 'p', 'o', 'r', 't'] ++ b :: (blanks ++ (word ++ [c])) ++ rest =
          ['e', 'x', 'p', 'o', 'r', 't'] ++ b :: (blanks ++ (word ++ c :: rest)) := by simp
      rw [hassoc]
      simp only [exportBinding?, exportWord?, hlast, if_true, dropMark?_append, blank?, hb, hc,
        skipBlanks_append hblanks hfirst, hbinding, Option.bind_eq_bind, Option.bind_some]
      rw [← hassoc, upTo_append]
      rfl

theorem Opening.first {opening : List Char} (h : Opening opening) :
    ∃ more, opening = 'e' :: 'x' :: more ∧ 'x' ∉ more := by
  cases h with
  | @mk blanks word b c hb hblanks hword hc =>
    have hx (d : Char) (hd : Text.isBlank d) : 'x' ≠ d := (ne_of_isBlank hd (by decide)).symm
    have hblank : 'x' ∉ blanks := fun hmem => hx 'x' (hblanks 'x' hmem) rfl
    have hnone : 'x' ∉ word := by
      rcases hword with rfl | rfl
      · decide
      · decide
    refine ⟨['p', 'o', 'r', 't'] ++ b :: (blanks ++ (word ++ [c])), rfl, ?_⟩
    simp [hblank, hnone, hx b hb, hx c hc]

theorem Opening.final {opening : List Char} (h : Opening opening) :
    ∃ c ∈ opening.getLast?, Text.isBlank c := by
  cases h with
  | @mk blanks word b c _ _ _ hc =>
    have hassoc : ['e', 'x', 'p', 'o', 'r', 't'] ++ b :: (blanks ++ (word ++ [c])) =
        (['e', 'x', 'p', 'o', 'r', 't'] ++ b :: (blanks ++ word)) ++ [c] := by simp
    rw [hassoc, List.getLast?_concat]
    exact ⟨c, rfl, hc⟩

/-- The keywords of a statement do not reach into those of another one: they end in a blank, and
have an `x` near their start alone. -/
theorem Opening.apart {other : List Char} (h : Opening other) {before text rest : List Char}
    (hbefore : before ≠ []) (heq : before ++ 'e' :: 'x' :: text = other ++ rest) :
    other.length ≤ before.length := by
  rcases List.append_eq_append_iff.mp heq with ⟨into, rfl, hinto⟩ | ⟨gap, rfl, -⟩
  -- The other keywords reach into the statement by nothing, one character, or two and more.
  · match into, hinto with
    | [], _ => simp
    | [c], hinto =>
      obtain ⟨d, hd, hblank⟩ := h.final
      obtain rfl : c = d := by simpa using hd
      obtain rfl : 'e' = c := (List.cons.inj hinto).1
      exact absurd hblank (by decide)
    | c :: d :: into, hinto =>
      obtain ⟨more, hmore, hx⟩ := h.first
      obtain ⟨rfl, hrest⟩ := List.cons.inj hinto
      obtain rfl : 'x' = d := (List.cons.inj hrest).1
      match before, hbefore, hmore with
      | [_], _, hmore => exact absurd hmore (by simp)
      | _ :: _ :: before, _, hmore =>
        obtain rfl : before ++ 'e' :: 'x' :: into = more :=
          (List.cons.inj (List.cons.inj hmore).2).2
        exact absurd (by simp) hx
  · simp

/-! ## Exported names -/

/-- **No name is lost.** Of an exported statement of declarators that are given values and follow
one another, every identifier that one of them binds is exported. -/
theorem exportedNames_complete {source : String} {before opening after : List Char}
    {ds : List Declarator}
    (hsource : shownText source = before ++ (opening ++ (statementText ds ++ after)))
    (hbefore : ∀ c ∈ before.getLast?, Text.isWord c = false) (hopening : Opening opening)
    (hds : ∀ d ∈ ds, AssignedTail d.tail ∧ d.Follows) {d : Declarator} (hd : d ∈ ds)
    {name : String} (hname : name ∈ d.names) (hidentifier : isIdentifier name.toList) :
    name ∈ exportedNames source := by
  have hlast : outsideWord id before.getLast? := by
    cases hgetLast : before.getLast? with
    | none => rfl
    | some c => simp [outsideWord, hbefore c hgetLast]
  have hscan : statementText ds ++ after ∈ scan exportBinding? (shownText source) := by
    have hfind : exportBinding? before.getLast? (opening ++ (statementText ds ++ after)) =
        some (statementText ds ++ after, opening.length) :=
      exportBinding?_eq_some.mpr ⟨hlast, opening, hopening, rfl, rfl⟩
    obtain ⟨more, hmore, -⟩ := hopening.first
    rw [hsource]
    rw [hmore, List.cons_append, List.cons_append] at hfind ⊢
    refine scan_occurrence (fun last prior other n hprior hother => ?_) hfind
    obtain ⟨-, word, hword, heq, rfl⟩ := exportBinding?_eq_some.mp hother
    exact hword.apart hprior heq
  obtain ⟨part, hpart, htarget⟩ := readFrom_declarators hds after none d hd
  have hread : name ∈ patternNames (declaratorTarget part) := by
    rw [htarget, patternNames_binds d.binds]
    exact List.mem_filter.mpr ⟨hname, hidentifier⟩
  rw [exportedNames, mem_firstSeen, exportsOf]
  refine List.mem_append_left _ (List.mem_flatMap.mpr ⟨_, hscan, ?_⟩)
  rw [boundNames, declarators_statement, List.mem_flatMap]
  exact ⟨part, hpart, hread⟩

/-- `export let a=1`, and on the next line `,{b}=f`. -/
theorem exportedNames_complete_of_leadingComma :
    "b" ∈ exportedNames (String.ofList (['e', 'x', 'p', 'o', 'r', 't', ' ', 'l', 'e', 't', ' '] ++
      ['a', '=', '1', '\n', ',', '{', 'b', '}', '=', 'f'])) := by
  have hentries : Binds (.entries .object) ([] ++ ((['b'] ++ []) ++ [])) ["b"] :=
    .last .nil (.shorthand ⟨rfl, List.forall_mem_singleton.mpr rfl⟩ .none) .nil
  have hpattern : Binds .pattern ['{', 'b', '}'] ["b"] := .bracketed hentries
  have hvalue (c : Char) (h : IsPlain c ∧ c ≠ '\n' ∧ c ≠ ',') : Value [c] :=
    .inl (.char h.1 h.2 .nil)
  have hfirst : AssignedTail ([] ++ '=' :: (['1'] ++ ['\n'])) :=
    .mk .nil (by simp) (by decide) (hvalue '1' (by decide)) (List.forall_mem_singleton.mpr rfl)
  have hsecond : AssignedTail ([] ++ '=' :: (['f'] ++ [])) :=
    .mk .nil (by simp) (by decide) (hvalue 'f' (by decide)) .nil
  let first : Declarator :=
    ⟨[], ['a'], ["a"], ['=', '1', '\n'], .nil, .name ⟨rfl, List.forall_mem_singleton.mpr rfl⟩,
      .cons (by decide) _⟩
  let second : Declarator :=
    ⟨[], ['{', 'b', '}'], ["b"], ['=', 'f'], .nil, hpattern, .cons (by decide) _⟩
  have hsource : shownText (String.ofList
      (['e', 'x', 'p', 'o', 'r', 't', ' ', 'l', 'e', 't', ' '] ++
        ['a', '=', '1', '\n', ',', '{', 'b', '}', '=', 'f'])) =
      [] ++ (['e', 'x', 'p', 'o', 'r', 't'] ++ ' ' :: ([] ++ (['l', 'e', 't'] ++ [' '])) ++
        (statementText [first, second] ++ [])) := by
    rw [shownText, String.toList_ofList]
    rfl
  have hopening : Opening
      (['e', 'x', 'p', 'o', 'r', 't'] ++ ' ' :: ([] ++ (['l', 'e', 't'] ++ [' ']))) :=
    .mk (by decide) .nil (.inr rfl) (by decide)
  have hdeclarators : ∀ d ∈ [first, second], AssignedTail d.tail ∧ d.Follows := by
    simp only [List.forall_mem_cons, List.not_mem_nil, false_imp_iff, implies_true, and_true]
    exact ⟨⟨hfirst, .inl List.not_mem_nil⟩, hsecond, .inl List.not_mem_nil⟩
  exact exportedNames_complete hsource (by simp) hopening hdeclarators
    (d := second) (by simp) (by simp [second]) (by decide)

/-- A line feed past a comma ends the statement. -/
theorem exportedNames_trailingComma :
    exportedNames "export const a = 1,\n  b = 2\n" = ["a"] := by
  decide +kernel

end ClientBindings.Source
