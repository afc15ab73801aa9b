import ClientBindings.Proofs.Source.Completeness
import Mathlib.Data.List.Basic
import Mathlib.Logic.Relation

/-!
# Depth in brackets

How deep in brackets a place of a text is, and the scans that count it: the one for the end of a
statement, which stops at a bracket that closes none, and those that cut a text into parts, which go
on past any number of them.

* `Enclosed`: the places inside of brackets. `surplus`: opening brackets less closing ones.
  `AtDepth.enclosed_iff`: the surplus is positive exactly inside of brackets, as long as no start of
  the text closes more of them than it opens.
* `StatementEnds`: where a statement ends. `statementFrom_run`: one step after the other, it goes on
  up to the first such place, and its depth is the surplus of what it has passed.
* `DeclaratorScan`: the calls that the scan for declarators makes. `Reaches.depth_eq`: its depth is
  the surplus, too, but as an integer.
* `CutInto`: the parts of a text are the text again, and the cuts stand where they should.
* `statement_nesting`: what holds of every statement and its declarators.
-/

namespace ClientBindings.Source

/-! ## Surplus -/

/-- Opening brackets less closing ones. -/
def surplus (text : List Char) : Int := text.countP isOpening - text.countP isClosing

theorem surplus_append (text rest : List Char) :
    surplus (text ++ rest) = surplus text + surplus rest := by
  simp only [surplus, List.countP_append]
  omega

theorem surplus_opening {c : Char} (h : isOpening c) : surplus [c] = 1 := by
  simp [surplus, h, not_closing_of_opening h]

theorem surplus_closing {c : Char} (h : isClosing c) : surplus [c] = -1 := by
  simp [surplus, h, not_opening_of_closing h]

theorem surplus_plain {c : Char} (h : IsPlain c) : surplus [c] = 0 := by
  simp [surplus, h.1, h.2]

theorem depthAfter_eq (depth : Int) (c : Char) : depthAfter depth c = depth + surplus [c] := by
  by_cases ho : isOpening c
  · rw [surplus_opening ho, depthAfter, if_pos ho]
  by_cases hc : isClosing c
  · rw [surplus_closing hc, depthAfter, if_neg ho, if_pos hc]
    rfl
  · rw [surplus_plain (isPlain_of_not (not_or.mpr ⟨ho, hc⟩)), depthAfter, if_neg ho, if_neg hc,
      Int.add_zero]

theorem surplus_cons (c : Char) (text : List Char) :
    surplus (c :: text) = depthAfter 0 c + surplus text := by
  rw [depthAfter_eq, Int.zero_add, ← surplus_append, List.singleton_append]

theorem Balanced.surplus_eq {text : List Char} (h : Balanced text) : surplus text = 0 := by
  induction h with
  | nil => rfl
  | char hc _ ih => rw [surplus_cons, depthAfter_plain hc, ih]; rfl
  | @group o c inner rest ho hc _ _ ihinner ih =>
    rw [surplus_cons, surplus_append, surplus_cons, ihinner, ih, depthAfter_eq, depthAfter_eq,
      surplus_opening ho, surplus_closing hc]
    rfl

/-! ## Enclosed places -/

/-- The end of the text is inside of a bracket: one that it opens, and past which it closes only
brackets that it opens there. -/
def Enclosed (text : List Char) : Prop :=
  ∃ before o inner, isOpening o ∧ Balanced inner ∧ text = before ++ o :: inner

theorem surplus_open {o : Char} {inner : List Char} (ho : isOpening o) (hinner : Balanced inner)
    (before : List Char) : surplus (before ++ o :: inner) = surplus before + 1 := by
  rw [surplus_append, surplus_cons, hinner.surplus_eq, depthAfter_eq, surplus_opening ho]
  rfl

/-- The text is `depth` brackets deep, and no start of it closes more brackets than it opens. -/
structure AtDepth (text : List Char) (depth : Nat) : Prop where
  upright : ∀ start, start <+: text → 0 ≤ surplus start
  surplus_eq : surplus text = depth

namespace AtDepth

variable {text : List Char} {depth : Nat}

theorem nil : AtDepth [] 0 where
  upright start hstart := by rw [List.prefix_nil.mp hstart]; decide
  surplus_eq := rfl

theorem concat (h : AtDepth text depth) {c : Char} {next : Nat}
    (hstep : depthAfter depth c = next) : AtDepth (text ++ [c]) next := by
  have hnext : surplus (text ++ [c]) = next := by
    rw [surplus_append, h.surplus_eq, ← depthAfter_eq, hstep]
  refine ⟨fun start hstart => ?_, hnext⟩
  rcases List.prefix_concat_iff.mp hstart with rfl | hstart
  · rw [hnext]
    exact Int.natCast_nonneg next
  · exact h.upright start hstart

/-- Every start of the text has a depth. -/
theorem of_prefix (h : AtDepth text depth) {start : List Char} (hstart : start <+: text) :
    AtDepth start (surplus start).toNat where
  upright first hfirst := h.upright first (hfirst.trans hstart)
  surplus_eq := (Int.toNat_of_nonneg (h.upright start hstart)).symm

/-- A text of positive depth ends inside of a bracket. -/
theorem enclosed (h : AtDepth text depth) (hdepth : 0 < depth) : Enclosed text := by
  -- Before a closing bracket stands the one that it closes, and the one that is looked for stands
  -- further left: it is found in a text that may be shorter by more than one character.
  induction hlength : text.length using Nat.strong_induction_on generalizing text depth with
  | _ length ih =>
    subst hlength
    rcases List.eq_nil_or_concat' text with rfl | ⟨before, c, rfl⟩
    · have hzero : (depth : Int) = 0 := h.surplus_eq.symm
      omega
    have hbefore := h.of_prefix (List.prefix_append before [c])
    have hshorter : before.length < (before ++ [c]).length := by simp
    have hsurplus : surplus before + surplus [c] = depth := by rw [← surplus_append, h.surplus_eq]
    by_cases ho : isOpening c
    · exact ⟨before, c, [], ho, .nil, rfl⟩
    by_cases hc : isClosing c
    · rw [surplus_closing hc] at hsurplus
      obtain ⟨first, o, inner, ho, hinner, rfl⟩ := ih _ hshorter hbefore (by omega) rfl
      rw [surplus_open ho hinner] at hsurplus
      have hfirst := hbefore.of_prefix (List.prefix_append first (o :: inner))
      obtain ⟨start, outer, between, houter, hbetween, rfl⟩ :=
        ih first.length (by simp) hfirst (by omega) rfl
      have hgroup : Balanced (o :: (inner ++ [c])) := .group ho hc hinner .nil
      refine ⟨start, outer, between ++ o :: (inner ++ [c]), houter, ?_, by simp⟩
      exact hbetween.append hgroup
    · have hplain : IsPlain c := isPlain_of_not (not_or.mpr ⟨ho, hc⟩)
      rw [surplus_plain hplain] at hsurplus
      obtain ⟨first, o, inner, ho, hinner, rfl⟩ := ih _ hshorter hbefore (by omega) rfl
      exact ⟨first, o, inner ++ [c], ho, hinner.append (.char hplain .nil), by simp⟩

/-- The count tells the places inside of brackets from those outside. -/
theorem enclosed_iff (h : AtDepth text depth) : Enclosed text ↔ 0 < depth := by
  refine ⟨?_, h.enclosed⟩
  rintro ⟨before, o, inner, ho, hinner, rfl⟩
  have hbefore := h.upright before (List.prefix_append before _)
  have hsurplus := h.surplus_eq
  rw [surplus_open ho hinner] at hsurplus
  omega

end AtDepth

/-! ## Ends of statements -/

/-- Blanks, and past them a comma or an opening brace. -/
def Continued (text : List Char) : Prop :=
  ∃ blanks c rest, Blanks blanks ∧ (c = ',' ∨ c = '{') ∧ text = blanks ++ c :: rest

theorem continues_iff {text : List Char} : continues text ↔ Continued text := by
  constructor
  · intro h
    rw [continues] at h
    have htext : text.takeWhile Text.isBlank ++ Text.trimStart text = text :=
      List.takeWhile_append_dropWhile
    cases htrim : Text.trimStart text with
    | nil => simp [htrim] at h
    | cons c rest =>
      rw [htrim] at h htext
      refine ⟨_, c, rest, fun d hd => List.mem_takeWhile_imp hd, by simpa using h, htext.symm⟩
  · rintro ⟨blanks, c, rest, hblanks, hc, rfl⟩
    exact continues_blanks hblanks hc rest

/-- A statement that starts with `before` ends at the character `c`, with `past` behind it: `c`
is outside of brackets, and it closes none or is a line feed that the statement is not continued
past. -/
def StatementEnds (before : List Char) (c : Char) (past : List Char) : Prop :=
  ¬ Enclosed before ∧ (isClosing c ∨ c = '\n' ∧ ¬ Continued past)

/-- One character of a statement. -/
theorem statementFrom_step {before : List Char} {depth : Nat} (h : AtDepth before depth) (c : Char)
    (past : List Char) :
    StatementEnds before c past ∧ statementFrom depth (c :: past) = [] ∨
    ¬ StatementEnds before c past ∧ ∃ next, AtDepth (before ++ [c]) next ∧
      statementFrom depth (c :: past) = c :: statementFrom next past := by
  rw [StatementEnds, h.enclosed_iff]
  by_cases ho : isOpening c
  · have hline : c ≠ '\n' := by
      rintro rfl
      exact absurd ho (by decide)
    have hnext : AtDepth (before ++ [c]) (depth + 1) := h.concat (depthAfter_opening ho depth)
    refine .inr ⟨by simp [not_closing_of_opening ho, hline], depth + 1, hnext, ?_⟩
    exact statementFrom_opening ho depth past
  by_cases hc : isClosing c
  · cases depth with
    | zero =>
      refine .inl ⟨⟨Nat.lt_irrefl 0, .inl hc⟩, ?_⟩
      rw [statementFrom, if_neg ho, if_pos hc]
    | succ depth =>
      refine .inr ⟨by simp, depth, h.concat (depthAfter_closing hc depth), ?_⟩
      exact statementFrom_closing hc past
  have hplain : IsPlain c := isPlain_of_not (not_or.mpr ⟨ho, hc⟩)
  have hnext : AtDepth (before ++ [c]) depth := h.concat (depthAfter_plain hplain depth)
  cases depth with
  | succ depth => exact .inr ⟨by simp, depth + 1, hnext, statementFrom_inner hplain past⟩
  | zero =>
    rw [statementFrom_plain hplain]
    by_cases hend : c = '\n' ∧ continues past = false
    · refine .inl ⟨⟨Nat.lt_irrefl 0, .inr ⟨hend.1, ?_⟩⟩, if_pos hend⟩
      rw [← continues_iff, hend.2]
      exact Bool.false_ne_true
    · refine .inr ⟨?_, 0, hnext, if_neg hend⟩
      rintro ⟨-, hclosing | ⟨hline, hpast⟩⟩
      · exact hc hclosing
      · rw [← continues_iff] at hpast
        exact hend ⟨hline, by simpa using hpast⟩

/-- The part of a text up to a place: the statement does not end in it. -/
def RunsOn (before stretch rest : List Char) : Prop :=
  ∀ start c after, stretch = start ++ c :: after →
    ¬ StatementEnds (before ++ start) c (after ++ rest)

theorem RunsOn.cons {before stretch rest : List Char} {c : Char}
    (hc : ¬ StatementEnds before c (stretch ++ rest)) (h : RunsOn (before ++ [c]) stretch rest) :
    RunsOn before (c :: stretch) rest := by
  intro start d after heq
  cases start with
  | nil =>
    obtain ⟨rfl, rfl⟩ := List.cons_eq_cons.mp heq
    rwa [List.append_nil]
  | cons e start =>
    obtain ⟨rfl, rfl⟩ := List.cons_eq_cons.mp heq
    simpa using h start d after rfl

/-- A statement goes on up to the first place where it ends, with its depth counted right. -/
theorem statementFrom_run {before : List Char} {depth : Nat} (h : AtDepth before depth)
    (text : List Char) : ∃ rest last, text = statementFrom depth text ++ rest ∧
      AtDepth (before ++ statementFrom depth text) last ∧
      RunsOn before (statementFrom depth text) rest ∧
      ∀ c past, rest = c :: past → StatementEnds (before ++ statementFrom depth text) c past := by
  induction text generalizing before depth with
  | nil =>
    have hempty : statementFrom depth [] = [] := by rw [statementFrom]
    rw [hempty]
    exact ⟨[], depth, rfl, by rwa [List.append_nil], by simp [RunsOn], by simp⟩
  | cons c text ih =>
    rcases statementFrom_step h c text with ⟨hends, hstop⟩ | ⟨hends, next, hnext, hgo⟩
    · rw [hstop]
      refine ⟨c :: text, depth, rfl, by rwa [List.append_nil], by simp [RunsOn], ?_⟩
      rintro d past heq
      obtain ⟨rfl, rfl⟩ := List.cons_eq_cons.mp heq
      rwa [List.append_nil]
    · obtain ⟨rest, last, htext, hlast, hruns, hrest⟩ := ih hnext
      rw [hgo]
      refine ⟨rest, last, congrArg (c :: ·) htext, by simpa using hlast, .cons ?_ hruns, ?_⟩
      · rwa [← htext]
      · simpa using hrest

/-- The start of a text, as long as no statement ends in it. -/
def Unbroken (text stretch : List Char) : Prop :=
  ∃ rest, text = stretch ++ rest ∧ RunsOn [] stretch rest

/-- The statement is the longest start of the text that no statement ends in. -/
theorem statement_longest (text : List Char) : Unbroken text (statement text) ∧
    ∀ stretch, Unbroken text stretch → stretch <+: statement text := by
  obtain ⟨rest, -, htext, -, hruns, hends⟩ := statementFrom_run AtDepth.nil text
  refine ⟨⟨rest, htext, hruns⟩, ?_⟩
  rintro stretch ⟨others, hothers, hstretch⟩
  rw [htext] at hothers
  rcases List.append_eq_append_iff.mp hothers with ⟨more, rfl, rfl⟩ | ⟨more, hmore, -⟩
  · -- A longer stretch has the character at which the statement ends.
    cases more with
    | nil => exact ⟨[], by simp [statement]⟩
    | cons c more => exact absurd (hends c _ rfl) (hstretch (statementFrom 0 text) c more rfl)
  · exact ⟨more, hmore.symm⟩

/-- Every start of a statement has a depth. -/
theorem atDepth_statement {text start : List Char} (h : start <+: statement text) :
    AtDepth start (surplus start).toNat := by
  obtain ⟨-, last, -, hlast, -⟩ := statementFrom_run AtDepth.nil text
  exact hlast.of_prefix h

/-! ## The scan for declarators -/

/-- Only commas separate declarators. -/
theorem DeclaratorPart.eq_comma_of_after? {part : DeclaratorPart} {last next : Option Char}
    {c : Char} (h : part.after? last c next = none) : c = ',' := by
  by_contra hne
  cases part with
  | target =>
    simp only [DeclaratorPart.after?, if_neg hne] at h
    repeat' split at h
    all_goals cases h
  | typed angles =>
    simp only [DeclaratorPart.after?, hne, false_and, if_false] at h
    repeat' split at h
    all_goals cases h
  | initializer => simp [DeclaratorPart.after?, hne] at h

/-- A call of the scan for declarators: the depth and the part of a declarator that it has come to,
the character before its text, and its text. -/
structure DeclaratorScan where
  depth : Int
  part : DeclaratorPart
  last : Option Char
  text : List Char

namespace DeclaratorScan

/-- The call that the scan of a text starts with. -/
def start (text : List Char) : DeclaratorScan := ⟨0, .target, none, text⟩

/-- The answer of a call. -/
def declarators (scan : DeclaratorScan) : List (List Char) :=
  declaratorsFrom scan.depth scan.part scan.last scan.text

/-- A call makes one other call, on the text past its first character. Brackets, and what stands
inside of them, leave the part of the declarator as it is. -/
inductive Calls : DeclaratorScan → DeclaratorScan → Prop
  | bracket {depth : Int} {part : DeclaratorPart} {last : Option Char} {c : Char}
      {rest : List Char} : isBracket c →
      Calls ⟨depth, part, last, c :: rest⟩ ⟨depthAfter depth c, part, some c, rest⟩
  | inner {depth : Int} {part : DeclaratorPart} {last : Option Char} {c : Char}
      {rest : List Char} : IsPlain c → 0 < depth →
      Calls ⟨depth, part, last, c :: rest⟩ ⟨depth, part, some c, rest⟩
  | outer {depth : Int} {part : DeclaratorPart} {last : Option Char} {c : Char}
      {rest : List Char} : IsPlain c → depth ≤ 0 →
      Calls ⟨depth, part, last, c :: rest⟩
        ⟨depth, part.past last c rest.head?, some c, rest⟩

/-- The calls that a call gives rise to. -/
def Reaches : DeclaratorScan → DeclaratorScan → Prop := Relation.ReflTransGen Calls

theorem exists_calls (scan : DeclaratorScan) : scan.text = [] ∨ ∃ next, scan.Calls next := by
  obtain ⟨depth, part, last, text⟩ := scan
  cases text with
  | nil => exact .inl rfl
  | cons c rest =>
    right
    by_cases hbracket : isBracket c
    · exact ⟨_, .bracket hbracket⟩
    have hplain : IsPlain c := isPlain_of_not_isBracket (by simpa using hbracket)
    by_cases hdepth : 0 < depth
    · exact ⟨_, .inner hplain hdepth⟩
    · exact ⟨_, .outer hplain (Int.not_lt.mp hdepth)⟩

/-- A call takes one character off the text and counts it. -/
theorem Calls.text_eq {scan next : DeclaratorScan} (h : scan.Calls next) :
    ∃ c, scan.text = c :: next.text ∧ next.depth = scan.depth + surplus [c] := by
  cases h with
  | bracket => exact ⟨_, rfl, depthAfter_eq _ _⟩
  | inner hplain => exact ⟨_, rfl, by simp [surplus_plain hplain]⟩
  | outer hplain => exact ⟨_, rfl, by simp [surplus_plain hplain]⟩

/-- What a call makes of the answer to its own call: the character goes to the first declarator, or
is a comma that is not inside of brackets. -/
theorem Calls.declarators_eq {scan next : DeclaratorScan} (h : scan.Calls next) {c : Char}
    (hc : scan.text = c :: next.text) :
    scan.declarators = Text.consFirst c next.declarators ∨
      c = ',' ∧ scan.depth ≤ 0 ∧ scan.declarators = [] :: next.declarators := by
  cases h with
  | bracket hbracket =>
    obtain ⟨rfl, -⟩ := List.cons_eq_cons.mp hc
    refine .inl ?_
    rw [declarators, declaratorsFrom]
    exact if_pos hbracket
  | inner hplain hdepth =>
    obtain ⟨rfl, -⟩ := List.cons_eq_cons.mp hc
    refine .inl ?_
    rw [declarators, declaratorsFrom, if_neg (by simp [hplain.1, hplain.2])]
    exact if_pos hdepth
  | outer hplain hdepth =>
    obtain ⟨rfl, -⟩ := List.cons_eq_cons.mp hc
    rw [declarators, declaratorsFrom, if_neg (by simp [hplain.1, hplain.2]),
      if_neg (Int.not_lt.mpr hdepth), DeclaratorPart.past]
    split
    next hnone =>
      refine .inr ⟨DeclaratorPart.eq_comma_of_after? hnone, hdepth, ?_⟩
      rw [hnone]
      rfl
    next hsome =>
      refine .inl ?_
      rw [hsome]
      rfl

/-- The depth of a call is the surplus of the text before it. -/
theorem Reaches.depth_eq {text : List Char} {scan : DeclaratorScan}
    (h : (start text).Reaches scan) :
    ∃ before, text = before ++ scan.text ∧ scan.depth = surplus before := by
  induction h with
  | refl => exact ⟨[], rfl, rfl⟩
  | tail _ hcalls ih =>
    obtain ⟨before, htext, hdepth⟩ := ih
    obtain ⟨c, hc, hnext⟩ := hcalls.text_eq
    refine ⟨before ++ [c], by simp [htext, hc], ?_⟩
    rw [hnext, hdepth, surplus_append]

end DeclaratorScan

/-! ## Parts of a text -/

theorem intercalate_append (separator : Char) {front back : List (List Char)} (hfront : front ≠ [])
    (hback : back ≠ []) : [separator].intercalate (front ++ back) =
      [separator].intercalate front ++ separator :: [separator].intercalate back := by
  induction front with
  | nil => exact absurd rfl hfront
  | cons part front ih =>
    cases front with
    | nil => simp [List.intercalate_cons_of_ne_nil hback]
    | cons next front =>
      have hrest := ih (List.cons_ne_nil next front)
      rw [List.cons_append] at hrest
      simp [hrest]

/-- The parts that a text is cut into: with the separators between them they are the text, and what
stands before a cut has the property. -/
structure CutInto (separator : Char) (p : List Char → Prop) (text : List Char)
    (parts : List (List Char)) : Prop where
  nonempty : parts ≠ []
  joined : [separator].intercalate parts = text
  cuts : ∀ front back, front ≠ [] → back ≠ [] → parts = front ++ back →
    p ([separator].intercalate front)

namespace CutInto

variable {separator : Char} {p q : List Char → Prop} {text : List Char} {parts : List (List Char)}

theorem nil : CutInto separator p [] [[]] where
  nonempty := List.cons_ne_nil [] []
  joined := rfl
  cuts front back hfront hback heq := by
    rcases List.append_eq_singleton_iff.mp heq.symm with ⟨hnil, -⟩ | ⟨-, hnil⟩
    · exact absurd hnil hfront
    · exact absurd hnil hback

/-- A character goes to the first part. -/
theorem consFirst {c : Char} (h : CutInto separator (fun before => p (c :: before)) text parts) :
    CutInto separator p (c :: text) (Text.consFirst c parts) := by
  have hfirst (part : List Char) (others : List (List Char)) :
      [separator].intercalate ((c :: part) :: others) =
        c :: [separator].intercalate (part :: others) := by
    cases others with
    | nil => simp
    | cons other others => simp
  obtain ⟨part, others, rfl⟩ := List.exists_cons_of_ne_nil h.nonempty
  refine ⟨List.cons_ne_nil _ _, by rw [Text.consFirst, hfirst, h.joined], ?_⟩
  intro front back hfront hback heq
  obtain ⟨first, front, rfl⟩ := List.exists_cons_of_ne_nil hfront
  obtain ⟨rfl, rfl⟩ := List.cons_eq_cons.mp heq
  rw [hfirst]
  exact h.cuts (part :: front) back (List.cons_ne_nil _ _) hback rfl

/-- A separator ends the first part. -/
theorem cut (hnil : p [])
    (h : CutInto separator (fun before => p (separator :: before)) text parts) :
    CutInto separator p (separator :: text) ([] :: parts) where
  nonempty := List.cons_ne_nil [] parts
  joined := by
    rw [List.intercalate_cons_of_ne_nil h.nonempty, h.joined]
    rfl
  cuts front back hfront hback heq := by
    obtain ⟨first, front, rfl⟩ := List.exists_cons_of_ne_nil hfront
    obtain ⟨rfl, rfl⟩ := List.cons_eq_cons.mp heq
    cases front with
    | nil => exact hnil
    | cons part front =>
      rw [List.intercalate_cons_of_ne_nil (List.cons_ne_nil _ _)]
      exact h.cuts (part :: front) back (List.cons_ne_nil _ _) hback rfl

/-- What stands before a cut is a start of the text. -/
theorem mono (h : CutInto separator p text parts)
    (hpq : ∀ before, before <+: text → p before → q before) : CutInto separator q text parts where
  nonempty := h.nonempty
  joined := h.joined
  cuts front back hfront hback heq := by
    refine hpq _ ?_ (h.cuts front back hfront hback heq)
    rw [← h.joined, heq, intercalate_append separator hfront hback]
    exact List.prefix_append _ _

end CutInto

/-- The scan for declarators loses nothing, and cuts where no bracket is open. -/
theorem DeclaratorScan.cutInto (scan : DeclaratorScan) :
    CutInto ',' (fun before => scan.depth + surplus before ≤ 0) scan.text scan.declarators := by
  generalize htext : scan.text = text
  induction text generalizing scan with
  | nil =>
    rw [declarators, htext, declaratorsFrom]
    exact .nil
  | cons c rest ih =>
    rcases scan.exists_calls with hnil | ⟨next, hcalls⟩
    · exact absurd (hnil.symm.trans htext) (List.cons_ne_nil c rest).symm
    obtain ⟨d, hd, hnext⟩ := hcalls.text_eq
    obtain ⟨rfl, hrest⟩ := List.cons_eq_cons.mp (hd.symm.trans htext)
    have hdepth (before : List Char) :
        scan.depth + surplus (d :: before) = next.depth + surplus before := by
      rw [hnext, surplus_cons, depthAfter_eq]
      omega
    have hcut := ih next hrest
    simp only [← hdepth] at hcut
    rcases hcalls.declarators_eq hd with heq | ⟨rfl, hopen, heq⟩
    · rw [heq]
      exact hcut.consFirst
    · rw [heq]
      exact .cut (by simpa [surplus] using hopen) hcut

/-- So does the scan for the parts between other separators. -/
theorem splitTopFrom_cutInto {separator : Char} (h : IsPlain separator) (depth : Int)
    (text : List Char) :
    CutInto separator (fun before => depth + surplus before = 0) text
      (splitTopFrom separator depth text) := by
  induction text generalizing depth with
  | nil => exact .nil
  | cons c rest ih =>
    have hdepth (before : List Char) :
        depth + surplus (c :: before) = depthAfter depth c + surplus before := by
      rw [surplus_cons, depthAfter_eq, depthAfter_eq]
      omega
    have hcut := ih (depthAfter depth c)
    simp only [← hdepth] at hcut
    rw [splitTopFrom]
    split
    next hc =>
      obtain ⟨rfl, rfl⟩ := hc
      rw [depthAfter_plain h] at hcut
      exact .cut rfl hcut
    next => exact hcut.consFirst

/-! ## Statements and their parts -/

/-- **Nesting of statements.** The statement at the start of any text is the longest start of it
without a bracket that closes none and without a line feed, outside of brackets, that it is not
continued past. No start of it closes more brackets than it opens, and the surplus is zero exactly
outside of brackets, whatever the kinds of the brackets are. So the scan for declarators never comes
to a negative depth in a statement, and cuts it at commas at depth zero, without loss; and so does
`splitTop` with any text, at any separator that is not a bracket. -/
theorem statement_nesting (text : List Char) :
    (Unbroken text (statement text) ∧
      ∀ stretch, Unbroken text stretch → stretch <+: statement text) ∧
    (∀ start, start <+: statement text → start.countP isClosing ≤ start.countP isOpening ∧
      (Enclosed start ↔ surplus start ≠ 0)) ∧
    (∀ scan, (DeclaratorScan.start (statement text)).Reaches scan → 0 ≤ scan.depth) ∧
    CutInto ',' (fun before => surplus before = 0) (statement text)
      (declarators (statement text)) ∧
    ∀ separator whole, IsPlain separator →
      CutInto separator (fun before => surplus before = 0) whole (splitTop separator whole) := by
  refine ⟨statement_longest text, fun start hstart => ?_, fun scan hscan => ?_, ?_, ?_⟩
  · have hdepth := atDepth_statement hstart
    have hsurplus := hdepth.upright start List.prefix_rfl
    refine ⟨by rw [surplus] at hsurplus; omega, ?_⟩
    rw [hdepth.enclosed_iff]
    omega
  · obtain ⟨before, htext, hdepth⟩ := hscan.depth_eq
    rw [hdepth]
    exact (atDepth_statement (htext ▸ List.prefix_append before scan.text)).upright before
      List.prefix_rfl
  · refine (DeclaratorScan.start (statement text)).cutInto.mono fun before hbefore hclosed => ?_
    have hopen := (atDepth_statement hbefore).upright before List.prefix_rfl
    have hstart : (DeclaratorScan.start (statement text)).depth = 0 := rfl
    omega
  · intro separator whole hplain
    exact (splitTopFrom_cutInto hplain 0 whole).mono fun before _ hzero => by simpa using hzero

/-- A closing bracket that closes one of another kind ends nothing, and a line feed before a comma
does not either. A text that closes a bracket too much is cut inside of the next one. -/
theorem statement_nesting_of_mismatched :
    let text := "a = f([x, y)]\n , b = 2) c, d".toList
    let whole := ")a,(b,c),(d".toList
    statement text = "a = f([x, y)]\n , b = 2".toList ∧
      declarators (statement text) = ["a = f([x, y)]\n ".toList, " b = 2".toList] ∧
      CutInto ',' (fun before => surplus before = 0) (statement text)
        (declarators (statement text)) ∧
      IsPlain ',' ∧ splitTop ',' whole = [")a,(b".toList, "c),(d".toList] ∧
      CutInto ',' (fun before => surplus before = 0) whole (splitTop ',' whole) := by
  intro text whole
  obtain ⟨-, -, -, hdeclarators, hparts⟩ := statement_nesting text
  refine ⟨by decide, by decide, hdeclarators, by decide, by decide, ?_⟩
  exact hparts ',' whole (by decide)

end ClientBindings.Source
