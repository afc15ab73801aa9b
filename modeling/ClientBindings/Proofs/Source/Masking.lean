import ClientBindings.Source.Lexing

/-!
# Lexical items

Sources as sequences of lexical items, and what masking makes of them.

* `Inside`: the inside of literals. Interpolations of templates hold items again, with braces in
  pairs.
* `Reads`: a source made of items, and its cells: comments are hidden, and so is what stands between
  the delimiters of a literal.
* `Reads.mask_eq`: masking gives these cells wherever the comments inside of interpolations are
  quiet, that is without quotes, backquotes and braces. Others are read as code
  (`mask_comment_in_interpolation`).
-/

namespace ClientBindings.Source

/-! ## Items -/

/-- The inside of a literal, or of an interpolation in one. -/
inductive Inner
  | quoted (mark : Char)
  | template
  | interpolation
  deriving DecidableEq, Repr

/-- The character that ends the inside. -/
def Inner.closing : Inner → Char
  | quoted mark => mark
  | template => '`'
  | interpolation => '}'

@[simp] theorem Inner.closing_template : Inner.template.closing = '`' := rfl

@[simp] theorem Inner.closing_interpolation : Inner.interpolation.closing = '}' := rfl

/-- The inside of a whole literal, between two of its closing characters. -/
def Inner.IsLiteral : Inner → Prop
  | quoted mark => mark = '"' ∨ mark = '\''
  | template => True
  | interpolation => False

/-- A comment with `rest` after it: up to the end of its line, or between two marks. -/
inductive Comment (rest : List Char) : List Char → Prop
  | line {body : List Char} : '\n' ∉ body → (rest = [] ∨ rest.head? = some '\n') →
      Comment rest ('/' :: '/' :: body)
  | block {body : List Char} : ¬ ['*', '/'] <:+: body →
      Comment rest ('/' :: '*' :: (body ++ ['*', '/']))

/-- A character of code: no delimiter of a literal, and no start of a comment. -/
structure IsCode (c : Char) (rest : List Char) : Prop where
  notQuote : c ≠ '"' ∧ c ≠ '\'' ∧ c ≠ '`'
  notComment : c = '/' → rest.head? ≠ some '/' ∧ rest.head? ≠ some '*'

/-- The inside of literals. Comments inside of interpolations are among `comments`. -/
inductive Inside (comments : List Char → Prop) : Inner → List Char → Prop
  | nil {inner : Inner} : Inside comments inner []
  | escape {inner : Inner} (c : Char) {rest : List Char} : inner ≠ .interpolation →
      Inside comments inner rest → Inside comments inner ('\\' :: c :: rest)
  | quotedChar {mark c : Char} {rest : List Char} : c ≠ mark → c ≠ '\\' → c ≠ '\n' →
      Inside comments (.quoted mark) rest → Inside comments (.quoted mark) (c :: rest)
  | templateChar {c : Char} {rest : List Char} : c ≠ '`' → c ≠ '\\' →
      (c = '$' → rest.head? ≠ some '{') →
      Inside comments .template rest → Inside comments .template (c :: rest)
  | hole {code rest : List Char} : Inside comments .interpolation code →
      Inside comments .template rest →
      Inside comments .template ('$' :: '{' :: (code ++ '}' :: rest))
  | codeChar {c : Char} {rest : List Char} : IsCode c rest → c ≠ '{' → c ≠ '}' →
      Inside comments .interpolation rest → Inside comments .interpolation (c :: rest)
  | braces {code rest : List Char} : Inside comments .interpolation code →
      Inside comments .interpolation rest →
      Inside comments .interpolation ('{' :: (code ++ '}' :: rest))
  | comment {text rest : List Char} : Comment (rest ++ ['}']) text → comments text →
      Inside comments .interpolation rest → Inside comments .interpolation (text ++ rest)
  | literal {inner : Inner} {body rest : List Char} : inner.IsLiteral →
      Inside comments inner body → Inside comments .interpolation rest →
      Inside comments .interpolation (inner.closing :: (body ++ inner.closing :: rest))

/-- Hidden characters. -/
def hide (text : List Char) : List Cell := text.map (⟨·, true⟩)

/-- A source made of items, with its cells. -/
inductive Reads (comments : List Char → Prop) : List Char → List Cell → Prop
  | nil : Reads comments [] []
  | code {c : Char} {rest : List Char} {cells : List Cell} : IsCode c rest →
      Reads comments rest cells → Reads comments (c :: rest) (⟨c, false⟩ :: cells)
  | comment {text rest : List Char} {cells : List Cell} : Comment rest text →
      Reads comments rest cells → Reads comments (text ++ rest) (hide text ++ cells)
  | literal {inner : Inner} {body rest : List Char} {cells : List Cell} : inner.IsLiteral →
      Inside comments inner body → Reads comments rest cells →
      Reads comments (inner.closing :: (body ++ inner.closing :: rest))
        (⟨inner.closing, false⟩ :: (hide body ++ ⟨inner.closing, false⟩ :: cells))

/-- A comment without a character that the code of an interpolation reacts to. -/
def Quiet (comment : List Char) : Prop :=
  ∀ c ∈ comment, c ≠ '"' ∧ c ≠ '\'' ∧ c ≠ '`' ∧ c ≠ '{' ∧ c ≠ '}'

/-! ## Literals -/

/-- The state inside of a frame. -/
abbrev Frame.inside (frame : Frame) (outer : List Frame) : Lexing := .at (.nested (frame :: outer))

/-- A step looks ahead for the second character of a mark. -/
theorem step_congr {next next' : Option Char}
    (h : ∀ d ∈ ['/', '*', '{'], next = some d ↔ next' = some d) (state : Lexing) (c : Char) :
    step state c next = step state c next' := by
  have hslash := h '/' (by simp)
  have hstar := h '*' (by simp)
  have hbrace := h '{' (by simp)
  cases state with
  | within region => rfl
  | «at» region =>
    cases region with
    | nested frames =>
      cases frames with
      | nil => simp only [step, stepCode, hslash, hstar]
      | cons frame outer => simp only [step, stepFrame, hbrace]
    | lineComment => rfl
    | blockComment => simp only [step, hslash]

theorem maskFrom_cons {state next : Lexing} {c : Char} {rest : List Char} {hidden : Bool}
    (h : step state c rest.head? = (hidden, next)) :
    maskFrom state (c :: rest) = ⟨c, hidden⟩ :: maskFrom next rest := by
  simp [maskFrom, h]

theorem maskFrom_code {c : Char} {rest : List Char} {hidden : Bool} {next : Lexing}
    (h : stepCode c rest.head? = (hidden, next)) :
    maskFrom (.at .code) (c :: rest) = ⟨c, hidden⟩ :: maskFrom next rest := maskFrom_cons h

theorem maskFrom_frame {frame : Frame} {outer : List Frame} {c : Char} {rest : List Char}
    {hidden : Bool} {next : Lexing} (h : stepFrame frame outer c rest.head? = (hidden, next)) :
    maskFrom (frame.inside outer) (c :: rest) = ⟨c, hidden⟩ :: maskFrom next rest :=
  maskFrom_cons h

theorem maskFrom_within (region : Region) (c : Char) (rest : List Char) :
    maskFrom (.within region) (c :: rest) = ⟨c, true⟩ :: maskFrom (.at region) rest := rfl

/-- The frames of an inside: that of an interpolation counts the braces around. -/
inductive Inner.Framed : Inner → Frame → Prop
  | quoted (mark : Char) : Framed (.quoted mark) (.quote mark)
  | template : Framed .template .template
  | interpolation (braces : Nat) : Framed .interpolation (.hole braces)

/-- The frame of a literal. -/
def Inner.frame : Inner → Frame
  | quoted mark => .quote mark
  | template => .template
  | interpolation => .hole 0

theorem Inner.framed (inner : Inner) : inner.Framed inner.frame := by
  cases inner with
  | quoted mark => exact .quoted mark
  | template => exact .template
  | interpolation => exact .interpolation 0

theorem stepCode_open {inner : Inner} (h : inner.IsLiteral) (next : Option Char) :
    stepCode inner.closing next = (false, inner.frame.inside []) := by
  cases inner with
  | quoted mark => rcases h with rfl | rfl <;> rfl
  | template => rfl
  | interpolation => exact h.elim

/-- A literal in an interpolation opens hidden. -/
theorem stepFrame_open {inner : Inner} (h : inner.IsLiteral) (braces : Nat) (outer : List Frame)
    (next : Option Char) : stepFrame (.hole braces) outer inner.closing next =
      (true, inner.frame.inside (.hole braces :: outer)) := by
  cases inner with
  | quoted mark => rcases h with rfl | rfl <;> rfl
  | template => rfl
  | interpolation => exact h.elim

/-- A literal closes hidden, unless it is the outermost. -/
theorem stepFrame_close {inner : Inner} (h : inner.IsLiteral) (outer : List Frame)
    (next : Option Char) : stepFrame inner.frame outer inner.closing next =
      (!outer.isEmpty, .at (.nested outer)) := by
  cases inner with
  | quoted mark => rcases h with rfl | rfl <;> rfl
  | template => rfl
  | interpolation => exact h.elim

/-- Escapes are passed over, except in an interpolation. -/
theorem stepFrame_escape {inner : Inner} {frame : Frame} (hf : inner.Framed frame)
    (h : inner ≠ .interpolation) (outer : List Frame) (next : Option Char) :
    stepFrame frame outer '\\' next = (true, .within (.nested (frame :: outer))) := by
  cases hf with
  | quoted mark => rfl
  | template => rfl
  | interpolation => exact absurd rfl h

theorem stepFrame_hole {c : Char} (hq : c ≠ '"' ∧ c ≠ '\'' ∧ c ≠ '`') (ho : c ≠ '{') (hc : c ≠ '}')
    (braces : Nat) (outer : List Frame) (next : Option Char) :
    stepFrame (.hole braces) outer c next = (true, (Frame.hole braces).inside outer) := by
  simp [stepFrame, hq, ho, hc]

/-- A quiet comment in an interpolation is hidden, like any other text there. -/
theorem maskFrom_quiet {text : List Char} (h : Quiet text) (braces : Nat) (outer : List Frame)
    (rest : List Char) : maskFrom ((Frame.hole braces).inside outer) (text ++ rest) =
      hide text ++ maskFrom ((Frame.hole braces).inside outer) rest := by
  induction text with
  | nil => rfl
  | cons c text ih =>
    obtain ⟨hd, hs, hb, ho, hc⟩ := h c List.mem_cons_self
    rw [List.cons_append, maskFrom_frame (stepFrame_hole ⟨hd, hs, hb⟩ ho hc braces outer _),
      ih fun c hc => h c (List.mem_cons_of_mem _ hc)]
    rfl

/-- **Inside of literals.** All of it is hidden, and the frames around are the same after it. -/
theorem Inside.mask {inner : Inner} {body : List Char} (h : Inside Quiet inner body)
    {frame : Frame} (hf : inner.Framed frame) (outer : List Frame) (rest : List Char) :
    maskFrom (frame.inside outer) (body ++ inner.closing :: rest) =
      hide body ++ maskFrom (frame.inside outer) (inner.closing :: rest) := by
  induction h generalizing frame outer rest with
  | nil => rfl
  | @escape inner c body hinner _ ih =>
    have hescape (next : Option Char) := stepFrame_escape hf hinner outer next
    rw [List.cons_append, List.cons_append, maskFrom_frame (hescape _), maskFrom_within, ih hf]
    rfl
  | @quotedChar mark c body hmark hslash hline _ ih =>
    cases hf with
    | quoted =>
      have hstay (next : Option Char) : stepFrame (.quote mark) outer c next =
          (true, (Frame.quote mark).inside outer) := by
        simp [stepFrame, hmark, hslash, hline]
      rw [List.cons_append, maskFrom_frame (hstay _), ih (.quoted mark)]
      rfl
  | @templateChar c body hquote hslash hdollar _ ih =>
    cases hf with
    | template =>
      -- A dollar at the end of the template is followed by the closing quote.
      have hnext : ¬ (c = '$' ∧ (body ++ Inner.template.closing :: rest).head? = some '{') := by
        rintro ⟨hc, hhead⟩
        cases body with
        | nil => simp at hhead
        | cons d body => exact hdollar hc hhead
      have hstay : stepFrame .template outer c (body ++ Inner.template.closing :: rest).head? =
          (true, Frame.template.inside outer) := by
        rw [stepFrame, if_neg hslash, if_neg hquote, if_neg hnext]
      rw [List.cons_append, maskFrom_frame hstay, ih .template]
      rfl
  | @hole code body _ _ ihcode ihbody =>
    cases hf with
    | template =>
      have hopen : stepFrame .template outer '$' (some '{') =
          (true, .within (.nested (.hole 0 :: .template :: outer))) := rfl
      have hclose (next : Option Char) : stepFrame (.hole 0) (.template :: outer) '}' next =
          (true, Frame.template.inside outer) := rfl
      have hcode := ihcode (.interpolation 0) (.template :: outer) (body ++ '`' :: rest)
      have hbody := ihbody .template outer rest
      simp only [Inner.closing_template, Inner.closing_interpolation, List.cons_append,
        List.append_assoc] at hcode hbody ⊢
      rw [maskFrom_frame hopen, maskFrom_within, hcode, maskFrom_frame (hclose _), hbody]
      simp [hide]
  | @codeChar c body hcode ho hc _ ih =>
    cases hf with
    | interpolation braces =>
      rw [List.cons_append, maskFrom_frame (stepFrame_hole hcode.notQuote ho hc braces outer _),
        ih (.interpolation braces)]
      rfl
  | @braces code body _ _ ihcode ihbody =>
    cases hf with
    | interpolation braces =>
      have hopen (next : Option Char) : stepFrame (.hole braces) outer '{' next =
          (true, (Frame.hole (braces + 1)).inside outer) := rfl
      have hclose (next : Option Char) : stepFrame (.hole (braces + 1)) outer '}' next =
          (true, (Frame.hole braces).inside outer) := rfl
      have hcode := ihcode (.interpolation (braces + 1)) outer (body ++ '}' :: rest)
      have hbody := ihbody (.interpolation braces) outer rest
      simp only [Inner.closing_interpolation, List.cons_append, List.append_assoc] at hcode hbody ⊢
      rw [maskFrom_frame (hopen _), hcode, maskFrom_frame (hclose _), hbody]
      simp [hide]
  | @comment text body _ hquiet _ ih =>
    cases hf with
    | interpolation braces =>
      rw [List.append_assoc, maskFrom_quiet hquiet, ih (.interpolation braces)]
      simp [hide]
  | @literal inner text body hliteral _ _ ihtext ihbody =>
    cases hf with
    | interpolation braces =>
      have htext := ihtext inner.framed (.hole braces :: outer) (body ++ '}' :: rest)
      have hbody := ihbody (.interpolation braces) outer rest
      simp only [Inner.closing_interpolation, List.cons_append, List.append_assoc] at hbody ⊢
      rw [maskFrom_frame (stepFrame_open hliteral braces outer _), htext,
        maskFrom_frame (stepFrame_close hliteral (.hole braces :: outer) _)]
      simp [hide, hbody]

/-! ## Comments -/

theorem maskFrom_line {body rest : List Char} (hbody : '\n' ∉ body)
    (hrest : rest = [] ∨ rest.head? = some '\n') :
    maskFrom (.at .lineComment) (body ++ rest) = hide body ++ maskFrom (.at .code) rest := by
  induction body with
  | nil =>
    cases rest with
    | nil => rfl
    | cons c rest =>
      obtain rfl : c = '\n' := by simpa using hrest
      rfl
  | cons c body ih =>
    rw [List.mem_cons, not_or] at hbody
    have hstay (next : Option Char) : step (.at .lineComment) c next =
        (true, .at .lineComment) := by
      rw [step, if_neg (Ne.symm hbody.1)]
    rw [List.cons_append, maskFrom_cons (hstay _), ih hbody.2]
    rfl

theorem maskFrom_block {body : List Char} (hbody : ¬ ['*', '/'] <:+: body) (rest : List Char) :
    maskFrom (.at .blockComment) (body ++ '*' :: '/' :: rest) =
      hide body ++ ⟨'*', true⟩ :: ⟨'/', true⟩ :: maskFrom (.at .code) rest := by
  induction body with
  | nil => rfl
  | cons c body ih =>
    rw [List.infix_cons_iff, not_or] at hbody
    have hnext : ¬ (c = '*' ∧ (body ++ '*' :: '/' :: rest).head? = some '/') := by
      rintro ⟨rfl, hhead⟩
      cases body with
      | nil => simp at hhead
      | cons d body =>
        obtain rfl : d = '/' := by simpa using hhead
        exact hbody.1 (by simp)
    have hstay : step (.at .blockComment) c (body ++ '*' :: '/' :: rest).head? =
        (true, .at .blockComment) := by
      rw [step, if_neg hnext]
    rw [List.cons_append, maskFrom_cons hstay, ih hbody.2]
    rfl

theorem Comment.mask {text rest : List Char} (h : Comment rest text) :
    maskFrom (.at .code) (text ++ rest) = hide text ++ maskFrom (.at .code) rest := by
  cases h with
  | @line body hbody hrest =>
    have hopen : stepCode '/' (some '/') = (true, .within .lineComment) := rfl
    rw [List.cons_append, List.cons_append, maskFrom_code hopen, maskFrom_within,
      maskFrom_line hbody hrest]
    rfl
  | @block body hbody =>
    have hopen : stepCode '/' (some '*') = (true, .within .blockComment) := rfl
    have hblock := maskFrom_block hbody rest
    simp only [List.cons_append, List.append_assoc, List.nil_append]
    rw [maskFrom_code hopen, maskFrom_within, hblock]
    simp [hide]

/-! ## Sources -/

theorem IsCode.step {c : Char} {rest : List Char} (h : IsCode c rest) :
    stepCode c rest.head? = (false, .at .code) := by
  have hline : ¬ (c = '/' ∧ rest.head? = some '/') := fun hc => (h.notComment hc.1).1 hc.2
  have hblock : ¬ (c = '/' ∧ rest.head? = some '*') := fun hc => (h.notComment hc.1).2 hc.2
  simp [stepCode, hline, hblock, h.notQuote]

theorem Reads.mask_eq {text : List Char} {cells : List Cell} (h : Reads Quiet text cells) :
    mask text = cells := by
  rw [mask]
  induction h with
  | nil => rfl
  | code hcode _ ih => rw [maskFrom_code hcode.step, ih]
  | comment hcomment _ ih => rw [hcomment.mask, ih]
  | @literal inner body rest cells hliteral hbody _ ih =>
    rw [maskFrom_code (stepCode_open hliteral _), hbody.mask inner.framed,
      maskFrom_frame (stepFrame_close hliteral [] _)]
    exact congrArg _ (congrArg _ (congrArg _ ih))

/-- **Masking.** Exactly the comments and the contents of literals are hidden, and are blanks in the
masked text; all other characters stay. -/
theorem maskedText_of_reads {text : List Char} {cells : List Cell} (h : Reads Quiet text cells) :
    mask text = cells ∧
      maskedText (String.ofList text) = String.ofList (cells.flatMap Cell.blanked) := by
  have hmask := h.mask_eq
  refine ⟨hmask, ?_⟩
  rw [maskedText, String.toList_ofList, hmask]

/-- A comment and an object in an interpolation: only the delimiters of the template, and the code
past it, are seen. -/
theorem maskedText_of_quiet_comment :
    let code := ['/', '*', 'a', '*', '/', '{', '}']
    maskedText (String.ofList ('`' :: '$' :: '{' :: (code ++ ['}', '`', ';']))) =
      String.ofList ('`' :: (List.replicate 10 ' ' ++ ['`', ';'])) := by
  have htemplate : Inner.template.IsLiteral := trivial
  have hcomment : Comment ['{', '}', '}'] ['/', '*', 'a', '*', '/'] :=
    .block (by decide : ¬ ['*', '/'] <:+: ['a'])
  have hquiet : Quiet ['/', '*', 'a', '*', '/'] := by simp [Quiet]
  have hbody : Inside Quiet .template ['$', '{', '/', '*', 'a', '*', '/', '{', '}', '}'] :=
    .hole (.comment hcomment hquiet (.braces .nil .nil)) .nil
  have hreads : Reads Quiet ['`', '$', '{', '/', '*', 'a', '*', '/', '{', '}', '}', '`', ';'] _ :=
    .literal htemplate hbody (.code ⟨by decide, by decide⟩ .nil)
  exact (maskedText_of_reads hreads).2

/-- A comment in an interpolation with a backquote in it: the backquote opens a template, which
takes the end of the outer one for its own and hides the code past it. -/
theorem mask_comment_in_interpolation :
    ∃ text cells, Reads (fun _ => True) text cells ∧ mask text ≠ cells := by
  have htemplate : Inner.template.IsLiteral := trivial
  have hcomment : Comment ['1', '}'] ['/', '*', '`', '*', '/'] :=
    .block (by decide : ¬ ['*', '/'] <:+: ['`'])
  have hbody : Inside (fun _ => True) .template ['$', '{', '/', '*', '`', '*', '/', '1', '}'] :=
    .hole (.comment hcomment trivial
      (.codeChar ⟨by decide, by decide⟩ (by decide) (by decide) .nil)) .nil
  have hend : IsCode ';' [] := ⟨by decide, by decide⟩
  exact ⟨_, _, .literal htemplate hbody (.code hend .nil), by decide⟩

end ClientBindings.Source
