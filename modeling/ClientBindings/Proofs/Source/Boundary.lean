import ClientBindings.Proofs.Source.Masking
import ClientBindings.Proofs.Source.Patterns

/-!
# Boundaries

A semicolon and a line feed between two texts, and what does not reach across them.

* `mask_boundary`: where the masked text of the whole is that of its parts, so are the cells.
* `matched_shown`, `trimStart_shown`: the text that scanning sees has the brackets and the first
  solid character of the masked text.
* `Local`, `Local.scan_boundary`: a pattern that reads no semicolon occurs on the two sides of a
  boundary as in each text alone.
-/

namespace ClientBindings.Source

/-! ## Masks -/

/-- A semicolon ahead says no more than the end of the text. -/
theorem step_semicolon_ahead (state : Lexing) (c : Char) (text rest : List Char) :
    step state c (text ++ ';' :: rest).head? = step state c text.head? := by
  cases text with
  | nil =>
    have hmarks : ∀ d ∈ ['/', '*', '{'], d ≠ ';' := by simp
    exact step_congr (fun d hd => by simp [(hmarks d hd).symm]) state c
  | cons d text => rfl

theorem maskFrom_semicolon (state : Lexing) (text : List Char) :
    ∃ next, ∀ rest, maskFrom state (text ++ ';' :: rest) =
      maskFrom state text ++ maskFrom next (';' :: rest) := by
  induction text generalizing state with
  | nil => exact ⟨state, fun _ => rfl⟩
  | cons c text ih =>
    cases hstep : step state c text.head? with
    | mk hidden next =>
      obtain ⟨last, hlast⟩ := ih next
      refine ⟨last, fun rest => ?_⟩
      rw [List.cons_append, maskFrom_cons ((step_semicolon_ahead ..).trans hstep),
        maskFrom_cons hstep, hlast, List.cons_append]

/-- A semicolon is shown in code alone, or where the outermost literal ends. -/
theorem step_semicolon {state next : Lexing} {ahead : Option Char}
    (h : step state ';' ahead = (false, next)) : next = .at .code := by
  cases state with
  | within region => cases h
  | «at» region =>
    cases region with
    | nested frames =>
      cases frames with
      | nil => exact (Prod.mk.inj h).2.symm
      | cons frame outer =>
        cases frame with
        | quote mark =>
          by_cases hmark : ';' = mark
          · subst hmark
            obtain ⟨rfl, rfl⟩ : outer = [] ∧ .at (.nested outer) = next := by
              simpa [step, stepFrame] using h
            rfl
          · simp [step, stepFrame, hmark] at h
        | template => simp [step, stepFrame] at h
        | hole braces => simp [step, stepFrame] at h
    | lineComment => simp [step] at h
    | blockComment => simp [step] at h

/-- The cells of a semicolon and a line feed in code. -/
def boundary : List Cell := [⟨';', false⟩, ⟨'\n', false⟩]

/-- Where the masked texts stand next to each other, so do the cells. -/
theorem mask_boundary {source appended : String}
    (h : maskedText (source ++ ";\n" ++ appended) =
      maskedText source ++ ";\n" ++ maskedText appended) :
    mask (source ++ ";\n" ++ appended).toList =
      mask source.toList ++ (boundary ++ mask appended.toList) := by
  have htext : (source ++ ";\n" ++ appended).toList =
      source.toList ++ ';' :: '\n' :: appended.toList := by simp
  obtain ⟨next, hnext⟩ := maskFrom_semicolon (.at .code) source.toList
  have hblanked : (maskFrom next (';' :: '\n' :: appended.toList)).flatMap Cell.blanked =
      ';' :: '\n' :: (mask appended.toList).flatMap Cell.blanked := by
    have hlist := congrArg String.toList h
    simp only [maskedText, htext, mask, hnext, String.toList_ofList, String.toList_append,
      List.flatMap_append, List.append_assoc] at hlist
    exact List.append_cancel_left hlist
  rw [htext, mask, hnext]
  refine congrArg (mask source.toList ++ ·) ?_
  cases hstep : step next ';' (some '\n') with
  | mk hidden past =>
    rw [maskFrom_cons hstep] at hblanked ⊢
    cases hidden with
    | true => simp [Cell.blanked, Char.utf8Size] at hblanked
    | false =>
      obtain rfl := step_semicolon hstep
      rfl

/-! ## Seen text -/

theorem shown_eq_or_isBlank (cell : Cell) :
    cell.blanked = [cell.shown] ∨ cell.shown = ' ' ∧ ∀ c ∈ cell.blanked, c = ' ' := by
  rw [Cell.blanked, Cell.shown]
  split_ifs
  · exact .inr ⟨rfl, fun c hc => List.eq_of_mem_replicate hc⟩
  · exact .inl rfl

theorem brackets_shown (cells : List Cell) :
    (cells.map Cell.shown).filter isBracket = (cells.flatMap Cell.blanked).filter isBracket := by
  induction cells with
  | nil => rfl
  | cons cell cells ih =>
    rw [List.map_cons, List.flatMap_cons, List.filter_append, ← ih]
    rcases shown_eq_or_isBlank cell with hcell | ⟨hshown, hblank⟩
    · rw [hcell, ← List.filter_append, List.singleton_append]
    · have hnone : cell.blanked.filter isBracket = [] :=
        List.filter_eq_nil_iff.mpr fun c hc => by rw [hblank c hc]; decide
      rw [hnone, hshown]
      rfl

theorem matched_shown {source : String} (h : Matched (maskedText source).toList) :
    Matched (shownText source) := by
  apply Matched.of_brackets
  rw [shownText, brackets_shown]
  rw [maskedText, String.toList_ofList] at h
  exact h.brackets

theorem trimStart_shown (cells : List Cell) :
    (Text.trimStart (cells.map Cell.shown)).head? =
      (Text.trimStart (cells.flatMap Cell.blanked)).head? := by
  induction cells with
  | nil => rfl
  | cons cell cells ih =>
    rw [List.map_cons, List.flatMap_cons]
    rcases shown_eq_or_isBlank cell with hcell | ⟨hshown, hblank⟩
    · rw [hcell, List.singleton_append, Text.trimStart, Text.trimStart, List.dropWhile_cons,
        List.dropWhile_cons]
      split
      · exact ih
      · rfl
    · have hblanks : Blanks cell.blanked := fun c hc => by rw [hblank c hc]; decide
      have hspace : Blanks [cell.shown] := fun c hc => by
        rw [List.mem_singleton.mp hc, hshown]
        decide
      rw [trimStart_blanks hblanks, ← List.singleton_append, trimStart_blanks hspace, ih]

/-! ## Patterns -/

variable {α β : Type} {view : α → Char}

section Marks

variable {c : α} (hc : view c = ';') (text rest : List α)

include hc

theorem dropMark?_semicolon {mark : List Char} (hmark : ';' ∉ mark) :
    dropMark? view mark (text ++ c :: rest) = (dropMark? view mark text).map (· ++ c :: rest) := by
  induction mark generalizing text with
  | nil => rfl
  | cons m mark ih =>
    rw [List.mem_cons, not_or] at hmark
    cases text with
    | nil => rw [List.nil_append, dropMark?, dropMark?, hc, if_neg hmark.1]; rfl
    | cons d text =>
      rw [List.cons_append, dropMark?, dropMark?, ih text hmark.2]
      split
      · rfl
      · rfl

theorem dropAny?_semicolon {marks : List (String × β)} (hmarks : ∀ m ∈ marks, ';' ∉ m.1.toList) :
    dropAny? view (text ++ c :: rest) marks =
      (dropAny? view text marks).map (Prod.map id (· ++ c :: rest)) := by
  induction marks with
  | nil => rfl
  | cons entry marks ih =>
    obtain ⟨hmark, hmarks⟩ := List.forall_mem_cons.mp hmarks
    rw [dropAny?, dropAny?, dropMark?_semicolon hc text rest hmark]
    cases dropMark? view entry.1.toList text with
    | none => exact ih hmarks
    | some past => rfl

theorem skipBlanks_semicolon :
    skipBlanks view (text ++ c :: rest) = skipBlanks view text ++ c :: rest := by
  have hsolid : Text.isBlank (view c) = false := by rw [hc]; decide
  rw [skipBlanks, List.dropWhile_append, List.dropWhile_cons, hsolid]
  split
  next hnone => rw [skipBlanks, List.isEmpty_iff.mp hnone]; rfl
  next => rfl

end Marks

theorem dropMark?_start {mark : List Char} {text rest : List α}
    (h : dropMark? view mark text = some rest) :
    ∃ start, start.map view = mark ∧ text = start ++ rest := by
  induction mark generalizing text with
  | nil => exact ⟨[], rfl, Option.some.inj h⟩
  | cons m mark ih =>
    cases text with
    | nil => cases h
    | cons c text =>
      rw [dropMark?] at h
      split at h
      next hc =>
        obtain ⟨start, hstart, htext⟩ := ih h
        exact ⟨c :: start, by rw [List.map_cons, hc, hstart], congrArg (c :: ·) htext⟩
      next => cases h

theorem dropMark?_isSuffix {mark : List Char} {text rest : List α}
    (h : dropMark? view mark text = some rest) : rest <:+ text := by
  obtain ⟨start, -, rfl⟩ := dropMark?_start h
  exact List.suffix_append start rest

theorem skipBlanks_start (view : α → Char) (text : List α) :
    ∃ blanks, Blanks (blanks.map view) ∧ text = blanks ++ skipBlanks view text := by
  refine ⟨text.takeWhile fun c => Text.isBlank (view c), fun c hc => ?_,
    List.takeWhile_append_dropWhile.symm⟩
  obtain ⟨a, ha, rfl⟩ := List.mem_map.mp hc
  exact List.mem_takeWhile_imp (p := fun c => Text.isBlank (view c)) ha

theorem dropMark?_map (start rest : List α) :
    dropMark? view (start.map view) (start ++ rest) = some rest := by
  induction start with
  | nil => rfl
  | cons c start ih => rw [List.map_cons, List.cons_append, dropMark?, if_pos rfl, ih]

/-- Of marks none of which starts with another one, the one at the start of a text is found. -/
theorem dropAny?_eq_some {marks : List (String × β)}
    (hapart : ∀ m ∈ marks, ∀ m' ∈ marks, m.1.toList <+: m'.1.toList → m = m')
    {text rest : List α} {value : β} : dropAny? view text marks = some (value, rest) ↔
      ∃ mark start, (mark, value) ∈ marks ∧ start.map view = mark.toList ∧
        text = start ++ rest := by
  induction marks with
  | nil => simp [dropAny?]
  | cons entry marks ih =>
    have hmarks := ih fun m hm m' hm' =>
      hapart m (List.mem_cons_of_mem _ hm) m' (List.mem_cons_of_mem _ hm')
    rw [dropAny?]
    cases hdrop : dropMark? view entry.1.toList text with
    | some past =>
      obtain ⟨start, hstart, rfl⟩ := dropMark?_start hdrop
      constructor
      · intro h
        obtain ⟨rfl, rfl⟩ := Prod.mk.inj (Option.some.inj h)
        exact ⟨entry.1, start, List.mem_cons_self, hstart, rfl⟩
      · rintro ⟨mark, start', hmem, hstart', htext⟩
        -- Of two marks at the start of one text, one starts with the other.
        have hentry : entry = (mark, value) := by
          rcases List.prefix_or_prefix_of_prefix ⟨past, rfl⟩ ⟨rest, htext.symm⟩ with h | h
          · refine hapart _ List.mem_cons_self _ hmem ?_
            rw [← hstart, ← hstart']
            exact h.map view
          · refine (hapart _ hmem _ List.mem_cons_self ?_).symm
            rw [← hstart, ← hstart']
            exact h.map view
        subst hentry
        rw [← hstart', htext, dropMark?_map] at hdrop
        rw [Option.some.inj hdrop]
    | none =>
      have hne : ∀ mark start, start.map view = mark.toList → text = start ++ rest →
          (mark, value) ≠ entry := by
        rintro mark start hstart rfl rfl
        rw [← hstart, dropMark?_map] at hdrop
        cases hdrop
      refine hmarks.trans (exists_congr fun mark => exists_congr fun start => ?_)
      constructor
      · rintro ⟨hmem, hstart, htext⟩
        exact ⟨List.mem_cons_of_mem _ hmem, hstart, htext⟩
      · rintro ⟨hmem, hstart, htext⟩
        exact ⟨(List.mem_cons.mp hmem).resolve_left (hne mark start hstart htext), hstart, htext⟩

/-- Blanks are passed over up to a character that is none. -/
theorem skipBlanks_eq {blanks rest : List α} (hblanks : Blanks (blanks.map view))
    (hrest : ∀ c ∈ rest.head?, Text.isBlank (view c) = false) :
    skipBlanks view (blanks ++ rest) = rest := by
  rw [skipBlanks, List.dropWhile_append_of_pos fun c hc => hblanks _ (List.mem_map_of_mem hc)]
  cases rest with
  | nil => rfl
  | cons c rest => rw [List.dropWhile_cons, hrest c rfl]; rfl

/-- No mark starts with a character that it does not have. -/
theorem dropMark?_none {mark : List Char} (hmark : mark ≠ []) {c : α} (hc : view c ∉ mark)
    (rest : List α) : dropMark? view mark (c :: rest) = none := by
  cases mark with
  | nil => exact absurd rfl hmark
  | cons m mark => rw [dropMark?, if_neg (List.ne_of_not_mem_cons hc)]

theorem dropAny?_none {marks : List (String × β)} {c : α}
    (hmarks : ∀ m ∈ marks, m.1.toList ≠ [] ∧ view c ∉ m.1.toList) (rest : List α) :
    dropAny? view (c :: rest) marks = none := by
  induction marks with
  | nil => rfl
  | cons entry marks ih =>
    obtain ⟨⟨hne, hmem⟩, hmarks⟩ := List.forall_mem_cons.mp hmarks
    rw [dropAny?, dropMark?_none hne hmem]
    exact ih hmarks

/-! ## Occurrences -/

/-- A pattern that reads no semicolon past the ends of `text`; `extend` puts what follows to what it
finds. It needs no more of the element before it than that no word reaches from there. -/
structure Local (view : α → Char) (text : List α) (extend : List α → β → β)
    (find? : Option α → List α → Option (β × Nat)) : Prop where
  length_le : ∀ last part found n, find? last part = some (found, n) → n ≤ part.length
  semicolon : ∀ last part c rest, part <:+ text → view c = ';' →
    find? last (part ++ c :: rest) = (find? last part).map (Prod.map (extend (c :: rest)) id)
  boundary : ∀ last c rest, view c = ';' ∨ view c = '\n' → find? last (c :: rest) = none
  start : ∀ last part, outsideWord view last → find? last part = find? none part

namespace Local

variable {text : List α} {extend : List α → β → β} {find? : Option α → List α → Option (β × Nat)}
  (h : Local view text extend find?)

include h

theorem scanFrom_semicolon {part : List α} (hpart : part <:+ text) {c : α} (hc : view c = ';')
    (rest : List α) (last : Option α) {skip : Nat} (hskip : skip ≤ part.length) :
    ∃ last', scanFrom find? last skip (part ++ c :: rest) =
      (scanFrom find? last skip part).map (extend (c :: rest)) ++
        scanFrom find? last' 0 (c :: rest) := by
  induction part generalizing last skip with
  | nil =>
    obtain rfl : skip = 0 := Nat.le_zero.mp hskip
    exact ⟨last, rfl⟩
  | cons d part ih =>
    have hsuffix : part <:+ text := (List.suffix_cons d part).trans hpart
    cases skip with
    | succ skip =>
      obtain ⟨last', hscan⟩ := ih hsuffix (some d) (Nat.le_of_succ_le_succ hskip)
      exact ⟨last', by rw [List.cons_append, scanFrom, scanFrom, hscan]⟩
    | zero =>
      have hfind := h.semicolon last (d :: part) c rest hpart hc
      rw [List.cons_append] at hfind
      cases hhere : find? last (d :: part) with
      | none =>
        rw [hhere] at hfind
        obtain ⟨last', hscan⟩ := ih hsuffix (some d) (Nat.zero_le _)
        refine ⟨last', ?_⟩
        rw [List.cons_append, scanFrom, scanFrom, hfind, hhere]
        exact hscan
      | some found =>
        obtain ⟨found, n⟩ := found
        rw [hhere] at hfind
        -- What is found ends in `part`, and so does what is passed over.
        have hlength := h.length_le last (d :: part) found n hhere
        rw [List.length_cons] at hlength
        have hn : n - 1 ≤ part.length := by omega
        obtain ⟨last', hscan⟩ := ih hsuffix (some d) hn
        refine ⟨last', ?_⟩
        rw [List.cons_append, scanFrom, scanFrom, hfind, hhere]
        exact congrArg (extend (c :: rest) found :: ·) hscan

/-- The element before a text matters no more than that no word reaches from there. -/
theorem scanFrom_start {last : Option α} (hlast : outsideWord view last) (part : List α) :
    scanFrom find? last 0 part = scan find? part := by
  cases part with
  | nil => rfl
  | cons c part => rw [scan, scanFrom, scanFrom, h.start last _ hlast]

/-- **Boundaries.** Around a semicolon and a line feed, the pattern occurs as on each side alone. -/
theorem scan_boundary {c d : α} (hc : view c = ';') (hd : view d = '\n') (rest : List α) :
    scan find? (text ++ c :: d :: rest) =
      (scan find? text).map (extend (c :: d :: rest)) ++ scan find? rest := by
  obtain ⟨last, hscan⟩ := h.scanFrom_semicolon (List.suffix_refl text) hc (d :: rest) none
    (Nat.zero_le _)
  have houtside : outsideWord view (some d) := by rw [outsideWord, hd]; decide
  rw [scan, hscan, scanFrom, h.boundary _ _ _ (.inl hc), scanFrom, h.boundary _ _ _ (.inr hd),
    h.scanFrom_start houtside]
  rfl

end Local

/-- What is found is found at some place of the text. -/
theorem exists_of_mem_scanFrom {find? : Option α → List α → Option (β × Nat)} {found : β}
    {last : Option α} {skip : Nat} {text : List α} (h : found ∈ scanFrom find? last skip text) :
    ∃ last' part n, part <:+ text ∧ find? last' part = some (found, n) := by
  induction text generalizing last skip with
  | nil => simp [scanFrom] at h
  | cons c text ih =>
    have hlater {last : Option α} {skip : Nat} (hmem : found ∈ scanFrom find? last skip text) :
        ∃ last' part n, part <:+ c :: text ∧ find? last' part = some (found, n) := by
      obtain ⟨last', part, n, hpart, hfind⟩ := ih hmem
      exact ⟨last', part, n, hpart.trans (List.suffix_cons c text), hfind⟩
    cases skip with
    | succ skip => exact hlater (by rwa [scanFrom] at h)
    | zero =>
      rw [scanFrom] at h
      split at h
      next here n hfind =>
        rcases List.mem_cons.mp h with rfl | h
        · exact ⟨last, c :: text, n, List.suffix_refl _, hfind⟩
        · exact hlater h
      next => exact hlater h

end ClientBindings.Source
