import ClientBindings.Proofs.Text.ByteOrder
import ClientBindings.Proofs.Source.Masking

/-!
# Masked bytes

Masking looks for ASCII characters alone, so it may go through a source byte by byte. What is
blanked are whole characters all the same, for any text, well-formed or not.

* `maskBytes`: masking by bytes. An escape passes over one byte, which may be the first one of a
  longer character.
* `Fits`: the states that go with a text. Steps keep to them, and none of them shows a part of a
  character.
* `maskBytesFrom_utf8`: of the bytes of a text, masking makes the bytes of the masked text.
* `Blanked`, `maskedText_bytes`: the masked bytes are a text; it has the offsets, line feeds and
  delimiters of the source, and no comment starts in it.
-/

namespace ClientBindings.Source

open Text (utf8Bytes utf8Bytes_eq)

/-! ## Bytes -/

/-- A byte as the character of its number. -/
def byteChar (b : UInt8) : Char := Char.ofNat b.toNat

/-- The byte of a character with a number below 256. -/
def charByte (c : Char) : UInt8 := UInt8.ofNat c.toNat

/-- `maskBytes` in the given state. -/
def maskBytesFrom (state : Lexing) (bytes : List UInt8) : List UInt8 :=
  (maskFrom state (bytes.map byteChar)).map fun cell => charByte cell.shown

/-- Masking byte by byte: a hidden byte becomes a blank, unless it is a line feed. -/
def maskBytes (bytes : List UInt8) : List UInt8 := maskBytesFrom (.at .code) bytes

theorem toNat_byteChar (b : UInt8) : (byteChar b).toNat = b.toNat := by
  have hvalid : b.toNat.isValidChar := .inl (Nat.lt_trans b.toNat_lt (by decide))
  rw [byteChar, Char.ofNat, dif_pos hvalid]
  rfl

theorem charByte_byteChar (b : UInt8) : charByte (byteChar b) = b := by
  rw [charByte, toNat_byteChar, UInt8.ofNat_toNat]

theorem byteChar_charByte {c : Char} (h : c.toNat < 128) : byteChar (charByte c) = c := by
  rw [byteChar, charByte, UInt8.toNat_ofNat', Nat.mod_eq_of_lt (by omega), Char.ofNat_toNat]

theorem utf8EncodeChar_ascii {c : Char} (h : c.toNat < 128) :
    String.utf8EncodeChar c = [charByte c] := by
  have hle : c.val.toNat ≤ 127 := Nat.le_of_lt_succ h
  rw [String.utf8EncodeChar.eq_1, if_pos hle]
  rfl

/-- The bytes of a character beyond ASCII are none of ASCII. -/
theorem utf8EncodeChar_high {c : Char} (h : ¬ c.toNat < 128) :
    ∀ b ∈ String.utf8EncodeChar c, ¬ (byteChar b).toNat < 128 := by
  have hle : ¬ c.val.toNat ≤ 127 := fun hle => h (Nat.lt_succ_of_le hle)
  rw [String.utf8EncodeChar.eq_1, if_neg hle]
  intro b hb
  rw [toNat_byteChar]
  split_ifs at hb
  all_goals
    simp only [List.mem_cons, List.not_mem_nil, or_false] at hb
    rcases hb with rfl | rfl | rfl | rfl
  all_goals
    rw [UInt8.toNat_ofNat']
    omega

theorem utf8Size_ascii {c : Char} (h : c.toNat < 128) : c.utf8Size = 1 := by
  rw [← String.length_utf8EncodeChar, utf8EncodeChar_ascii h, List.length_singleton]

theorem ne_of_high {c d : Char} (h : ¬ c.toNat < 128) (hd : d.toNat < 128) : c ≠ d := by
  rintro rfl
  exact h hd

/-- The bytes of a text, each as a character. -/
def byteChars (text : List Char) : List Char := (text.flatMap String.utf8EncodeChar).map byteChar

theorem byteChars_cons (c : Char) (rest : List Char) :
    byteChars (c :: rest) = (String.utf8EncodeChar c).map byteChar ++ byteChars rest := by
  rw [byteChars, List.flatMap_cons, List.map_append]
  rfl

/-- An ASCII character comes first among the bytes exactly if it does in the text. -/
theorem head?_byteChars {d : Char} (hd : d.toNat < 128) (text : List Char) :
    (byteChars text).head? = some d ↔ text.head? = some d := by
  cases text with
  | nil => rfl
  | cons c rest =>
    rw [byteChars_cons]
    by_cases hc : c.toNat < 128
    · rw [utf8EncodeChar_ascii hc, List.map_singleton, byteChar_charByte hc]
      rfl
    · have hhigh := utf8EncodeChar_high hc
      cases hbytes : String.utf8EncodeChar c with
      | nil => exact absurd hbytes String.utf8EncodeChar_ne_nil
      | cons b bytes =>
        rw [hbytes] at hhigh
        have hb := ne_of_high (hhigh b List.mem_cons_self) hd
        simp [hb, ne_of_high hc hd]

/-! ## States of a text -/

/-- The frame of a literal that there is. -/
def Frame.IsProper : Frame → Prop
  | quote mark => mark = '"' ∨ mark = '\''
  | template => True
  | hole _ => True

/-- A region between the frames of literals that there are. -/
def Region.IsProper : Region → Prop
  | nested frames => ∀ frame ∈ frames, frame.IsProper
  | lineComment => True
  | blockComment => True

/-- A state, with the text from there on. Code follows on the second character of no mark but that
of the end of a comment. -/
inductive Fits : Lexing → List Char → Prop
  | region {region : Region} {text : List Char} : region.IsProper → Fits (.at region) text
  | mark {region : Region} {text : List Char} : region.IsProper →
      (region = .code → text.head? = some '/') → Fits (.within region) text

theorem isProper_code : Region.code.IsProper := by simp [Region.code, Region.IsProper]

theorem ne_code (frame : Frame) (outer : List Frame) : Region.nested (frame :: outer) ≠ .code := by
  simp [Region.code]

/-- The second character of a mark in a frame is any. -/
theorem fits_within_frame {frame : Frame} {outer : List Frame}
    (h : (Region.nested (frame :: outer)).IsProper) (text : List Char) :
    Fits (.within (.nested (frame :: outer))) text :=
  .mark h fun hcode => absurd hcode (ne_code frame outer)

theorem stepCode_fits (c : Char) (rest : List Char) : Fits (stepCode c rest.head?).2 rest := by
  simp only [stepCode]
  split_ifs with hline hblock hquote htemplate
  · exact .mark trivial fun h => absurd h (by decide)
  · exact .mark trivial fun h => absurd h (by decide)
  · exact .region (by simpa [Region.IsProper, Frame.IsProper] using hquote)
  · exact .region (by simp [Region.IsProper, Frame.IsProper])
  · exact .region isProper_code

theorem stepFrame_fits {frame : Frame} {outer : List Frame}
    (h : (Region.nested (frame :: outer)).IsProper) (c : Char) (rest : List Char) :
    Fits (stepFrame frame outer c rest.head?).2 rest := by
  have hframe : frame.IsProper := h frame List.mem_cons_self
  have houter : ∀ frame ∈ outer, frame.IsProper := fun frame hmem =>
    h frame (List.mem_cons_of_mem _ hmem)
  cases frame with
  | quote mark =>
    simp only [stepFrame]
    split_ifs
    · exact fits_within_frame h rest
    · exact .region houter
    · exact .region houter
    · exact .region h
  | template =>
    simp only [stepFrame]
    split_ifs
    · exact fits_within_frame h rest
    · exact .region houter
    · exact fits_within_frame (by simpa [Region.IsProper, Frame.IsProper] using houter) rest
    · exact .region h
  | hole braces =>
    have hhole (n : Nat) : (Region.nested (.hole n :: outer)).IsProper := by
      simpa [Region.IsProper, Frame.IsProper] using houter
    simp only [stepFrame]
    split_ifs with hopen hclose hquote htemplate
    · exact .region (hhole _)
    · cases braces with
      | zero => exact .region houter
      | succ braces => exact .region (hhole _)
    · refine .region fun frame hmem => ?_
      rcases List.mem_cons.mp hmem with rfl | hmem
      · exact hquote
      · exact h frame hmem
    · refine .region fun frame hmem => ?_
      rcases List.mem_cons.mp hmem with rfl | hmem
      · trivial
      · exact h frame hmem
    · exact .region h

/-- Past a character, the state fits the rest of the text. -/
theorem Fits.step {state : Lexing} {c : Char} {rest : List Char} (h : Fits state (c :: rest)) :
    Fits (Source.step state c rest.head?).2 rest := by
  cases h with
  | mark hregion _ => exact .region hregion
  | @region region _ hregion =>
    cases region with
    | nested frames =>
      cases frames with
      | nil => exact stepCode_fits c rest
      | cons frame outer => exact stepFrame_fits hregion c rest
    | lineComment =>
      rw [Source.step]
      split_ifs
      · exact .region isProper_code
      · exact .region hregion
    | blockComment =>
      rw [Source.step]
      split_ifs with hclose
      · exact .mark isProper_code fun _ => hclose.2
      · exact .region hregion

/-! ## Characters beyond ASCII -/

theorem ascii_of_marks : ∀ d ∈ ['/', '*', '{'], d.toNat < 128 := by simp

/-- Nothing reacts to a character beyond ASCII: it is hidden outside code, and the region stays. -/
theorem step_high {region : Region} (h : region.IsProper) {c : Char} (hc : ¬ c.toNat < 128)
    (next : Option Char) : step (.at region) c next = (decide (region ≠ .code), .at region) := by
  have hne {d : Char} (hd : d.toNat < 128) : c ≠ d := ne_of_high hc hd
  cases region with
  | nested frames =>
    cases frames with
    | nil =>
      simp [step, stepCode, Region.code, hne (d := '/') (by decide), hne (d := '"') (by decide),
        hne (d := '\'') (by decide), hne (d := '`') (by decide)]
    | cons frame outer =>
      rw [decide_eq_true (ne_code frame outer)]
      cases frame with
      | quote mark =>
        have hmark : c ≠ mark := by
          rcases h _ List.mem_cons_self with rfl | rfl
          · exact hne (by decide)
          · exact hne (by decide)
        simp [step, stepFrame, hmark, hne (d := '\\') (by decide), hne (d := '\n') (by decide)]
      | template =>
        simp [step, stepFrame, hne (d := '\\') (by decide), hne (d := '`') (by decide),
          hne (d := '$') (by decide)]
      | hole braces =>
        have hquote : c ≠ '"' ∧ c ≠ '\'' ∧ c ≠ '`' :=
          ⟨hne (by decide), hne (by decide), hne (by decide)⟩
        exact stepFrame_hole hquote (hne (by decide)) (hne (by decide)) braces outer next
  | lineComment => simp [step, Region.code, hne (d := '\n') (by decide)]
  | blockComment => simp [step, Region.code, hne (d := '*') (by decide)]

/-- A run of them in a region. -/
theorem maskFrom_high {region : Region} (h : region.IsProper) {text : List Char}
    (htext : ∀ c ∈ text, ¬ c.toNat < 128) (rest : List Char) :
    maskFrom (.at region) (text ++ rest) =
      text.map (⟨·, decide (region ≠ .code)⟩) ++ maskFrom (.at region) rest := by
  induction text with
  | nil => rfl
  | cons c text ih =>
    have hc := htext c List.mem_cons_self
    rw [List.cons_append, maskFrom_cons (step_high h hc _),
      ih fun c hmem => htext c (List.mem_cons_of_mem _ hmem)]
    rfl

/-- A run of them where a text goes on: it is hidden as a whole or shown as a whole. -/
theorem Fits.maskFrom_high {state : Lexing} {c : Char} {rest : List Char}
    (h : Fits state (c :: rest)) (hc : ¬ c.toNat < 128) :
    ∃ (hidden : Bool) (next : Lexing), Fits next rest ∧
      ∀ text : List Char, text ≠ [] → (∀ c ∈ text, ¬ c.toNat < 128) → ∀ rest : List Char,
        maskFrom state (text ++ rest) = text.map (⟨·, hidden⟩) ++ maskFrom next rest := by
  cases h with
  | @region region _ hregion =>
    exact ⟨_, _, .region hregion, fun text _ htext rest => Source.maskFrom_high hregion htext rest⟩
  | @mark region _ hregion hcode =>
    -- Of the marks only the end of a comment leads to code, and its slash is ASCII.
    have hne : region ≠ .code := fun heq =>
      ne_of_high (d := '/') hc (by decide) (Option.some.inj (hcode heq))
    refine ⟨true, _, .region hregion, fun text hnil htext rest => ?_⟩
    cases text with
    | nil => exact absurd rfl hnil
    | cons d text =>
      have hrest : ∀ c ∈ text, ¬ c.toNat < 128 := fun c hmem =>
        htext c (List.mem_cons_of_mem _ hmem)
      rw [List.cons_append, maskFrom_within, Source.maskFrom_high hregion hrest,
        decide_eq_true hne]
      rfl

/-! ## Masking by bytes -/

/-- The bytes of a masked text. -/
def blankedBytes (cells : List Cell) : List UInt8 :=
  (cells.flatMap Cell.blanked).flatMap String.utf8EncodeChar

theorem blanked_ascii {c : Char} (h : c.toNat < 128) (hidden : Bool) :
    Cell.blanked ⟨c, hidden⟩ = [Cell.shown ⟨c, hidden⟩] := by
  rw [Cell.blanked, Cell.shown, utf8Size_ascii h]
  split_ifs <;> rfl

theorem shown_ascii {c : Char} (h : c.toNat < 128) (hidden : Bool) :
    (Cell.shown ⟨c, hidden⟩).toNat < 128 := by
  rw [Cell.shown]
  split_ifs
  · decide
  · exact h

theorem blankedBytes_cons (cell : Cell) (cells : List Cell) : blankedBytes (cell :: cells) =
    cell.blanked.flatMap String.utf8EncodeChar ++ blankedBytes cells := by
  rw [blankedBytes, List.flatMap_cons, List.flatMap_append]
  rfl

theorem flatMap_blanked_ascii {c : Char} (h : c.toNat < 128) (hidden : Bool) :
    (Cell.blanked ⟨c, hidden⟩).flatMap String.utf8EncodeChar =
      [charByte (Cell.shown ⟨c, hidden⟩)] := by
  rw [blanked_ascii h, List.flatMap_singleton, utf8EncodeChar_ascii (shown_ascii h hidden)]

/-- Of the bytes of a character beyond ASCII, blanking makes as many blanks. -/
theorem flatMap_blanked_high {c : Char} (h : ¬ c.toNat < 128) (hidden : Bool) :
    (Cell.blanked ⟨c, hidden⟩).flatMap String.utf8EncodeChar =
      (String.utf8EncodeChar c).map fun b => charByte (Cell.shown ⟨byteChar b, hidden⟩) := by
  cases hidden with
  | false =>
    have hshown (b : UInt8) : charByte (Cell.shown ⟨byteChar b, false⟩) = b := by
      simp [Cell.shown, charByte_byteChar]
    simp [hshown, Cell.blanked]
  | true =>
    have hshown : ∀ b ∈ String.utf8EncodeChar c,
        charByte (Cell.shown ⟨byteChar b, true⟩) = charByte ' ' := fun b hb => by
      have hne : byteChar b ≠ '\n' := ne_of_high (utf8EncodeChar_high h b hb) (by decide)
      rw [Cell.shown, if_pos ⟨rfl, hne⟩]
    have hne : c ≠ '\n' := ne_of_high h (by decide)
    rw [List.map_congr_left hshown, List.map_const', String.length_utf8EncodeChar, Cell.blanked,
      if_pos ⟨rfl, hne⟩]
    generalize c.utf8Size = n
    induction n with
    | zero => rfl
    | succ n ih => rw [List.replicate_succ, List.replicate_succ, List.flatMap_cons, ih,
        utf8EncodeChar_ascii (by decide), List.singleton_append]

theorem maskBytesFrom_flatMap (state : Lexing) (text : List Char) :
    maskBytesFrom state (text.flatMap String.utf8EncodeChar) =
      (maskFrom state (byteChars text)).map fun cell => charByte cell.shown := rfl

/-- **Bytes.** Of the bytes of a text, masking makes the bytes of the masked text. -/
theorem maskBytesFrom_utf8 {state : Lexing} {text : List Char} (h : Fits state text) :
    maskBytesFrom state (text.flatMap String.utf8EncodeChar) =
      blankedBytes (maskFrom state text) := by
  induction text generalizing state with
  | nil => rfl
  | cons c rest ih =>
    by_cases hc : c.toNat < 128
    · have hhead : step state c (byteChars rest).head? = step state c rest.head? :=
        step_congr (fun d hd => head?_byteChars (ascii_of_marks d hd) rest) state c
      have hrest := ih h.step
      cases hstep : step state c rest.head? with
      | mk hidden next =>
        rw [hstep] at hhead hrest
        calc maskBytesFrom state ((c :: rest).flatMap String.utf8EncodeChar)
            = (maskFrom state (c :: byteChars rest)).map fun cell => charByte cell.shown := by
              rw [maskBytesFrom_flatMap, byteChars_cons, utf8EncodeChar_ascii hc,
                List.map_singleton, byteChar_charByte hc, List.singleton_append]
          _ = charByte (Cell.shown ⟨c, hidden⟩) ::
                maskBytesFrom next (rest.flatMap String.utf8EncodeChar) := by
              rw [maskFrom_cons hhead, List.map_cons, maskBytesFrom_flatMap]
          _ = blankedBytes (maskFrom state (c :: rest)) := by
              rw [hrest, maskFrom_cons hstep, blankedBytes_cons, flatMap_blanked_ascii hc,
                List.singleton_append]
    · -- No byte of the character is a mark: all of them are hidden, or none.
      obtain ⟨hidden, next, hfits, hrun⟩ := h.maskFrom_high hc
      have hnil : (String.utf8EncodeChar c).map byteChar ≠ [] := by simp
      have hbytes : ∀ d ∈ (String.utf8EncodeChar c).map byteChar, ¬ d.toNat < 128 := by
        simpa using utf8EncodeChar_high hc
      have hone : maskFrom state (c :: rest) = ⟨c, hidden⟩ :: maskFrom next rest :=
        hrun [c] (List.cons_ne_nil _ _) (by simpa using hc) rest
      calc maskBytesFrom state ((c :: rest).flatMap String.utf8EncodeChar)
          = (maskFrom state ((String.utf8EncodeChar c).map byteChar ++ byteChars rest)).map
              fun cell => charByte cell.shown := by
            rw [maskBytesFrom_flatMap, byteChars_cons]
        _ = ((String.utf8EncodeChar c).map fun b => charByte (Cell.shown ⟨byteChar b, hidden⟩)) ++
              maskBytesFrom next (rest.flatMap String.utf8EncodeChar) := by
            rw [hrun _ hnil hbytes, List.map_append, List.map_map, List.map_map,
              maskBytesFrom_flatMap]
            rfl
        _ = blankedBytes (maskFrom state (c :: rest)) := by
            rw [ih hfits, hone, blankedBytes_cons, flatMap_blanked_high hc]

/-! ## Offsets -/

theorem byteChar_eq_lineFeed_iff (b : UInt8) : byteChar b = '\n' ↔ b = charByte '\n' := by
  constructor
  · intro h
    rw [← h, charByte_byteChar]
  · rintro rfl
    exact byteChar_charByte (by decide)

/-- Masking leaves a byte as it is or blanks it, and blanks no line feed. -/
theorem getElem?_maskBytes (bytes : List UInt8) (i : Nat) :
    ∃ hidden : Bool, (maskBytes bytes)[i]? = bytes[i]?.map fun b =>
      if hidden ∧ b ≠ charByte '\n' then charByte ' ' else b := by
  have hchars : (maskFrom (.at .code) (bytes.map byteChar))[i]?.map Cell.char =
      bytes[i]?.map byteChar := by
    rw [← List.getElem?_map, map_char_maskFrom, List.getElem?_map]
  rw [maskBytes, maskBytesFrom, List.getElem?_map]
  cases hcell : (maskFrom (.at .code) (bytes.map byteChar))[i]? with
  | none =>
    rw [hcell] at hchars
    cases hbyte : bytes[i]? with
    | none => exact ⟨false, rfl⟩
    | some b => simp [hbyte] at hchars
  | some cell =>
    rw [hcell] at hchars
    cases hbyte : bytes[i]? with
    | none => simp [hbyte] at hchars
    | some b =>
      obtain ⟨c, hidden⟩ := cell
      obtain rfl : c = byteChar b := by simpa [hbyte] using hchars
      refine ⟨hidden, congrArg some ?_⟩
      simp only [Cell.shown, Ne, byteChar_eq_lineFeed_iff]
      split_ifs
      · rfl
      · exact charByte_byteChar b

theorem utf8ByteSize_blanked (cell : Cell) :
    (String.ofList cell.blanked).utf8ByteSize = cell.char.utf8Size := by
  rw [String.utf8ByteSize_ofList, Cell.blanked]
  split_ifs
  · generalize cell.char.utf8Size = n
    induction n with
    | zero => rfl
    | succ n ih => rw [List.replicate_succ, String.utf8Len_cons, ih]; rfl
  · simp

theorem utf8ByteSize_flatMap_blanked (cells : List Cell) :
    (String.ofList (cells.flatMap Cell.blanked)).utf8ByteSize =
      (String.ofList (cells.map Cell.char)).utf8ByteSize := by
  induction cells with
  | nil => rfl
  | cons cell cells ih =>
    have hcell := utf8ByteSize_blanked cell
    simp only [String.utf8ByteSize_ofList] at hcell ih ⊢
    rw [List.flatMap_cons, List.map_cons, String.utf8Len_append, String.utf8Len_cons, hcell, ih,
      Nat.add_comm]

/-- What is no blank in a masked text is the character of one cell. -/
theorem flatMap_blanked_eq_append {cells : List Cell} {before after : List Char} {c : Char}
    (h : cells.flatMap Cell.blanked = before ++ c :: after) (hc : c ≠ ' ') :
    ∃ cellsBefore hidden cellsAfter, cells = cellsBefore ++ ⟨c, hidden⟩ :: cellsAfter ∧
      before = cellsBefore.flatMap Cell.blanked := by
  induction cells generalizing before with
  | nil => simp at h
  | cons cell cells ih =>
    rw [List.flatMap_cons, List.append_eq_append_iff] at h
    rcases h with ⟨more, rfl, hrest⟩ | ⟨more, hcell, hrest⟩
    · obtain ⟨cellsBefore, hidden, cellsAfter, rfl, rfl⟩ := ih hrest
      exact ⟨cell :: cellsBefore, hidden, cellsAfter, rfl, rfl⟩
    · cases more with
      | nil =>
        have hnil : cells.flatMap Cell.blanked = [] ++ c :: after := hrest.symm
        obtain ⟨cellsBefore, hidden, cellsAfter, rfl, hbefore⟩ := ih hnil
        refine ⟨cell :: cellsBefore, hidden, cellsAfter, rfl, ?_⟩
        rw [List.flatMap_cons, ← hbefore, hcell, List.append_nil, List.append_nil]
      | cons d more =>
        obtain ⟨rfl, -⟩ := List.cons_eq_cons.mp hrest
        -- A cell is either its own character or blanks.
        rw [Cell.blanked] at hcell
        split_ifs at hcell
        · have hmem : c ∈ List.replicate cell.char.utf8Size ' ' := by simp [hcell]
          exact absurd (List.eq_of_mem_replicate hmem) hc
        · cases before with
          | nil =>
            obtain ⟨rfl, -⟩ := List.cons_eq_cons.mp hcell
            exact ⟨[], cell.hidden, cells, rfl, rfl⟩
          | cons d before => simp at hcell

/-! ## Comments -/

/-- A slash is shown in code alone, where no comment starts at it. -/
theorem Fits.not_comment {state next : Lexing} {rest : List Char} (h : Fits state ('/' :: rest))
    (hstep : Source.step state '/' rest.head? = (false, next)) :
    rest.head? ≠ some '/' ∧ rest.head? ≠ some '*' := by
  cases h with
  | mark => cases hstep
  | @region region _ hregion =>
    cases region with
    | nested frames =>
      cases frames with
      | nil =>
        constructor
        · intro hhead
          rw [hhead] at hstep
          cases hstep
        · intro hhead
          rw [hhead] at hstep
          cases hstep
      | cons frame outer =>
        cases frame with
        | quote mark =>
          have hmark : '/' ≠ mark := by
            rcases hregion _ List.mem_cons_self with rfl | rfl <;> decide
          simp [Source.step, stepFrame, hmark] at hstep
        | template => simp [Source.step, stepFrame] at hstep
        | hole braces => simp [Source.step, stepFrame] at hstep
    | lineComment => simp [Source.step] at hstep
    | blockComment => simp [Source.step] at hstep

/-- A character that is no blank comes first in a masked text as it does in the text. -/
theorem head?_flatMap_blanked {state : Lexing} {text : List Char} {d : Char} (hd : d ≠ ' ')
    (h : ((maskFrom state text).flatMap Cell.blanked).head? = some d) : text.head? = some d := by
  cases text with
  | nil => exact h
  | cons c rest =>
    cases hstep : step state c rest.head? with
    | mk hidden next =>
      rw [maskFrom_cons hstep, List.flatMap_cons, Cell.blanked] at h
      split_ifs at h
      · cases hsize : c.utf8Size with
        | zero => exact absurd hsize (Char.utf8Size_pos c).ne'
        | succ n =>
          rw [hsize] at h
          exact absurd (Option.some.inj h).symm hd
      · exact h

theorem not_infix_blanks {d : Char} {text : List Char} (h : ¬ ['/', d] <:+: text) (n : Nat) :
    ¬ ['/', d] <:+: List.replicate n ' ' ++ text := by
  induction n with
  | zero => exact h
  | succ n ih =>
    rw [List.replicate_succ, List.cons_append, List.infix_cons_iff, List.cons_prefix_cons]
    rintro (⟨hblank, -⟩ | hinfix)
    · exact absurd hblank (by decide)
    · exact ih hinfix

/-- **Comments.** None starts in a masked text. -/
theorem Fits.opens_no_comment {state : Lexing} {text : List Char} (h : Fits state text) {d : Char}
    (hd : d = '/' ∨ d = '*') : ¬ ['/', d] <:+: (maskFrom state text).flatMap Cell.blanked := by
  induction text generalizing state with
  | nil => simp [maskFrom]
  | cons c rest ih =>
    have hrest := ih h.step
    cases hstep : Source.step state c rest.head? with
    | mk hidden next =>
      rw [hstep] at hrest
      rw [maskFrom_cons hstep, List.flatMap_cons, Cell.blanked]
      split_ifs with hblank
      · exact not_infix_blanks hrest _
      · rw [List.singleton_append, List.infix_cons_iff, List.cons_prefix_cons]
        rintro (⟨rfl, hprefix⟩ | hinfix)
        · have hshown : hidden = false := by simpa using hblank
          subst hshown
          obtain ⟨more, hmore⟩ := hprefix
          have hblank : d ≠ ' ' := by rcases hd with rfl | rfl <;> decide
          have hhead : rest.head? = some d := head?_flatMap_blanked hblank (by rw [← hmore]; rfl)
          obtain ⟨hline, hblock⟩ := h.not_comment hstep
          rcases hd with rfl | rfl
          · exact hline hhead
          · exact hblock hhead
        · exact hrest hinfix

/-! ## Masked texts -/

/-- What two texts have in common where the second is the first one with some of its characters
blanked out. Offsets count bytes. -/
structure Blanked (source masked : String) : Prop where
  size : masked.utf8ByteSize = source.utf8ByteSize
  /-- Line feeds are at the same offsets. -/
  lineFeeds : ∀ i : Nat,
    (utf8Bytes masked)[i]? = some (charByte '\n') ↔ (utf8Bytes source)[i]? = some (charByte '\n')
  /-- Every other byte is that of the source, or a blank. -/
  bytes : ∀ (i : Nat) (b : UInt8), (utf8Bytes masked)[i]? = some b →
    (utf8Bytes source)[i]? = some b ∨ b = charByte ' '
  /-- Characters are blanked as a whole. -/
  characters : ∀ (before after : String) (c : Char),
    source = before ++ String.singleton c ++ after →
    ∃ before' block after', masked = before' ++ block ++ after' ∧
      before'.utf8ByteSize = before.utf8ByteSize ∧
      (block = String.singleton c ∨ block = String.ofList (List.replicate c.utf8Size ' '))
  /-- What is no blank stands in the source, at the same offset and between whole characters. -/
  delimiters : ∀ (before after : String) (c : Char),
    masked = before ++ String.singleton c ++ after → c ≠ ' ' →
    ∃ before' after', source = before' ++ String.singleton c ++ after' ∧
      before'.utf8ByteSize = before.utf8ByteSize
  noLineComment : ¬ ['/', '/'] <:+: masked.toList
  noBlockComment : ¬ ['/', '*'] <:+: masked.toList

theorem fits_code (text : List Char) : Fits (.at .code) text := .region isProper_code

theorem utf8Bytes_maskedText (source : String) :
    utf8Bytes (maskedText source) = maskBytes (utf8Bytes source) := by
  rw [utf8Bytes_eq, utf8Bytes_eq, maskedText, String.toList_ofList, maskBytes,
    maskBytesFrom_utf8 (fits_code _)]
  rfl

theorem maskedText_size (source : String) :
    (maskedText source).utf8ByteSize = source.utf8ByteSize := by
  rw [maskedText, utf8ByteSize_flatMap_blanked, map_char_mask, String.ofList_toList]

/-- A character of a source, with the block that masking makes of it. -/
theorem maskedText_characters {source before after : String} {c : Char}
    (h : source = before ++ String.singleton c ++ after) :
    ∃ before' block after', maskedText source = before' ++ block ++ after' ∧
      before'.utf8ByteSize = before.utf8ByteSize ∧
      (block = String.singleton c ∨ block = String.ofList (List.replicate c.utf8Size ' ')) := by
  have hchars : (mask source.toList).map Cell.char = before.toList ++ c :: after.toList := by
    rw [map_char_mask, h]
    simp
  obtain ⟨cells, more, hcells, hbefore, hmore⟩ := List.map_eq_append_iff.mp hchars
  obtain ⟨cell, rest, rfl, rfl, -⟩ := List.map_eq_cons_iff.mp hmore
  refine ⟨String.ofList (cells.flatMap Cell.blanked), String.ofList cell.blanked,
    String.ofList (rest.flatMap Cell.blanked), ?_, ?_, ?_⟩
  · rw [maskedText, hcells, List.flatMap_append, List.flatMap_cons, String.ofList_append,
      String.ofList_append, String.append_assoc]
  · rw [utf8ByteSize_flatMap_blanked, hbefore, String.ofList_toList]
  · rw [Cell.blanked]
    split_ifs
    · exact .inr rfl
    · exact .inl rfl

/-- A character of a masked text that is no blank, with its place in the source. -/
theorem maskedText_delimiters {source before after : String} {c : Char}
    (h : maskedText source = before ++ String.singleton c ++ after) (hc : c ≠ ' ') :
    ∃ before' after', source = before' ++ String.singleton c ++ after' ∧
      before'.utf8ByteSize = before.utf8ByteSize := by
  have hshown : (mask source.toList).flatMap Cell.blanked = before.toList ++ c :: after.toList := by
    have hlist := congrArg String.toList h
    simpa [maskedText] using hlist
  obtain ⟨cells, hidden, rest, hcells, hbefore⟩ := flatMap_blanked_eq_append hshown hc
  refine ⟨String.ofList (cells.map Cell.char), String.ofList (rest.map Cell.char), ?_, ?_⟩
  · rw [← String.ofList_toList (s := source), ← map_char_mask source.toList, hcells,
      List.map_append, List.map_cons, String.ofList_append, ← List.singleton_append,
      String.ofList_append, ← String.append_assoc]
    rfl
  · rw [← utf8ByteSize_flatMap_blanked, ← hbefore, String.ofList_toList]

theorem blanked_maskedText (source : String) : Blanked source (maskedText source) where
  size := maskedText_size source
  lineFeeds i := by
    obtain ⟨hidden, hbyte⟩ := getElem?_maskBytes (utf8Bytes source) i
    rw [utf8Bytes_maskedText, hbyte]
    cases (utf8Bytes source)[i]? with
    | none => rfl
    | some b =>
      rw [Option.map_some, Option.some_inj, Option.some_inj]
      split_ifs with hblank
      · exact iff_of_false (by decide) hblank.2
      · rfl
  bytes i b h := by
    obtain ⟨hidden, hbyte⟩ := getElem?_maskBytes (utf8Bytes source) i
    rw [utf8Bytes_maskedText, hbyte] at h
    obtain ⟨a, ha, rfl⟩ := Option.map_eq_some_iff.mp h
    split_ifs
    · exact .inr rfl
    · exact .inl ha
  characters _ _ _ := maskedText_characters
  delimiters _ _ _ := maskedText_delimiters
  noLineComment := by
    rw [maskedText, String.toList_ofList]
    exact (fits_code _).opens_no_comment (.inl rfl)
  noBlockComment := by
    rw [maskedText, String.toList_ofList]
    exact (fits_code _).opens_no_comment (.inr rfl)

/-- **Masked bytes.** Whatever the source, masking it byte by byte makes bytes of a text, and that
is the source with whole characters blanked out: no offset of a line feed or delimiter changes. -/
theorem maskedText_bytes (source : String) :
    String.fromUTF8? (maskBytes (utf8Bytes source)).toByteArray = some (maskedText source) ∧
      Blanked source (maskedText source) := by
  refine ⟨?_, blanked_maskedText source⟩
  have hbytes : (maskBytes (utf8Bytes source)).toByteArray = (maskedText source).toUTF8 := by
    apply ByteArray.ext
    rw [← utf8Bytes_maskedText, utf8Bytes, List.data_toByteArray]
  rw [hbytes]
  simp only [String.fromUTF8?, String.toUTF8_eq_toByteArray,
    dif_pos (maskedText source).isValidUTF8]
  rfl

/-- A quoted escape of a character of two bytes. -/
example : maskBytes [0x27, 0x5c, 0xc3, 0xa9, 0x27] = [0x27, 0x20, 0x20, 0x20, 0x27] := by decide

end ClientBindings.Source
