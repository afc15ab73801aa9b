import ClientBindings.Proofs.Source.Boundary
import ClientBindings.Proofs.Source.MaskedBytes
import ClientBindings.Source.FactoryCall

/-!
# Slices of a source

Offsets are found in the masked text, and slices are taken of the source at them.

* `Slices`: a source cut into slices, and the masked text cut at the same offsets. So the offsets
  are in range, and on character boundaries of both.
* `Slices.exists_cells`: such slices are those of runs of cells.
* `Alike`: texts that differ by the lengths of their blanks, as a masked text and the characters
  that scanning sees do (`alike_cells`). What is no blank splits both alike (`Alike.split`).
-/

namespace ClientBindings.Source

/-! ## Slices -/

/-- Slices that make up the source, each with the slice of the masked text between the same
offsets. -/
structure Slices (source : String) (slices : List (String × String)) : Prop where
  whole : String.join (slices.map Prod.fst) = source
  masked : String.join (slices.map Prod.snd) = maskedText source
  sizes : ∀ slice ∈ slices, slice.1.utf8ByteSize = slice.2.utf8ByteSize

/-- The text of some cells in the source and in the masked text. -/
def sliceOf (cells : List Cell) : String × String :=
  (sourceText cells, String.ofList (cells.flatMap Cell.blanked))

theorem sliceOf_source (cells : List Cell) : (sliceOf cells).1.toList = cells.map Cell.char :=
  String.toList_ofList

theorem sliceOf_masked (cells : List Cell) :
    (sliceOf cells).2.toList = cells.flatMap Cell.blanked := String.toList_ofList

theorem Slices.of_cells {source : String} {parts : List (List Cell)}
    (h : mask source.toList = parts.flatten) : Slices source (parts.map sliceOf) where
  whole := by
    rw [← String.toList_inj, String.toList_join, ← map_char_mask source.toList, h]
    simp [sliceOf, sourceText, List.flatMap_def, List.map_flatten, Function.comp_def]
  masked := by
    rw [← String.toList_inj, String.toList_join, maskedText, h, List.flatten_eq_flatMap,
      String.toList_ofList, List.flatMap_assoc]
    simp [sliceOf, List.flatMap_map]
  sizes := by
    intro slice hslice
    obtain ⟨cells, -, rfl⟩ := List.mem_map.mp hslice
    exact (utf8ByteSize_flatMap_blanked cells).symm

/-- Texts of one size at the start of the same text are the same. -/
theorem append_inj_of_size {a b c d : List Char} (h : a ++ b = c ++ d)
    (hsize : String.utf8Len a = String.utf8Len c) : a = c ∧ b = d := by
  rcases List.append_eq_append_iff.mp h with ⟨gap, rfl, rfl⟩ | ⟨gap, rfl, rfl⟩
  all_goals
    rw [String.utf8Len_append] at hsize
    obtain rfl : gap = [] := String.utf8Len_eq_zero.mp (by omega)
    simp

/-- Slices of both texts at the same offsets are those of runs of cells. -/
theorem exists_parts {cells : List Cell} {slices : List (String × String)}
    (hwhole : cells.map Cell.char = slices.flatMap (·.1.toList))
    (hmasked : cells.flatMap Cell.blanked = slices.flatMap (·.2.toList))
    (hsizes : ∀ slice ∈ slices, slice.1.utf8ByteSize = slice.2.utf8ByteSize) :
    ∃ parts : List (List Cell), cells = parts.flatten ∧ slices = parts.map sliceOf := by
  induction slices generalizing cells with
  | nil => exact ⟨[], List.map_eq_nil_iff.mp hwhole, rfl⟩
  | cons slice slices ih =>
    obtain ⟨hsize, hsizes⟩ := List.forall_mem_cons.mp hsizes
    rw [List.flatMap_cons] at hwhole hmasked
    obtain ⟨first, rest, rfl, hfirst, hrest⟩ := List.map_eq_append_iff.mp hwhole
    rw [List.flatMap_append] at hmasked
    have hlength : String.utf8Len (first.flatMap Cell.blanked) = String.utf8Len slice.2.toList := by
      have hcells := utf8ByteSize_flatMap_blanked first
      rw [hfirst, String.ofList_toList, hsize, String.utf8ByteSize_ofList] at hcells
      rw [hcells, ← String.utf8ByteSize_ofList, String.ofList_toList]
    obtain ⟨hblanked, hmasked⟩ := append_inj_of_size hmasked hlength
    obtain ⟨parts, rfl, rfl⟩ := ih hrest hmasked hsizes
    refine ⟨first :: parts, rfl, ?_⟩
    rw [List.map_cons, sliceOf, sourceText, hfirst, hblanked, String.ofList_toList,
      String.ofList_toList]

theorem Slices.exists_cells {source : String} {slices : List (String × String)}
    (h : Slices source slices) : ∃ parts : List (List Cell),
      mask source.toList = parts.flatten ∧ slices = parts.map sliceOf := by
  refine exists_parts ?_ ?_ h.sizes
  · have hwhole := congrArg String.toList h.whole
    rw [String.toList_join] at hwhole
    rw [map_char_mask, ← hwhole, List.flatMap_map]
  · have hmasked := congrArg String.toList h.masked
    rw [String.toList_join, maskedText, String.toList_ofList] at hmasked
    rw [← hmasked, List.flatMap_map]

/-! ## Blanks of other lengths -/

/-- Texts that differ by the lengths of their runs of blanks. -/
inductive Alike : List Char → List Char → Prop
  | nil : Alike [] []
  | char {c : Char} {text other : List Char} : Alike text other → Alike (c :: text) (c :: other)
  | blanks {m n : Nat} {text other : List Char} : Alike text other →
      Alike (List.replicate (m + 1) ' ' ++ text) (List.replicate (n + 1) ' ' ++ other)

/-- The characters that scanning sees have one blank for a hidden character of any size. -/
theorem alike_cells (cells : List Cell) :
    Alike (cells.map Cell.shown) (cells.flatMap Cell.blanked) := by
  induction cells with
  | nil => exact .nil
  | cons cell cells ih =>
    rw [List.map_cons, List.flatMap_cons, Cell.shown, Cell.blanked]
    split_ifs
    · obtain ⟨n, hn⟩ := Nat.exists_eq_add_one.mpr (Char.utf8Size_pos cell.char)
      rw [hn]
      exact .blanks (m := 0) ih
    · exact .char ih

namespace Alike

variable {text other : List Char}

theorem symm (h : Alike text other) : Alike other text := by
  induction h with
  | nil => exact .nil
  | char _ ih => exact .char ih
  | blanks _ ih => exact .blanks ih

/-- A character that is no blank splits both texts. -/
theorem split (h : Alike text other) {before after : List Char} {c : Char} (hc : c ≠ ' ')
    (htext : text = before ++ c :: after) : ∃ before' after', other = before' ++ c :: after' ∧
      Alike before before' ∧ Alike after after' := by
  induction h generalizing before with
  | nil => simp at htext
  | @char d text other h ih =>
    cases before with
    | nil =>
      obtain ⟨rfl, rfl⟩ := List.cons.inj htext
      exact ⟨[], other, rfl, .nil, h⟩
    | cons e before =>
      obtain ⟨rfl, hmore⟩ := List.cons.inj htext
      obtain ⟨before', after', rfl, hbefore, hafter⟩ := ih hmore
      exact ⟨d :: before', after', rfl, .char hbefore, hafter⟩
  | @blanks m n text other _ ih =>
    have hpast : ∃ past,
        before = List.replicate (m + 1) ' ' ++ past ∧ text = past ++ c :: after := by
      rcases List.append_eq_append_iff.mp htext with h | ⟨gap, hgap, hafter⟩
      · exact h
      · cases gap with
        | nil => exact ⟨[], by rw [hgap, List.append_nil, List.append_nil], hafter.symm⟩
        | cons d gap =>
          obtain ⟨rfl, -⟩ := List.cons.inj hafter
          have hmem : c ∈ List.replicate (m + 1) ' ' := by rw [hgap]; simp
          exact absurd (List.eq_of_mem_replicate hmem) hc
    obtain ⟨past, rfl, rfl⟩ := hpast
    obtain ⟨before', after', rfl, hbefore, hafter⟩ := ih rfl
    exact ⟨_, after', (List.append_assoc ..).symm, .blanks hbefore, hafter⟩

theorem nil_left (h : Alike [] other) : other = [] := by
  generalize htext : [] = text at h
  cases h with
  | nil => rfl
  | char => cases htext
  | blanks => cases htext

/-- A word at the start of one text is at the start of the other one. -/
theorem word {word : List Char} (hword : ∀ c ∈ word, Text.isWord c)
    (h : Alike (word ++ text) other) : ∃ rest, other = word ++ rest ∧ Alike text rest := by
  induction word generalizing other with
  | nil => exact ⟨other, rfl, h⟩
  | cons c word ih =>
    obtain ⟨hc, hword⟩ := List.forall_mem_cons.mp hword
    have hstart : c :: word ++ text = [] ++ c :: (word ++ text) := rfl
    obtain ⟨before, after, rfl, hbefore, hafter⟩ := h.split (ne_of_isWord hc (by decide)) hstart
    obtain rfl := hbefore.nil_left
    obtain ⟨rest, rfl, hrest⟩ := ih hword hafter
    exact ⟨rest, rfl, hrest⟩

/-- A word splits both texts. -/
theorem splitWord {before word after : List Char} (h : Alike (before ++ (word ++ after)) other)
    (hne : word ≠ []) (hword : ∀ c ∈ word, Text.isWord c) : ∃ before' after',
      other = before' ++ (word ++ after') ∧ Alike before before' ∧ Alike after after' := by
  cases word with
  | nil => exact absurd rfl hne
  | cons c word =>
    obtain ⟨hc, hword⟩ := List.forall_mem_cons.mp hword
    obtain ⟨before', past, rfl, hbefore, hpast⟩ := h.split (ne_of_isWord hc (by decide)) rfl
    obtain ⟨after', rfl, hafter⟩ := hpast.word hword
    exact ⟨before', after', rfl, hbefore, hafter⟩

theorem allBlanks (h : Alike text other) (htext : Blanks text) : Blanks other := by
  intro c hc
  by_cases hblank : c = ' '
  · rw [hblank]
    decide
  · obtain ⟨before, after, hother⟩ := List.append_of_mem hc
    obtain ⟨before', after', rfl, -, -⟩ := h.symm.split hblank hother
    exact htext c (by simp)

theorem count {c : Char} (hc : c ≠ ' ') (h : Alike text other) : text.count c = other.count c := by
  have hblanks (n : Nat) : (List.replicate n ' ').count c = 0 := by
    rw [List.count_replicate, if_neg (by simpa using Ne.symm hc)]
  induction h with
  | nil => rfl
  | char _ ih => rw [List.count_cons, List.count_cons, ih]
  | blanks _ ih => rw [List.count_append, List.count_append, hblanks, hblanks, ih]

/-- No word reaches out of one text if none reaches out of the other one. -/
theorem noWord (h : Alike text other) (htext : ∀ c ∈ text.getLast?, Text.isWord c = false) :
    ∀ c ∈ other.getLast?, Text.isWord c = false := by
  intro c hc
  by_cases hblank : c = ' '
  · rw [hblank]
    decide
  · obtain ⟨before, rfl⟩ := List.getLast?_eq_some_iff.mp hc
    obtain ⟨before', after', rfl, -, hafter⟩ := h.symm.split hblank rfl
    obtain rfl := hafter.nil_left
    exact htext c (by simp)

end Alike

end ClientBindings.Source
