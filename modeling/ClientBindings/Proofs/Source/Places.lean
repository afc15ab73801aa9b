import ClientBindings.Proofs.Source.Boundary
import Mathlib.Algebra.GroupWithZero.Nat

/-!
# Places of a pattern

A sweep from left to right passes over the text of each occurrence. Where no occurrence begins
inside of another one, it finds what a look at every single place finds.

* `placesFrom`: what stands at every place of a text, with the size of the text before it.
* `Apart`, `WordLed.apart`: no occurrence begins inside of another one. It is so with a pattern of a
  word and characters past it that are no part of a word.
* `Apart.map_snd_placesFrom`, `mem_placesFrom`, `pairwise_placesFrom`: the places give what the
  sweep finds, they are all places where something stands, and they come in order.
-/

namespace ClientBindings.Source

variable {α β : Type}

/-! ## Places -/

/-- What stands at the places of a text, each with the size of the text before it; `position` is the
size of what comes before the text, and `last` its last element. -/
def placesFrom (find? : Option α → List α → Option (β × Nat)) (size : α → Nat) :
    Nat → Option α → List α → List (Nat × β)
  | _, _, [] => []
  | position, last, c :: rest =>
    let later := placesFrom find? size (position + size c) (some c) rest
    match find? last (c :: rest) with
    | some (found, _) => (position, found) :: later
    | none => later

section Places

variable {find? : Option α → List α → Option (β × Nat)} {size : α → Nat}

theorem getLast?_cons_or (c : α) (before : List α) (last : Option α) :
    (c :: before).getLast?.or last = before.getLast?.or (some c) := by
  rw [List.getLast?_cons]
  cases before.getLast? with
  | none => rfl
  | some d => rfl

/-- A place of a text is its start or a place past its first element. -/
theorem exists_place {c : α} {text : List α} {P : List α → α → List α → Prop} :
    (∃ before d rest, c :: text = before ++ d :: rest ∧ P before d rest) ↔
      P [] c text ∨ ∃ before d rest, text = before ++ d :: rest ∧ P (c :: before) d rest := by
  constructor
  · rintro ⟨before, d, rest, htext, h⟩
    cases before with
    | nil =>
      obtain ⟨rfl, rfl⟩ := List.cons.inj htext
      exact .inl h
    | cons e before =>
      obtain ⟨rfl, rfl⟩ := List.cons.inj htext
      exact .inr ⟨before, d, rest, rfl, h⟩
  · rintro (h | ⟨before, d, rest, rfl, h⟩)
    · exact ⟨[], c, text, rfl, h⟩
    · exact ⟨c :: before, d, rest, rfl, h⟩

theorem mem_placesFrom {position : Nat} {last : Option α} {text : List α} {p : Nat} {found : β} :
    (p, found) ∈ placesFrom find? size position last text ↔
      ∃ before c rest, text = before ++ c :: rest ∧
        (∃ n, find? (before.getLast?.or last) (c :: rest) = some (found, n)) ∧
        p = position + (before.map size).sum := by
  induction text generalizing position last with
  | nil => simp [placesFrom]
  | cons c text ih =>
    have hlater : (p, found) ∈ placesFrom find? size (position + size c) (some c) text ↔ _ := ih
    rw [exists_place, placesFrom]
    simp only [getLast?_cons_or, List.map_cons, List.sum_cons, ← Nat.add_assoc]
    rw [← hlater]
    cases hfind : find? last (c :: text) with
    | none => simp [hfind]
    | some result => simp [hfind, Prod.ext_iff, and_comm, eq_comm]

/-- Places come in the order of their positions. -/
theorem pairwise_placesFrom (hsize : ∀ c, 0 < size c) (position : Nat) (last : Option α)
    (text : List α) :
    (placesFrom find? size position last text).Pairwise fun a b => a.1 < b.1 := by
  induction text generalizing position last with
  | nil => exact .nil
  | cons c text ih =>
    rw [placesFrom]
    cases find? last (c :: text) with
    | none => exact ih _ _
    | some result =>
      refine List.pairwise_cons.mpr ⟨fun place hplace => ?_, ih _ _⟩
      obtain ⟨before, d, rest, -, -, hposition⟩ := mem_placesFrom.mp hplace
      have hpos := hsize c
      dsimp only
      omega

end Places

/-! ## Occurrences apart -/

/-- No occurrence begins inside of another one. -/
def Apart (find? : Option α → List α → Option (β × Nat)) : Prop :=
  ∀ last c before d rest found n, find? last (c :: (before ++ d :: rest)) = some (found, n) →
    before.length + 1 < n → find? (before.getLast?.or (some c)) (d :: rest) = none

/-- The sweep finds what stands at the places past the elements that it passes over. -/
theorem Apart.map_snd_placesFrom {find? : Option α → List α → Option (β × Nat)} (h : Apart find?)
    (size : α → Nat) (position : Nat) {last : Option α} {skip : Nat} {text : List α}
    (hskip : ∀ before c rest, text = before ++ c :: rest → before.length < skip →
      find? (before.getLast?.or last) (c :: rest) = none) :
    (placesFrom find? size position last text).map Prod.snd = scanFrom find? last skip text := by
  induction text generalizing position last skip with
  | nil => rfl
  | cons c text ih =>
    cases skip with
    | succ skip =>
      have hnone : find? last (c :: text) = none := hskip [] c text rfl (Nat.succ_pos skip)
      rw [placesFrom, scanFrom, hnone]
      refine ih _ fun before d rest htext hlength => ?_
      have hlater := hskip (c :: before) d rest (by rw [htext]; rfl) (Nat.succ_lt_succ hlength)
      rwa [getLast?_cons_or] at hlater
    | zero =>
      rw [placesFrom, scanFrom]
      cases hfind : find? last (c :: text) with
      | none => exact ih _ fun _ _ _ _ hlength => absurd hlength (Nat.not_lt_zero _)
      | some result =>
        refine congrArg (result.1 :: ·) (ih _ fun before d rest htext hlength => ?_)
        rw [htext] at hfind
        exact h last c before d rest result.1 result.2 hfind (Nat.add_lt_of_lt_sub hlength)

/-- A pattern of a word, and of characters past it that are no part of a word. -/
structure WordLed (view : α → Char) (find? : Option α → List α → Option (β × Nat)) : Prop where
  outside : ∀ last text result, find? last text = some result → outsideWord view last
  shape : ∀ last text found n, find? last text = some (found, n) → ∃ word past rest,
    text = word ++ past ++ rest ∧ n = (word ++ past).length ∧ word ≠ [] ∧
      (∀ c ∈ word, Text.isWord (view c)) ∧ ∀ c ∈ past, Text.isWord (view c) = false

/-- Inside of an occurrence, a word goes on or no word begins. -/
theorem WordLed.apart {view : α → Char} {find? : Option α → List α → Option (β × Nat)}
    (h : WordLed view find?) : Apart find? := by
  intro last c before d rest found n hfind hlength
  rw [Option.eq_none_iff_forall_ne_some]
  intro inner hinner
  obtain ⟨word, past, more, htext, rfl, -, hword, hpast⟩ := h.shape _ _ _ _ hfind
  rw [← List.cons_append, List.append_assoc] at htext
  -- The inner place is in the word, with a character of the word before it, or past the word.
  rcases List.append_eq_append_iff.mp htext with ⟨gap, hgap, -⟩ | ⟨gap, hgap, hrest⟩
  · have houtside := h.outside _ _ _ hinner
    have hlast : Text.isWord (view (before.getLast?.getD c)) := by
      refine hword _ (hgap ▸ List.mem_append_left _ ?_)
      cases hgetLast : before.getLast? with
      | none => exact List.mem_cons_self
      | some e => exact List.mem_cons_of_mem c (List.mem_of_getLast? hgetLast)
    have hsome : before.getLast?.or (some c) = some (before.getLast?.getD c) := by
      cases before.getLast? with
      | none => rfl
      | some e => rfl
    rw [hsome, outsideWord, hlast] at houtside
    exact Bool.false_ne_true houtside
  · have hshort : gap.length < past.length := by
      have hlengths := congrArg List.length hgap
      simp only [List.length_cons, List.length_append] at hlengths hlength
      omega
    have hmem : d ∈ past := by
      rcases List.append_eq_append_iff.mp hrest with ⟨other, rfl, -⟩ | ⟨other, rfl, hother⟩
      · rw [List.length_append] at hshort
        omega
      · cases other with
        | nil => simp at hshort
        | cons e other =>
          obtain ⟨rfl, -⟩ := List.cons.inj hother
          simp
    obtain ⟨word', past', rest', htext', -, hne, hword', -⟩ := h.shape _ _ _ _ hinner
    cases word' with
    | nil => exact hne rfl
    | cons e word' =>
      obtain ⟨rfl, -⟩ := List.cons.inj htext'
      have hd := hword' d List.mem_cons_self
      rw [hpast d hmem] at hd
      exact Bool.false_ne_true hd

theorem Apart.scan_eq {find? : Option α → List α → Option (β × Nat)} (h : Apart find?)
    (size : α → Nat) (text : List α) :
    scan find? text = (placesFrom find? size 0 none text).map Prod.snd :=
  (h.map_snd_placesFrom size 0 fun _ _ _ _ hlength => absurd hlength (Nat.not_lt_zero _)).symm

/-- What a sweep finds are the occurrences at all places. -/
theorem Apart.mem_scan {find? : Option α → List α → Option (β × Nat)} (h : Apart find?)
    {text : List α} {found : β} : found ∈ scan find? text ↔
      ∃ before c rest n, text = before ++ c :: rest ∧
        find? before.getLast? (c :: rest) = some (found, n) := by
  rw [h.scan_eq (fun _ => 1), List.mem_map]
  constructor
  · rintro ⟨⟨position, found⟩, hplace, rfl⟩
    obtain ⟨before, c, rest, htext, ⟨n, hfind⟩, -⟩ := mem_placesFrom.mp hplace
    rw [Option.or_none] at hfind
    exact ⟨before, c, rest, n, htext, hfind⟩
  · rintro ⟨before, c, rest, n, htext, hfind⟩
    have hplace : find? (before.getLast?.or none) (c :: rest) = some (found, n) := by
      rwa [Option.or_none]
    exact ⟨_, mem_placesFrom.mpr ⟨before, c, rest, htext, ⟨n, hplace⟩, rfl⟩, rfl⟩

end ClientBindings.Source
