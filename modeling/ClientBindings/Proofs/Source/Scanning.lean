import ClientBindings.Proofs.Source.Completeness

/-!
# Occurrences of a pattern

The sweep over a text (`scan`) as a relation between the text and what is found.

* `Occurrences`: what is found from left to right, without overlap, where `Opens` says what stands
  at the start of a text. Each place is judged with all of the text that follows.
* `Finds`: a search that finds what stands at the start of a text.
* `Finds.scan_iff`: the sweep with such a search finds the occurrences and nothing else.
-/

namespace ClientBindings.Source

variable {α : Type}

/-- The occurrences in a text after `last`. `Opens last opening rest found` says that `opening`, with
`rest` after it, is an occurrence of `found`. -/
inductive Occurrences (Opens : Option Char → List Char → List Char → α → Prop) :
    Option Char → List Char → List α → Prop
  | nil {last : Option Char} : Occurrences Opens last [] []
  | pass {last : Option Char} {c : Char} {text : List Char} {founds : List α}
      (h : ∀ opening rest found, c :: text = opening ++ rest → ¬ Opens last opening rest found) :
      Occurrences Opens (some c) text founds → Occurrences Opens last (c :: text) founds
  | found {last : Option Char} {opening rest : List Char} {found : α} {founds : List α} :
      Opens last opening rest found → Occurrences Opens (lastOf last opening) rest founds →
      Occurrences Opens last (opening ++ rest) (found :: founds)

/-- What occurs stands somewhere in the text. -/
theorem Occurrences.exists_opening {Opens : Option Char → List Char → List Char → α → Prop}
    {last : Option Char} {text : List Char} {founds : List α} (h : Occurrences Opens last text founds) :
    ∀ found ∈ founds, ∃ before opening rest, text = before ++ (opening ++ rest) ∧
      Opens (lastOf last before) opening rest found := by
  induction h with
  | nil => simp
  | @pass last c text founds _ _ ih =>
    intro found hfound
    obtain ⟨before, opening, rest, rfl, hopens⟩ := ih found hfound
    exact ⟨c :: before, opening, rest, rfl, hopens⟩
  | @found last opening rest first founds hopens _ ih =>
    intro found hfound
    rcases List.mem_cons.mp hfound with rfl | hfound
    · exact ⟨[], opening, rest, rfl, hopens⟩
    · obtain ⟨before, other, past, rfl, hother⟩ := ih found hfound
      refine ⟨opening ++ before, other, past, by simp, ?_⟩
      rwa [lastOf, List.foldl_append]

/-- A search finds what opens a text, and how long the opening is. -/
structure Finds (find? : Option Char → List Char → Option (α × Nat))
    (Opens : Option Char → List Char → List Char → α → Prop) : Prop where
  eq_some : ∀ last text found n, find? last text = some (found, n) ↔
    ∃ opening rest, Opens last opening rest found ∧ text = opening ++ rest ∧ n = opening.length
  ne_nil : ∀ last opening rest found, Opens last opening rest found → opening ≠ []

section Scan

variable {find? : Option Char → List Char → Option (α × Nat)}
  {Opens : Option Char → List Char → List Char → α → Prop}

/-- The rest of an occurrence is passed over. -/
theorem scanFrom_skip (before : List Char) (last : Option Char) (rest : List Char) :
    scanFrom find? last before.length (before ++ rest) =
      scanFrom find? (lastOf last before) 0 rest := by
  induction before generalizing last with
  | nil => rfl
  | cons c before ih =>
    rw [List.length_cons, List.cons_append, scanFrom, ih]
    rfl

theorem scanFrom_pass {last : Option Char} {c : Char} {text : List Char}
    (hnone : find? last (c :: text) = none) :
    scanFrom find? last 0 (c :: text) = scanFrom find? (some c) 0 text := by
  rw [scanFrom, hnone]

namespace Finds

variable (h : Finds find? Opens)

include h

theorem eq_none {last : Option Char} {text : List Char} : find? last text = none ↔
    ∀ opening rest found, text = opening ++ rest → ¬ Opens last opening rest found := by
  rw [Option.eq_none_iff_forall_ne_some]
  constructor
  · rintro hnone opening rest found htext hopens
    exact hnone (found, opening.length) ((h.eq_some ..).mpr ⟨opening, rest, hopens, htext, rfl⟩)
  · rintro hnone ⟨found, n⟩ hfound
    obtain ⟨opening, rest, hopens, htext, -⟩ := (h.eq_some ..).mp hfound
    exact hnone opening rest found htext hopens

theorem scanFrom_found {last : Option Char} {opening rest : List Char} {found : α}
    (hopens : Opens last opening rest found) : scanFrom find? last 0 (opening ++ rest) =
      found :: scanFrom find? (lastOf last opening) 0 rest := by
  have hfound : find? last (opening ++ rest) = some (found, opening.length) :=
    (h.eq_some ..).mpr ⟨opening, rest, hopens, rfl, rfl⟩
  cases opening with
  | nil => exact absurd rfl (h.ne_nil _ _ _ _ hopens)
  | cons c opening =>
    rw [List.cons_append] at hfound ⊢
    rw [scanFrom, hfound]
    exact congrArg (found :: ·) (scanFrom_skip opening (some c) rest)

/-- What is found occurs. -/
theorem occurrences_scanFrom (last : Option Char) (text : List Char) :
    Occurrences Opens last text (scanFrom find? last 0 text) := by
  induction hn : text.length using Nat.strongRecOn generalizing last text with
  | ind n ih =>
    subst hn
    cases text with
    | nil => exact .nil
    | cons c text =>
      cases hfind : find? last (c :: text) with
      | none =>
        rw [scanFrom_pass hfind]
        exact .pass (h.eq_none.mp hfind) (ih _ (Nat.lt_succ_self _) (some c) text rfl)
      | some result =>
        obtain ⟨opening, rest, hopens, htext, -⟩ := (h.eq_some ..).mp hfind
        have hlength : rest.length < (c :: text).length := by
          have hpos := List.length_pos_iff.mpr (h.ne_nil _ _ _ _ hopens)
          rw [htext, List.length_append]
          omega
        rw [htext, h.scanFrom_found hopens]
        exact .found hopens (ih _ hlength (lastOf last opening) rest rfl)

/-- The sweep finds the occurrences and nothing else. -/
theorem scanFrom_iff {last : Option Char} {text : List Char} {founds : List α} :
    Occurrences Opens last text founds ↔ scanFrom find? last 0 text = founds := by
  constructor
  · intro hoccurs
    induction hoccurs with
    | nil => rfl
    | pass hnone _ ih => rw [scanFrom_pass (h.eq_none.mpr hnone), ih]
    | found hopens _ ih => rw [h.scanFrom_found hopens, ih]
  · rintro rfl
    exact h.occurrences_scanFrom last text

theorem scan_iff {text : List Char} {founds : List α} :
    Occurrences Opens none text founds ↔ scan find? text = founds := h.scanFrom_iff

end Finds

end Scan

end ClientBindings.Source
