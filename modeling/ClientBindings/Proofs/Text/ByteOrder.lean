import Mathlib.Data.String.Basic

/-!
# Byte order

Strings are compared character by character. Comparing their UTF-8 bytes comes to the same.

* `utf8EncodeChar_lt`: the bytes of a smaller character come first, whatever follows.
* `utf8Bytes_lt_iff`: the order of strings is that of their bytes.
-/

namespace ClientBindings.Text

/-- The bytes of a string. -/
def utf8Bytes (s : String) : List UInt8 := s.toUTF8.data.toList

theorem utf8Bytes_eq (s : String) : utf8Bytes s = s.toList.flatMap String.utf8EncodeChar := by
  have hbytes : (String.ofList s.toList).toByteArray = s.toList.utf8Encode :=
    String.toByteArray_ofList
  rw [String.ofList_toList, List.utf8Encode] at hbytes
  rw [utf8Bytes, String.toUTF8, hbytes, List.data_toByteArray]

/-- Two bytes given by numbers compare as the numbers do. -/
theorem byte_cons_lt_iff {m n : Nat} (hm : m < 256) (hn : n < 256) (s t : List UInt8) :
    UInt8.ofNat m :: s < UInt8.ofNat n :: t ↔ m < n ∨ m = n ∧ s < t := by
  rw [List.cons_lt_cons_iff, UInt8.lt_iff_toNat_lt, ← UInt8.toNat_inj, UInt8.toNat_ofNat',
    UInt8.toNat_ofNat', Nat.mod_eq_of_lt hm, Nat.mod_eq_of_lt hn]

/-- The bytes of a smaller character come first, whatever follows them. -/
theorem utf8EncodeChar_lt {c d : Char} (h : c < d) (s t : List UInt8) :
    String.utf8EncodeChar c ++ s < String.utf8EncodeChar d ++ t := by
  have hlt : c.val.toNat < d.val.toNat := UInt32.lt_iff_toNat_lt.mp h
  have hd : d.val.toNat < 0x110000 := by
    rcases d.valid with hd | hd
    · exact Nat.lt_trans hd (by decide)
    · exact hd.2
  rw [String.utf8EncodeChar.eq_1 c, String.utf8EncodeChar.eq_1 d]
  generalize c.val.toNat = m at *
  generalize d.val.toNat = n at *
  have hdigits (k : Nat) : k / 4096 = k / 64 / 64 ∧ k / 262144 = k / 64 / 64 / 64 := by omega
  simp only [(hdigits _).1, (hdigits _).2]
  -- The first byte tells how many there are; of two characters with as many, the digits decide.
  split_ifs
  all_goals
    simp only [List.cons_append, List.nil_append]
    repeat rw [byte_cons_lt_iff (by omega) (by omega)]
    omega

theorem flatMap_utf8EncodeChar_lt {s t : List Char} (h : s < t) :
    s.flatMap String.utf8EncodeChar < t.flatMap String.utf8EncodeChar := by
  induction h with
  | @nil c t =>
    rw [List.flatMap_cons, String.utf8EncodeChar.eq_1]
    split_ifs <;> exact .nil
  | @cons c s t _ ih =>
    rw [List.flatMap_cons, List.flatMap_cons]
    exact List.append_left_lt ih
  | @rel c s d t h => exact utf8EncodeChar_lt h _ _

/-- The order of strings is that of their bytes. -/
theorem utf8Bytes_lt_iff {s t : String} : utf8Bytes s < utf8Bytes t ↔ s < t := by
  have hmono {s t : String} (h : s < t) : utf8Bytes s < utf8Bytes t := by
    rw [utf8Bytes_eq, utf8Bytes_eq]
    exact flatMap_utf8EncodeChar_lt (String.lt_iff_toList_lt.mp h)
  refine ⟨fun h => ?_, hmono⟩
  rcases lt_trichotomy s t with hlt | rfl | hlt
  · exact hlt
  · exact absurd h (List.lt_irrefl _)
  · exact absurd (hmono hlt) (List.lt_asymm h)

end ClientBindings.Text
