import Mathlib.Data.List.Lex

/-!
# Proofs — Text — texts and their bytes

Texts are compared character by character, and files are sorted by the bytes of their names.  The
two orders are one: a character with a greater number has greater bytes, whatever follows.

* `lex_utf8EncodeChar`: one character.
* `bytesBefore_iff`: texts.
-/

namespace BlankLines.Text

/-- The bytes of a text. -/
def bytes (s : String) : List UInt8 :=
  s.toUTF8.data.toList

theorem bytes_eq (s : String) : bytes s = s.toList.flatMap String.utf8EncodeChar := by
  rw [bytes, String.toUTF8, ← String.utf8Encode_toList, List.utf8Encode, List.data_toByteArray]

theorem toNat_val_lt (c : Char) : c.val.toNat < 0x110000 := by
  rcases c.valid with h | h
  · exact Nat.lt_trans h (by decide)
  · exact h.2

/-- **The bytes of a character** sort before those of a greater one, whatever follows them. -/
theorem lex_utf8EncodeChar {c d : Char} (h : c < d) (xs ys : List UInt8) :
    List.Lex (· < ·) (String.utf8EncodeChar c ++ xs) (String.utf8EncodeChar d ++ ys) := by
  have hlt : c.val.toNat < d.val.toNat := h
  have hbound := toNat_val_lt d
  simp only [String.utf8EncodeChar]
  -- a longer code starts with a greater byte, and codes of one length are digits of the numbers
  repeat' split
  all_goals
    simp only [List.cons_append, List.cons_lex_cons_iff, UInt8.lt_iff_toNat_lt, ← UInt8.toNat_inj,
      UInt8.toNat_ofNat']
    simp (disch := omega) only [Nat.mod_eq_of_lt]
    omega

theorem lex_flatMap_utf8EncodeChar {cs ds : List Char} (h : List.Lex (· < ·) cs ds) :
    List.Lex (· < ·) (cs.flatMap String.utf8EncodeChar) (ds.flatMap String.utf8EncodeChar) := by
  induction h with
  | nil =>
      obtain ⟨byte, bytes, hbytes⟩ := List.exists_cons_of_ne_nil (@String.utf8EncodeChar_ne_nil _)
      rw [List.flatMap_cons, hbytes]
      exact .nil
  | cons _ ih =>
      rw [List.flatMap_cons, List.flatMap_cons]
      exact ih.append_left _ _
  | rel h =>
      rw [List.flatMap_cons, List.flatMap_cons]
      exact lex_utf8EncodeChar h _ _

theorem lex_bytes_of_lt {s t : String} (h : s < t) : List.Lex (· < ·) (bytes s) (bytes t) := by
  rw [bytes_eq, bytes_eq]
  exact lex_flatMap_utf8EncodeChar h

/-- Whether the bytes of a text sort before those of another. -/
def bytesBefore (s t : String) : Bool :=
  (bytes s).lex (bytes t) fun a b => decide (a < b)

/-- **The order of texts** is that of their bytes. -/
theorem bytesBefore_iff {s t : String} : bytesBefore s t = true ↔ s < t := by
  have hlex : ∀ s t, bytesBefore s t = true ↔ List.Lex (· < ·) (bytes s) (bytes t) := by
    intro s t
    rw [bytesBefore, List.lex_eq_true_iff_lex]
    simp
  rw [hlex]
  refine ⟨fun h => ?_, lex_bytes_of_lt⟩
  have hasymm : ¬ List.Lex (· < ·) (bytes t) (bytes s) := List.lex_asymm UInt8.lt_asymm h
  by_contra hst
  have hle : s ≤ t := String.not_lt.1 fun hts => hasymm (lex_bytes_of_lt hts)
  obtain rfl := String.le_antisymm hle (String.not_lt.1 hst)
  exact hasymm h

theorem not_bytesBefore_iff {s t : String} : (!bytesBefore t s) = true ↔ s ≤ t := by
  rw [Bool.not_eq_true', Bool.eq_false_iff, ne_eq, bytesBefore_iff, String.not_lt]

end BlankLines.Text
