/-!
# Check — LineNumber

Arithmetic of line numbers that stops at the ends of the word instead of going round.

* `toNat_after`, `toNat_before`, `toNat_distance`: what each operation means for natural numbers.
-/

namespace BlankLines.LineNumber

/-- The line after `n`; the last line number comes after itself. -/
def after (n : UInt64) : UInt64 :=
  if n = 0xFFFFFFFFFFFFFFFF then n else n + 1

/-- The line before `n`; zero comes before itself. -/
def before (n : UInt64) : UInt64 :=
  if n = 0 then 0 else n - 1

/-- How many lines `b` comes after `a`; none if it comes before. -/
def distance (a b : UInt64) : UInt64 :=
  if b ≤ a then 0 else b - a

theorem toNat_after (n : UInt64) : (after n).toNat = min (n.toNat + 1) (UInt64.size - 1) := by
  unfold after
  split
  next h => subst h; rfl
  next h =>
    have hn : n.toNat ≠ UInt64.size - 1 := fun h' => h (UInt64.toNat_inj.1 h')
    have := n.toNat_lt
    rw [UInt64.toNat_add]
    simp only [UInt64.reduceToNat, UInt64.size] at *
    omega

theorem toNat_before (n : UInt64) : (before n).toNat = n.toNat - 1 := by
  unfold before
  split
  next h => subst h; rfl
  next h =>
    have hn : n.toNat ≠ 0 := fun h' => h (UInt64.toNat_inj.1 h')
    rw [UInt64.toNat_sub_of_le]
    · rfl
    · rw [UInt64.le_iff_toNat_le]
      simp only [UInt64.reduceToNat]
      omega

theorem toNat_distance (a b : UInt64) : (distance a b).toNat = b.toNat - a.toNat := by
  unfold distance
  split
  next h =>
    have := UInt64.le_iff_toNat_le.1 h
    simp only [UInt64.reduceToNat]
    omega
  next h =>
    have h' : a ≤ b := by
      rw [UInt64.le_iff_toNat_le] at h ⊢
      omega
    rw [UInt64.toNat_sub_of_le _ _ h']

end BlankLines.LineNumber
