/-!
# Proofs — Results

A result is a value or an error.  What one comes to that is made of another says what the other came
to.

* `bind_eq_ok_iff`, `map_eq_ok_iff`, `mapError_eq_ok_iff`: each step has succeeded.
* `bind_eq_error_iff`, `map_eq_error_iff`, `mapError_eq_error_iff`: one step has failed, and those
  before it have not.
* `exists_eq_ok_iff`: a result is a value where it is no error.
-/

namespace BlankLines

variable {ε α β : Type} {r : Except ε α} {b : β}

theorem map_eq_ok_iff {g : α → β} : r.map g = .ok b ↔ ∃ a, r = .ok a ∧ g a = b := by
  cases r with
  | error e => simp [Except.map]
  | ok a => simp [Except.map]

theorem bind_eq_ok_iff {g : α → Except ε β} : r >>= g = .ok b ↔ ∃ a, r = .ok a ∧ g a = .ok b := by
  cases r with
  | error e => simp [bind, Except.bind]
  | ok a => simp [bind, Except.bind]

theorem map_eq_error_iff {g : α → β} {e : ε} : r.map g = .error e ↔ r = .error e := by
  cases r with
  | error e' => simp [Except.map]
  | ok a => simp [Except.map]

section
variable {ε' : Type} {g : ε → ε'}

theorem mapError_eq_ok_iff {a : α} : r.mapError g = .ok a ↔ r = .ok a := by
  cases r with
  | error e => exact ⟨nofun, nofun⟩
  | ok a' => exact ⟨fun h => congrArg _ (Except.ok.inj h), fun h => congrArg _ (Except.ok.inj h)⟩

theorem mapError_eq_error_iff {e' : ε'} :
    r.mapError g = .error e' ↔ ∃ e, r = .error e ∧ g e = e' := by
  cases r with
  | error e => exact ⟨fun h => ⟨e, rfl, Except.error.inj h⟩, by rintro ⟨_, ⟨⟩, rfl⟩; rfl⟩
  | ok a => exact ⟨nofun, nofun⟩

end

theorem bind_eq_error_iff {g : α → Except ε β} {e : ε} :
    r >>= g = .error e ↔ r = .error e ∨ ∃ a, r = .ok a ∧ g a = .error e := by
  cases r with
  | error e' => simp [bind, Except.bind]
  | ok a => simp [bind, Except.bind]

theorem exists_eq_ok_iff : (∃ a, r = .ok a) ↔ ∀ e, r ≠ .error e := by
  cases r with
  | error e => simp
  | ok a => simp

end BlankLines
