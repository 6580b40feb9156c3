import BlankLines.Json.Decode
import BlankLines.Proofs.Results

/-!
# Proofs — Json — what is read

What a decoder that succeeds has met.

* **A record written as an object** has a field for every part without a value of its own
  (`hasName_of_recordFields`): a part is filled by a field of its name and by no other
  (`Layout.isRead_put`), and a record is not finished while such a part is empty
  (`Layout.isRead_of_finish`).
* **A record is an object or an array**: a node of another kind is refused
  (`mismatch_ne_ok`).
-/

namespace BlankLines

namespace Json

variable {σ τ : Type} {l : Layout σ τ} {name : String}

/-! ### Names of fields -/

/-- One of the fields has a readable name and it is this one. -/
def Fields.HasName (name : String) : Fields → Prop
  | .field key _ rest => key.name = .ok name ∨ rest.HasName name
  | _ => False

/-- The part of this name has no value of its own. -/
def Layout.requires {σ τ : Type} : Layout σ τ → String → Bool
  | .done, _ => false
  | .part p rest, name => if p.name = name then p.absent.isNone else rest.requires name

namespace Layout

theorem isRead_start {σ τ : Type} :
    ∀ (l : Layout σ τ) (name : String), l.isRead name l.start = false
  | .done, _ => rfl
  | .part p rest, name => by
      rw [isRead, start]
      split
      · rfl
      · exact isRead_start rest name

/-- A field fills no part but the one of its name. -/
theorem isRead_put {σ τ : Type} {other : String} (ho : other ≠ name) {node : Node} :
    ∀ (l : Layout σ τ) {s s' : σ}, l.put other node s = .ok s' → l.isRead name s' = l.isRead name s
  | .done, _, _, _ => rfl
  | .part p rest, (slot, s), s', h => by
      rw [put] at h
      split at h
      next hp =>
        obtain ⟨a, -, rfl⟩ := map_eq_ok_iff.mp h
        have hn : p.name ≠ name := fun hn => ho (hp.symm.trans hn)
        rw [isRead, isRead, if_neg hn, if_neg hn]
      next hp =>
        obtain ⟨s'', hs, rfl⟩ := map_eq_ok_iff.mp h
        rw [isRead, isRead, isRead_put ho rest hs]

/-- A record is not finished while a part without a value of its own is empty. -/
theorem isRead_of_finish {σ τ : Type} : ∀ (l : Layout σ τ) {s : σ} {t : τ},
    l.requires name = true → l.finish s = .ok t → l.isRead name s = true
  | .part p rest, (slot, s), t, hr, h => by
      rw [finish] at h
      split at h
      next a ha =>
        -- a part without a value of its own got this one from its slot
        obtain ⟨t', ht, -⟩ := map_eq_ok_iff.mp h
        rw [requires] at hr
        rw [isRead]
        split
        next hp =>
          rw [if_pos hp, Option.isNone_iff_eq_none] at hr
          rw [hr, Option.or_none] at ha
          rw [ha]
          rfl
        next hp =>
          rw [if_neg hp] at hr
          exact isRead_of_finish rest hr ht
      next => cases h

end Layout

theorem name_of_fieldName {isClosed : Bool} {key : Key} {s : σ} {other : String}
    (h : fieldName l isClosed key s = .ok other) : key.name = .ok other := by
  obtain ⟨n, hn, h⟩ := bind_eq_ok_iff.mp h
  split at h
  · cases h
  · cases h
    exact hn

/-- **A part without a value of its own is named** by a field of every record that is read. -/
theorem hasName_of_recordFields {isClosed : Bool} (hr : l.requires name = true) {t : τ} :
    ∀ (fields : Fields) {s : σ}, l.isRead name s = false →
      recordFields l isClosed fields s = .ok t → fields.HasName name
  | .closed after, s, hs, h => by
      rw [recordFields] at h
      split at h
      next t' ht => rw [l.isRead_of_finish hr ht] at hs; cases hs
      next => cases h
  | .ended, _, _, h => by cases h
  | .odd _, _, _, h => by cases h
  | .unnamed _, _, _, h => by cases h
  | .dangling [], _, _, h => by cases h
  | .dangling (_ :: _), _, _, h => by cases h
  | .unpaired key here, s, _, h => by
      rw [recordFields] at h
      obtain ⟨_, -, h⟩ := bind_eq_ok_iff.mp h
      cases h
  | .field key node rest, s, hs, h => by
      rw [recordFields] at h
      obtain ⟨other, hk, h⟩ := bind_eq_ok_iff.mp h
      by_cases ho : other = name
      · exact .inl (ho ▸ name_of_fieldName hk)
      · refine .inr ?_
        split at h
        · obtain ⟨s', hput, h⟩ := bind_eq_ok_iff.mp h
          exact hasName_of_recordFields hr rest ((l.isRead_put ho hput).trans hs) h
        · split at h
          · cases h
          · exact hasName_of_recordFields hr rest hs h

/-! ### Records written as arrays -/

theorem recordItems_done_iff {wanted : String} {n : Nat} {items : Items} :
    recordItems wanted .done n items = .ok () ↔ ∃ after, items = .closed after := by
  rw [recordItems]
  refine ⟨fun h => ?_, fun ⟨after, h⟩ => by rw [h]; rfl⟩
  unfold recordEnd at h
  split at h
  · exact ⟨_, rfl⟩
  all_goals cases h

/-- A part of a record is the next item, or is left out at the end of the array. -/
theorem recordItems_part_iff {α : Type} {p : Part α} {wanted : String} {n : Nat} {items : Items}
    {a : α} {t : τ} :
    recordItems wanted (.part p l) n items = .ok (a, t) ↔
      (∃ node more, items = .item node more ∧ p.decode node = .ok a ∧
        recordItems wanted l (n + 1) more = .ok t) ∨
      (∃ after, items = .closed after ∧ p.absent = some a ∧
        recordItems wanted l (n + 1) items = .ok t) := by
  cases items with
  | item node more =>
      simp only [recordItems, bind_eq_ok_iff]
      constructor
      · rintro ⟨a', ha, t', ht, h⟩
        cases h
        exact .inl ⟨node, more, rfl, ha, ht⟩
      · rintro (⟨_, _, ⟨⟩, ha, ht⟩ | ⟨_, h, -⟩)
        · exact ⟨a, ha, t, ht, rfl⟩
        · cases h
  | closed after =>
      simp only [recordItems]
      constructor
      · intro h
        split at h
        next a' ha =>
          obtain ⟨t', ht, h⟩ := map_eq_ok_iff.mp h
          cases h
          exact .inr ⟨after, rfl, ha, ht⟩
        next => cases h
      · rintro (⟨_, _, h, -⟩ | ⟨_, -, ha, ht⟩)
        · cases h
        · rw [ha, ht]
          rfl
  | ended => simp [recordItems, itemFault]
  | odd here => simp [recordItems, itemFault]
  | dangling here => cases here <;> simp [recordItems, itemFault]

/-! ### Nodes of another kind -/

theorem mismatch_ne_ok {α : Type} (wanted : String) (node : Node) (a : α) :
    mismatch wanted node ≠ .ok a := by
  intro h
  obtain ⟨_, -, h⟩ := bind_eq_ok_iff.mp h
  cases h

end Json

end BlankLines
