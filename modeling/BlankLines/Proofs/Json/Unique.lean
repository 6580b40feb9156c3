import BlankLines.Proofs.Json.Reading
import BlankLines.Proofs.Results

/-!
# Proofs — Json — one document for each text

The grammar says which documents a text may stand for; it never lets it stand for two.  The reader
is what shows it: it makes one node of a text, this node holds every document the text stands for,
and no node holds two documents.

* `Node.Holds.unique`: a node holds one document at most.
* `Grammar.Element.unique`: a text stands for one document at most.
-/

namespace BlankLines.Json

/-! ### Nodes without parts -/

/-- The document of a value without parts, but for numbers: their spelling is lost. -/
def Scalar.document? : Scalar → Option Document
  | .null     => some .null
  | .bool b   => some (.bool b)
  | .number _ => none
  | .text s   => some (.text s)

section
variable {here after : List Char} {value : Except Fault Scalar} {skip : Option Fault}
  {d d' : Document}

/-- What a node without parts holds: the value it has read, or a number as it is spelled there. -/
theorem Node.Holds.scalar_cases (h : (Node.scalar here after value skip).Holds d) :
    (∃ v, value = .ok v ∧ v.document? = some d) ∨
    ∃ n, value = (n.value after).map .number ∧ Numeral.read here = .ok (n, after) ∧
      d = .number n := by
  cases h with
  | null => exact .inl ⟨_, rfl, rfl⟩
  | bool => exact .inl ⟨_, rfl, rfl⟩
  | text => exact .inl ⟨_, rfl, rfl⟩
  | number _ _ n hread => exact .inr ⟨n, rfl, hread, rfl⟩

theorem Scalar.document?_of_number {n : Numeral} {v : Scalar}
    (h : (n.value after).map .number = .ok v) : v.document? = none := by
  obtain ⟨m, -, rfl⟩ := map_eq_ok_iff.1 h
  rfl

theorem Node.Holds.scalar_unique (h : (Node.scalar here after value skip).Holds d)
    (h' : (Node.scalar here after value skip).Holds d') : d = d' := by
  rcases h.scalar_cases with ⟨v, hv, hd⟩ | ⟨n, hv, hread, rfl⟩ <;>
    rcases h'.scalar_cases with ⟨v', hv', hd'⟩ | ⟨n', hv', hread', rfl⟩
  · obtain rfl := Except.ok.inj (hv.symm.trans hv')
    exact Option.some.inj (hd.symm.trans hd')
  · rw [Scalar.document?_of_number (hv'.symm.trans hv)] at hd
    cases hd
  · rw [Scalar.document?_of_number (hv.symm.trans hv')] at hd'
    cases hd'
  · obtain ⟨rfl, -⟩ := Prod.mk.inj (Except.ok.inj (hread.symm.trans hread'))
    rfl

end

/-! ### Nodes with parts -/

mutual

/-- **A node holds one document at most.** -/
theorem Node.Holds.unique : ∀ {node : Node} {d d' : Document}, node.Holds d → node.Holds d' → d = d'
  | .absent _, _, _, h, _ => nomatch h
  | .scalar .., _, _, h, h' => h.scalar_unique h'
  | .array _ _, _, _, h, h' => by
      cases h with
      | array _ h =>
          cases h' with
          | array _ h' => rw [h.unique h']
  | .object _ _, _, _, h, h' => by
      cases h with
      | object _ h =>
          cases h' with
          | object _ h' => rw [h.unique h']

theorem ItemsHold.unique : ∀ {items : Items} {ds ds' : List Document},
    ItemsHold items ds → ItemsHold items ds' → ds = ds'
  | .ended, _, _, h, _ | .odd _, _, _, h, _ | .dangling _, _, _, h, _ => nomatch h
  | .closed _, _, _, h, h' => by
      cases h
      cases h'
      rfl
  | .item _ _, _, _, h, h' => by
      cases h with
      | item hd hr =>
          cases h' with
          | item hd' hr' => rw [hd.unique hd', hr.unique hr']

theorem FieldsHold.unique : ∀ {fields : Fields} {fs fs' : List (String × Document)},
    FieldsHold fields fs → FieldsHold fields fs' → fs = fs'
  | .ended, _, _, h, _ | .odd _, _, _, h, _ | .unnamed _, _, _, h, _ | .dangling _, _, _, h, _
  | .unpaired _ _, _, _, h, _ => nomatch h
  | .closed _, _, _, h, h' => by
      cases h
      cases h'
      rfl
  | .field _ _ _, _, _, h, h' => by
      cases h with
      | field hk _ hd hr =>
          cases h' with
          | field hk' _ hd' hr' =>
              rw [Except.ok.inj (hk.symm.trans hk'), hd.unique hd', hr.unique hr']

end

/-- **A text stands for one document at most.** -/
theorem Grammar.Element.unique {text : List Char} {d d' : Document} (h : Grammar.Element d text)
    (h' : Grammar.Element d' text) : d = d' := by
  obtain ⟨node, after, hread, hd, -⟩ := ofText_of_element h
  obtain ⟨node', after', hread', hd', -⟩ := ofText_of_element h'
  obtain ⟨rfl, -⟩ := Prod.mk.inj (hread.symm.trans hread')
  exact hd.unique hd'

end BlankLines.Json
