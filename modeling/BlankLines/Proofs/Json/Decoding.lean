import BlankLines.Json.Decode
import BlankLines.Proofs.Json.Reading

/-!
# Proofs — Json — decoding what a node shows

A decoder *reads* a value within its levels if it gives that value whenever the value fits in
them, and refuses it for its depth whenever it does not (`ReadsWithin`).  The notion passes from
the parts to the whole: through lists (`list_reads`), through optional values (`nullable_reads`),
and through records (`record_reads`), whose fields are those that a layout writes
(`Layout.Writes`).
-/

namespace BlankLines.Json

variable {α β σ τ : Type}

/-! ### Reading within levels -/

/-- `r` is `a` if `fits` holds, and otherwise a refusal for depth. -/
structure ReadsWithin (r : Except Fault α) (fits : Prop) (a : α) : Prop where
  value : fits → r = .ok a
  depth : ¬ fits → ∃ f, r = .error f ∧ f.cause = .tooDeep

namespace ReadsWithin

variable {r : Except Fault α} {a : α} {b : β} {p q : Prop}

theorem of_eq (h : r = .ok a) : ReadsWithin r True a :=
  ⟨fun _ => h, fun hp => absurd trivial hp⟩

theorem of_iff (h : ReadsWithin r p a) (hpq : p ↔ q) : ReadsWithin r q a :=
  ⟨fun hq => h.value (hpq.mpr hq), fun hq => h.depth fun hp => hq (hpq.mp hp)⟩

theorem map (h : ReadsWithin r p a) (g : α → β) : ReadsWithin (r.map g) p (g a) := by
  refine ⟨fun hp => ?_, fun hp => ?_⟩
  · rw [h.value hp]; rfl
  · obtain ⟨f, hf, hc⟩ := h.depth hp
    exact ⟨f, by rw [hf]; rfl, hc⟩

/-- What comes second is only asked for once the first has been read. -/
theorem bind {g : α → Except Fault β} (h : ReadsWithin r p a) (hg : ReadsWithin (g a) q b) :
    ReadsWithin (r >>= g) (p ∧ q) b := by
  by_cases hp : p
  · rw [h.value hp]
    exact hg.of_iff ⟨fun hq => ⟨hp, hq⟩, And.right⟩
  · obtain ⟨f, hf, hc⟩ := h.depth hp
    rw [hf]
    exact ⟨fun hpq => absurd hpq.1 hp, fun _ => ⟨f, rfl, hc⟩⟩

/-- An array or object is entered while there are levels left. -/
theorem enter {levels : Nat} {here : List Char} (h : ReadsWithin r p a) :
    ReadsWithin (if levels = 0 then .error (.peeked .tooDeep here) else r) (levels ≠ 0 ∧ p) a := by
  split
  next h0 => exact ⟨fun hp => absurd h0 hp.1, fun _ => ⟨_, rfl, Fault.cause_peeked _ _⟩⟩
  next h0 => exact h.of_iff ⟨fun hp => ⟨h0, hp⟩, And.right⟩

end ReadsWithin

/-! ### Values without parts -/

theorem word_reads {node : Node} {n : UInt64} (h : node.Shows (.number n.toNat)) :
    word node = .ok n := by
  generalize hv : Value.number n.toNat = v at h
  cases h with
  | number here after m =>
      rw [UInt64.toNat_inj.mp (Value.number.inj hv)]
      rfl
  | _ => cases hv

theorem text_reads {node : Node} {s : String} (wanted : String) (h : node.Shows (.text s)) :
    text wanted node = .ok s := by
  cases h
  rfl

theorem choice_reads {table : List (String × α)} {node : Node} {name : String} {a : α}
    (ha : table.lookup name = some a) (levels : Nat) (h : node.Shows (.text name)) :
    choice levels table node = .ok a := by
  cases h
  simp [choice, lookUp, ha]

/-- A value that is not null is read as what is behind it. -/
theorem nullable_eq {d : Decoder α} {node : Node} {v : Value} (h : node.Shows v) (hv : v ≠ .null) :
    nullable d node = (d node).map some := by
  cases h with
  | null => exact absurd rfl hv
  | _ => rfl

theorem nullable_reads {d : Decoder α} {node : Node} {v : Value} {p : Prop} {a : α}
    (h : node.Shows v) (hv : v ≠ .null) (hd : ReadsWithin (d node) p a) :
    ReadsWithin (nullable d node) p (some a) := by
  rw [nullable_eq h hv]
  exact hd.map some

/-! ### Lists -/

theorem listItems_reads {d : Decoder α} {enc : α → Value} {fits : α → Prop} :
    ∀ {as : List α} {items : Items}, ItemsShow items (as.map enc) →
      (∀ a ∈ as, ∀ node : Node, node.Shows (enc a) → ReadsWithin (d node) (fits a) a) →
      ReadsWithin (listItems d items) (∀ a ∈ as, fits a) as
  | [], _, h, _ => by
      cases h
      exact (ReadsWithin.of_eq rfl).of_iff (by simp)
  | a :: as, _, h, hd => by
      cases h with
      | item hv hr =>
          have ha := hd a List.mem_cons_self _ hv
          have has := listItems_reads hr fun b hb => hd b (List.mem_cons_of_mem a hb)
          exact (ha.bind (has.map (a :: ·))).of_iff List.forall_mem_cons.symm

/-- A list is read if there is a level for it and each of its items is read. -/
theorem list_reads {d : Decoder α} {enc : α → Value} {fits : α → Prop} {as : List α} {node : Node}
    (levels : Nat) (h : node.Shows (.array (as.map enc)))
    (hd : ∀ a ∈ as, ∀ node : Node, node.Shows (enc a) → ReadsWithin (d node) (fits a) a) :
    ReadsWithin (list levels d node) (levels ≠ 0 ∧ ∀ a ∈ as, fits a) as := by
  cases h with
  | array here hi => exact (listItems_reads hi hd).enter

/-! ### Records -/

/-- The fields that stand for the parts of a record, in the order of its layout: a part is written
as a value it is read from, or left out where it has a value of its own then. -/
inductive Layout.Writes : {σ τ : Type} → Layout σ τ → List (String × Value) → Prop → τ → Prop where
  | done : Writes .done [] True ()
  | present {α σ τ : Type} {p : Part α} {rest : Layout σ τ} {fs : List (String × Value)}
      {v : Value} {fits more : Prop} {a : α} {t : τ}
      (hv : ∀ node : Node, node.Shows v → ReadsWithin (p.decode node) fits a)
      (hr : rest.Writes fs more t) :
      Writes (.part p rest) ((p.name, v) :: fs) (fits ∧ more) (a, t)
  | absent {α σ τ : Type} {p : Part α} {rest : Layout σ τ} {fs : List (String × Value)}
      {more : Prop} {a : α} {t : τ} (ha : p.absent = some a) (hr : rest.Writes fs more t) :
      Writes (.part p rest) fs more (a, t)

theorem Layout.Writes.of_iff {l : Layout σ τ} {fs : List (String × Value)} {p q : Prop} {t : τ}
    (h : l.Writes fs p t) (hpq : p ↔ q) : l.Writes fs q t :=
  propext hpq ▸ h

theorem Layout.Writes.mem_names {l : Layout σ τ} {fs : List (String × Value)} {p : Prop} {t : τ}
    (h : l.Writes fs p t) : ∀ f ∈ fs, f.1 ∈ l.names := by
  induction h with
  | done => intro f hf; cases hf
  | present hv hr ih =>
      intro f hf
      rcases List.mem_cons.mp hf with rfl | hf
      · exact List.mem_cons_self
      · exact List.mem_cons_of_mem _ (ih f hf)
  | absent ha hr ih => exact fun f hf => List.mem_cons_of_mem _ (ih f hf)

theorem fieldName_eq {l : Layout σ τ} {key : Key} {name : String} (hk : key.name = .ok name)
    (hn : name ∈ l.names) (isClosed : Bool) (s : σ) :
    fieldName l isClosed key s =
      if l.isRead name s then .error (keyFault (.duplicateField name) key.after) else .ok name := by
  simp only [fieldName, hk, Layout.refuses, List.contains_iff_mem, hn, if_true, bind, Except.bind]
  cases l.isRead name s <;> rfl

/-- A field of a part that has not been read is read as that part. -/
theorem recordFields_field {l : Layout σ τ} {key : Key} {name : String} {node : Node}
    {rest : Fields} (hk : key.name = .ok name) (hn : name ∈ l.names) (isClosed : Bool) (s : σ) :
    recordFields l isClosed (.field key node rest) s =
      if l.isRead name s then .error (keyFault (.duplicateField name) key.after)
      else l.put name node s >>= recordFields l isClosed rest := by
  rw [recordFields, fieldName_eq hk hn]
  split
  · rfl
  · simp only [bind, Except.bind, List.contains_iff_mem, hn, if_true]

/-- Fields of the other parts name none of the first. -/
theorem Layout.Writes.names_apart {p : Part α} {l : Layout σ τ} {fs : List (String × Value)}
    {q : Prop} {t : τ} (h : l.Writes fs q t) (hl : (Layout.part p l).names.Nodup) :
    ∀ f ∈ fs, f.1 ∈ l.names ∧ p.name ≠ f.1 := by
  intro f hf
  have hm := h.mem_names f hf
  exact ⟨hm, fun he => (List.nodup_cons.mp hl).1 (he ▸ hm)⟩

/-- A part that none of the fields names is finished as it stands. -/
theorem recordFields_part {p : Part α} {l : Layout σ τ} {isClosed : Bool} {slot : Option α} {a : α}
    {fs : List (String × Value)} {fields : Fields} (hf : FieldsShow fields fs)
    (ha : slot.or p.absent = some a) (hn : ∀ f ∈ fs, f.1 ∈ l.names ∧ p.name ≠ f.1) (s : σ) :
    recordFields (.part p l) isClosed fields (slot, s) =
      (recordFields l isClosed fields s).map fun t => (a, t) := by
  -- every field goes to the other parts, so what is in the slot stays there to the end
  induction fs generalizing fields s with
  | nil =>
      cases hf
      simp only [recordFields, Layout.finish, ha]
      cases l.finish s <;> rfl
  | cons f fs ih =>
      cases hf with
      | @field key node rest name v _ hk hs hv hr =>
          obtain ⟨hl, hp⟩ := hn _ List.mem_cons_self
          have hpl : name ∈ (Layout.part p l).names := List.mem_cons_of_mem _ hl
          rw [recordFields_field hk hl, recordFields_field hk hpl, Layout.isRead, if_neg hp,
            Layout.put, if_neg hp]
          split
          · rfl
          · cases l.put name node s with
            | error f => rfl
            | ok s' => exact ih hr (fun f hf => hn f (List.mem_cons_of_mem _ hf)) s'

/-- The fields a layout writes are read as its parts. -/
theorem recordFields_reads {l : Layout σ τ} {fs : List (String × Value)} {p : Prop} {t : τ}
    (h : l.Writes fs p t) (hl : l.names.Nodup) (isClosed : Bool) {fields : Fields}
    (hf : FieldsShow fields fs) : ReadsWithin (recordFields l isClosed fields l.start) p t := by
  induction h generalizing fields with
  | done =>
      cases hf
      exact .of_eq rfl
  | @present _ _ _ p rest _ _ fits more a t hv hr ih =>
      cases hf with
      | @field key node fields _ _ _ hk _ hn hf =>
          have hrest : ReadsWithin
              (recordFields (.part p rest) isClosed fields (some a, rest.start)) more (a, t) := by
            rw [recordFields_part hf rfl (hr.names_apart hl)]
            exact (ih (List.nodup_cons.mp hl).2 hf).map fun t => (a, t)
          rw [recordFields_field hk List.mem_cons_self, Layout.start, Layout.isRead, if_pos rfl,
            Layout.put, if_pos rfl]
          exact ((hv node hn).map fun a => (some a, rest.start)).bind hrest
  | @absent _ _ _ p rest _ _ a t ha hr ih =>
      have ha' : none.or p.absent = some a := ha
      rw [Layout.start, recordFields_part hf ha' (hr.names_apart hl)]
      exact (ih (List.nodup_cons.mp hl).2 hf).map fun t => (a, t)

/-- A record is read if there is a level for it and its parts are read. -/
theorem record_reads {l : Layout σ τ} {fs : List (String × Value)} {p : Prop} {t : τ} {node : Node}
    (levels : Nat) (name : String) (isClosed : Bool) (h : l.Writes fs p t) (hl : l.names.Nodup)
    (hn : node.Shows (.object fs)) :
    ReadsWithin (record levels name isClosed l node) (levels ≠ 0 ∧ p) t := by
  cases hn with
  | object here hf => exact (recordFields_reads h hl isClosed hf).enter

end BlankLines.Json
