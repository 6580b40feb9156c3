import Mathlib.Data.List.Nodup
import Mathlib.Tactic.MkIffOfInductiveProp
import BlankLines.Proofs.Json.Accepting
import BlankLines.Proofs.Json.Decoding
import BlankLines.Proofs.Json.Reading

/-!
# Proofs — Json — what is accepted

Each decoder accepts the nodes of certain documents and refuses those of all others.

* `succeeds_word_iff`, `succeeds_text_iff`, `succeeds_choice_iff`, `succeeds_nullable_iff`,
  `succeeds_list_iff`: which documents, for values without parts and for lists.
* `Obeys`: the fields of an object obey rules: the required ones are there, no listed name comes
  twice, each listed value is allowed, and there is no other name if the object is closed.
* `succeeds_record_iff`: a record accepts the objects that obey the rules its layout follows.

Levels do not run out where the depth of a document does not exceed them.
-/

namespace BlankLines

/-- A computation gives a value. -/
def Succeeds {ε α : Type} (r : Except ε α) : Prop :=
  ∃ a, r = .ok a

section
variable {ε α β : Type} {r : Except ε α}

@[simp] theorem succeeds_ok (a : α) : Succeeds (.ok a : Except ε α) :=
  ⟨a, rfl⟩

@[simp] theorem not_succeeds_error (e : ε) : ¬ Succeeds (.error e : Except ε α) := by
  rintro ⟨_, h⟩
  cases h

@[simp] theorem succeeds_map {g : α → β} : Succeeds (r.map g) ↔ Succeeds r := by
  cases r <;> simp [Except.map]

theorem succeeds_bind_iff {g : α → Except ε β} :
    Succeeds (r >>= g) ↔ ∃ a, r = .ok a ∧ Succeeds (g a) := by
  cases r <;> simp [bind, Except.bind]

end

namespace Json

variable {α σ τ : Type} {node : Node} {d : Document}

theorem not_succeeds_mismatch (wanted : String) (node : Node) :
    ¬ Succeeds (mismatch wanted node : Except Fault α) :=
  fun ⟨a, h⟩ => mismatch_ne_ok wanted node a h

/-! ### Numbers -/

/-- Digits are all absorbed exactly if their value stays within the limit. -/
theorem absorb_snd_eq_nil_iff {limit : Nat} (ds : List Char) {init : Nat} (h : init ≤ limit) :
    (absorb limit init ds).2 = [] ↔ Nat.ofDigitChars 10 ds init ≤ limit := by
  refine ⟨fun hnil => ?_, fun hle => by rw [absorb_ofDigitChars ds init hle]⟩
  induction ds generalizing init with
  | nil => simpa using h
  | cons d ds ih =>
      rw [absorb] at hnil
      split at hnil
      next hd =>
        rw [Nat.ofDigitChars_cons]
        exact ih hd hnil
      next => cases hnil

/-- A numeral is an unsigned 64-bit word: digits without a sign, a fraction or an exponent, and of
a value that such a word holds. -/
structure Numeral.IsWord (n : Numeral) : Prop where
  unsigned : n.minus = false
  whole : n.fraction = []
  plain : n.exponent = none
  fits : Nat.ofDigitChars 10 n.whole 0 ≤ 18446744073709551615

namespace Numeral

theorem integer_eq_natural_iff {minus : Bool} {n : Nat} :
    (∃ m, integer minus n = .natural m) ↔ minus = false := by
  cases minus with
  | false => simp [integer]
  | true =>
      rw [integer, if_neg (by decide)]
      split <;> simp [signed]

/-- Digits that are left over, a fraction or an exponent make a numeral a float. -/
theorem value_ne_natural {n : Numeral} {after : List Char} {m : UInt64}
    (h : ((absorb wordLimit 0 n.whole).2.isEmpty && n.fraction.isEmpty && n.exponent.isNone) =
      false) : n.value after ≠ .ok (.natural m) := by
  rw [value]
  simp only [h, Bool.false_eq_true, if_false]
  split
  · split <;> simp [signed]
  · split
    · split <;> simp [signed]
    · split <;> simp [signed]

/-- A numeral has a natural number for its value exactly if it is a word. -/
theorem value_eq_natural_iff {n : Numeral} {after : List Char} :
    (∃ m, n.value after = .ok (.natural m)) ↔ n.IsWord := by
  have hfits : (absorb wordLimit 0 n.whole).2 = [] ↔
      Nat.ofDigitChars 10 n.whole 0 ≤ 18446744073709551615 :=
    absorb_snd_eq_nil_iff n.whole (Nat.zero_le wordLimit)
  -- the test by which the reader tells integers from floats
  cases hplain : (absorb wordLimit 0 n.whole).2.isEmpty && n.fraction.isEmpty &&
      n.exponent.isNone with
  | false =>
      refine ⟨fun ⟨m, h⟩ => absurd h (value_ne_natural hplain), fun h => ?_⟩
      rw [hfits.mpr h.fits, h.whole, h.plain] at hplain
      cases hplain
  | true =>
      have hvalue : n.value after = .ok (integer n.minus (absorb wordLimit 0 n.whole).1) := by
        rw [value]
        simp only [hplain, if_true]
      simp only [Bool.and_eq_true, List.isEmpty_iff, Option.isNone_iff_eq_none] at hplain
      obtain ⟨⟨hdropped, hfraction⟩, hexponent⟩ := hplain
      simp only [hvalue, Except.ok.injEq, integer_eq_natural_iff]
      exact ⟨fun hm => ⟨hm, hfraction, hexponent, hfits.mp hdropped⟩, fun h => h.unsigned⟩

end Numeral

/-- A document is a number, and this is a word. -/
def Document.IsWord (d : Document) : Prop :=
  ∃ n, d = .number n ∧ n.IsWord

theorem succeeds_word_iff (h : node.Holds d) : Succeeds (word node) ↔ d.IsWord := by
  cases h with
  | number here after n =>
      have hn : (Document.number n).IsWord ↔ n.IsWord := by simp [Document.IsWord]
      rw [hn, ← @Numeral.value_eq_natural_iff n after]
      cases n.value after with
      | error f => simp [word, Except.map, not_succeeds_mismatch]
      | ok x => cases x <;> simp [word, Except.map, not_succeeds_mismatch]
  | _ => simp [word, not_succeeds_mismatch, Document.IsWord]

/-! ### Strings, names and null -/

theorem succeeds_text_iff {wanted : String} (h : node.Holds d) :
    Succeeds (text wanted node) ↔ ∃ s, d = .text s := by
  cases h with
  | number here after n =>
      cases n.value after <;> simp [text, Except.map, not_succeeds_mismatch]
  | text => simp [text]
  | _ => simp [text, not_succeeds_mismatch]

theorem succeeds_lookUp_iff {table : List (String × α)} {name : String} {after : List Char} :
    Succeeds (lookUp table name after) ↔ name ∈ table.map Prod.fst := by
  rw [lookUp]
  cases h : table.lookup name with
  | none =>
      have hne : ∀ a b, (a, b) ∈ table → name ≠ a := by simpa using h
      simpa using fun b hb => hne name b hb rfl
  | some a =>
      have hsome : (table.lookup name).isSome := by rw [h]; rfl
      simpa using hsome

/-- Of the documents that are no objects, names of the table are accepted. -/
theorem succeeds_choice_iff {levels : Nat} {table : List (String × α)} (h : node.Holds d)
    (hd : ∀ fs, d ≠ .object fs) :
    Succeeds (choice levels table node) ↔ ∃ s ∈ table.map Prod.fst, d = .text s := by
  cases h with
  | number here after n =>
      cases n.value after <;> simp [choice, Except.map]
  | text => simp [choice, succeeds_lookUp_iff]
  | object here h => exact absurd rfl (hd _)
  | _ => simp [choice]

theorem succeeds_nullable_iff {dec : Decoder α} (h : node.Holds d) :
    Succeeds (nullable dec node) ↔ d = .null ∨ Succeeds (dec node) := by
  have hmap : d ≠ .null → nullable dec node = (dec node).map some := by
    cases h with
    | null => exact fun hd => absurd rfl hd
    -- a number that no float holds has no value, and is not null either
    | number here after n => cases n.value after <;> exact fun _ => rfl
    | _ => exact fun _ => rfl
  by_cases hd : d = .null
  · subst hd
    cases h
    simp [nullable]
  · simp [hmap hd, hd]

/-! ### Lists -/

theorem succeeds_listItems_iff {dec : Decoder α} {allows : Document → Prop} {ds : List Document}
    {items : Items} (h : ItemsHold items ds)
    (hd : ∀ d ∈ ds, ∀ node : Node, node.Holds d → (Succeeds (dec node) ↔ allows d)) :
    Succeeds (listItems dec items) ↔ ∀ d ∈ ds, allows d := by
  induction ds generalizing items with
  | nil =>
      cases h
      simp [listItems, itemFault]
  | cons d ds ih =>
      cases h with
      | @item node rest _ _ hn hr =>
          have hfirst := hd d List.mem_cons_self node hn
          have hrest := ih hr fun e he => hd e (List.mem_cons_of_mem d he)
          simp only [listItems, succeeds_bind_iff, List.forall_mem_cons, ← hfirst, ← hrest]
          constructor
          · rintro ⟨a, ha, as, has, -⟩
            exact ⟨⟨a, ha⟩, as, has⟩
          · rintro ⟨⟨a, ha⟩, as, has⟩
            exact ⟨a, ha, as, has, succeeds_ok _⟩

/-- A list is accepted if its items are. -/
theorem succeeds_list_iff {levels : Nat} {dec : Decoder α} {allows : Document → Prop}
    (h : node.Holds d) (hdepth : d.depth ≤ levels)
    (hd : ∀ ds, d = .array ds → ∀ e ∈ ds, ∀ node : Node, node.Holds e →
      (Succeeds (dec node) ↔ allows e)) :
    Succeeds (list levels dec node) ↔ ∃ ds, d = .array ds ∧ ∀ e ∈ ds, allows e := by
  cases h with
  | @array here items ds hi =>
      have hlevels : levels ≠ 0 := by
        rw [Document.depth] at hdepth
        omega
      rw [list, if_neg hlevels, succeeds_listItems_iff hi (hd ds rfl)]
      simp
  | _ => simp [list, not_succeeds_mismatch]

/-! ### Records -/

/-- What is asked of one field of an object: its name, whether it has to be there, and the values
it may have. -/
structure FieldRule where
  name : String
  required : Bool
  allows : Document → Prop

/-- Fields obey rules.  Required fields are there; no field with a rule comes twice, and each has a
value its rule allows; in a closed object every field has a rule. -/
@[mk_iff]
structure Obeys (isClosed : Bool) (rules : List FieldRule) (fs : List (String × Document)) :
    Prop where
  present : ∀ r ∈ rules, r.required = true → ∃ v, (r.name, v) ∈ fs
  once : ∀ r ∈ rules, (fs.map Prod.fst).count r.name ≤ 1
  allowed : ∀ r ∈ rules, ∀ v, (r.name, v) ∈ fs → r.allows v
  known : isClosed = true → ∀ f ∈ fs, ∃ r ∈ rules, r.name = f.1

/-- An object whose fields obey rules. -/
def Document.IsRecord (isClosed : Bool) (rules : List FieldRule) (d : Document) : Prop :=
  ∃ fs, d = .object fs ∧ Obeys isClosed rules fs

/-- How often a field of a name has been read by the end of `fs`, once those that `isRead` names
have come before. -/
def timesRead (isRead : String → Bool) (fs : List (String × Document)) (name : String) : Nat :=
  (fs.map Prod.fst).count name + (isRead name).toNat

/-- Fields obey rules when those that `isRead` names have come before them. -/
structure ObeysFrom (isRead : String → Bool) (isClosed : Bool) (rules : List FieldRule)
    (fs : List (String × Document)) : Prop where
  present : ∀ r ∈ rules, r.required = true → isRead r.name = true ∨ ∃ v, (r.name, v) ∈ fs
  once : ∀ r ∈ rules, timesRead isRead fs r.name ≤ 1
  allowed : ∀ r ∈ rules, ∀ v, (r.name, v) ∈ fs → r.allows v
  known : isClosed = true → ∀ f ∈ fs, ∃ r ∈ rules, r.name = f.1

section
variable {isRead : String → Bool} {isClosed : Bool} {rules : List FieldRule}
  {fs : List (String × Document)} {name : String} {v : Document}

/-- Before the first field nothing has been read. -/
theorem obeysFrom_start_iff :
    ObeysFrom (fun _ => false) isClosed rules fs ↔ Obeys isClosed rules fs :=
  ⟨fun h => ⟨by simpa using h.present, by simpa [timesRead] using h.once, h.allowed, h.known⟩,
    fun h => ⟨by simpa using h.present, by simpa [timesRead] using h.once, h.allowed, h.known⟩⟩

/-- Behind the last field all that is required has been read. -/
theorem obeysFrom_nil_iff :
    ObeysFrom isRead isClosed rules [] ↔
      ∀ r ∈ rules, r.required = true → isRead r.name = true := by
  refine ⟨fun h r hr hreq => by simpa using h.present r hr hreq, fun h => ⟨?_, ?_, ?_, ?_⟩⟩
  · exact fun r hr hreq => .inl (h r hr hreq)
  · simpa [timesRead] using fun r _ => Bool.toNat_le _
  · simp
  · simp

/-- A field without a rule is passed over, or refused in a closed object. -/
theorem obeysFrom_cons_unlisted_iff (hname : ∀ r ∈ rules, r.name ≠ name) :
    ObeysFrom isRead isClosed rules ((name, v) :: fs) ↔
      isClosed = false ∧ ObeysFrom isRead isClosed rules fs := by
  have hmem : ∀ r ∈ rules, ∀ w, (r.name, w) ∈ (name, v) :: fs ↔ (r.name, w) ∈ fs := by
    intro r hr w
    simp [hname r hr]
  have htimes : ∀ r ∈ rules,
      timesRead isRead ((name, v) :: fs) r.name = timesRead isRead fs r.name := by
    intro r hr
    rw [timesRead, timesRead, List.map_cons, List.count_cons_of_ne (hname r hr).symm]
  constructor
  · intro h
    refine ⟨Bool.eq_false_iff.mpr fun hc => ?_, fun r hr hreq => ?_, fun r hr => ?_,
      fun r hr w hw => h.allowed r hr w ((hmem r hr w).mpr hw),
      fun hc f hf => h.known hc f (List.mem_cons_of_mem _ hf)⟩
    · obtain ⟨r, hr, hn⟩ := h.known hc _ List.mem_cons_self
      exact hname r hr hn
    · exact (h.present r hr hreq).imp_right fun ⟨w, hw⟩ => ⟨w, (hmem r hr w).mp hw⟩
    · exact htimes r hr ▸ h.once r hr
  · rintro ⟨hc, h⟩
    refine ⟨fun r hr hreq => ?_, fun r hr => ?_,
      fun r hr w hw => h.allowed r hr w ((hmem r hr w).mp hw), fun hc' => ?_⟩
    · exact (h.present r hr hreq).imp_right fun ⟨w, hw⟩ => ⟨w, (hmem r hr w).mpr hw⟩
    · exact (htimes r hr).symm ▸ h.once r hr
    · rw [hc] at hc'
      cases hc'

/-- A field that is met for the first time counts as read from then on. -/
theorem timesRead_cons (hread : isRead name = false) (n : String) :
    timesRead isRead ((name, v) :: fs) n = timesRead (fun n => n = name || isRead n) fs n := by
  rw [timesRead, timesRead, List.map_cons]
  by_cases hn : n = name
  · rw [hn, List.count_cons_self, hread]
    simp
  · rw [List.count_cons_of_ne (Ne.symm hn)]
    simp [hn]

/-- A field with a rule is not yet read and has a value the rule allows; it is read from then
on. -/
theorem obeysFrom_cons_listed_iff {r : FieldRule} (hr : r ∈ rules)
    (hnodup : (rules.map FieldRule.name).Nodup) :
    ObeysFrom isRead isClosed rules ((r.name, v) :: fs) ↔
      isRead r.name = false ∧ r.allows v ∧
        ObeysFrom (fun n => n = r.name || isRead n) isClosed rules fs := by
  have hunique : ∀ r' ∈ rules, r'.name = r.name → r' = r :=
    fun r' hr' h => List.inj_on_of_nodup_map hnodup hr' hr h
  have hpresent : ∀ n, (isRead n = true ∨ ∃ w, (n, w) ∈ (r.name, v) :: fs) ↔
      ((n = r.name || isRead n) = true ∨ ∃ w, (n, w) ∈ fs) := by
    intro n
    by_cases hn : n = r.name <;> simp [hn]
  constructor
  · intro h
    -- it comes now, so it has not come before
    have hread : isRead r.name = false := by
      have honce := h.once r hr
      rw [timesRead, List.map_cons, List.count_cons_self] at honce
      rw [← Bool.toNat_eq_zero]
      omega
    exact ⟨hread, h.allowed r hr v List.mem_cons_self,
      fun r' hr' hreq => (hpresent _).mp (h.present r' hr' hreq),
      fun r' hr' => timesRead_cons hread r'.name ▸ h.once r' hr',
      fun r' hr' w hw => h.allowed r' hr' w (List.mem_cons_of_mem _ hw),
      fun hc f hf => h.known hc f (List.mem_cons_of_mem _ hf)⟩
  · rintro ⟨hread, hv, h⟩
    refine ⟨fun r' hr' hreq => (hpresent _).mpr (h.present r' hr' hreq),
      fun r' hr' => (timesRead_cons hread r'.name).symm ▸ h.once r' hr',
      fun r' hr' w hw => ?_, fun hc f hf => ?_⟩
    · rcases List.mem_cons.mp hw with he | hw
      · obtain ⟨hn, rfl⟩ := Prod.mk.inj he
        rwa [hunique r' hr' hn]
      · exact h.allowed r' hr' w hw
    · rcases List.mem_cons.mp hf with rfl | hf
      · exact ⟨r, hr, rfl⟩
      · exact h.known hc f hf

end

/-! A layout and its rules. -/

/-- A layout follows rules, as far as `fs` goes: its parts have the names of the rules, in order;
those without a value of their own are required; and each accepts the values its rule allows. -/
inductive Layout.Follows (fs : List (String × Document)) :
    {σ τ : Type} → Layout σ τ → List FieldRule → Prop where
  | done : Follows fs .done []
  | part {α σ τ : Type} {p : Part α} {rest : Layout σ τ} {r : FieldRule} {rs : List FieldRule}
      (hn : r.name = p.name) (ha : r.required = p.absent.isNone)
      (hv : ∀ v, (p.name, v) ∈ fs → ∀ node : Node, node.Holds v →
        (Succeeds (p.decode node) ↔ r.allows v))
      (hr : Follows fs rest rs) : Follows fs (.part p rest) (r :: rs)

namespace Layout.Follows

variable {fs fs' : List (String × Document)} {l : Layout σ τ} {rules : List FieldRule}

theorem mono (h : l.Follows fs rules) (hfs : fs' ⊆ fs) : l.Follows fs' rules := by
  induction h with
  | done => exact .done
  | part hn ha hv _ ih => exact .part hn ha (fun v hm => hv v (hfs hm)) ih

theorem names_eq (h : l.Follows fs rules) : l.names = rules.map FieldRule.name := by
  induction h with
  | done => rfl
  | part hn _ _ _ ih => rw [Layout.names, List.map_cons, hn, ih]

/-- No other rule has the name of the first part. -/
theorem name_ne (h : l.Follows fs rules) {name : String} (hname : name ∉ l.names) {r : FieldRule}
    (hr : r ∈ rules) : name ≠ r.name := by
  rintro rfl
  exact hname (h.names_eq ▸ List.mem_map_of_mem hr)

/-- A part is read from a value that its rule allows. -/
theorem succeeds_put_iff (h : l.Follows fs rules) (hnodup : l.names.Nodup) {r : FieldRule}
    (hr : r ∈ rules) {v : Document} (hv : (r.name, v) ∈ fs) (hn : node.Holds v) (s : σ) :
    Succeeds (l.put r.name node s) ↔ r.allows v := by
  induction h with
  | done => cases hr
  | @part α σ τ p rest r' rs hname ha hallow hrest ih =>
      obtain ⟨hp, hnodup⟩ := List.nodup_cons.mp hnodup
      obtain ⟨slot, s⟩ := s
      rcases List.mem_cons.mp hr with rfl | hr
      · rw [Layout.put, if_pos hname.symm, succeeds_map]
        exact hallow v (hname ▸ hv) node hn
      · rw [Layout.put, if_neg (hrest.name_ne hp hr), succeeds_map]
        exact ih hnodup hr s

/-- A record is finished once its required parts are read. -/
theorem succeeds_finish_iff (h : l.Follows fs rules) (hnodup : l.names.Nodup) (s : σ) :
    Succeeds (l.finish s) ↔ ∀ r ∈ rules, r.required = true → l.isRead r.name s = true := by
  induction h with
  | done => simp [Layout.finish]
  | @part α σ τ p rest r rs hname ha hallow hrest ih =>
      obtain ⟨hp, hnodup⟩ := List.nodup_cons.mp hnodup
      obtain ⟨slot, s⟩ := s
      have hread : (Layout.part p rest).isRead r.name (slot, s) = slot.isSome := by
        rw [Layout.isRead, if_pos hname.symm]
      have hother : ∀ r' ∈ rs, (Layout.part p rest).isRead r'.name (slot, s) =
          rest.isRead r'.name s := by
        intro r' hr'
        rw [Layout.isRead, if_neg (hrest.name_ne hp hr')]
      have hrs : (∀ r' ∈ rs, r'.required = true →
          (Layout.part p rest).isRead r'.name (slot, s) = true) ↔ Succeeds (rest.finish s) := by
        rw [ih hnodup]
        exact forall₂_congr fun r' hr' => by rw [hother r' hr']
      rw [List.forall_mem_cons, hrs, hread, ha, Layout.finish]
      cases slot with
      | some a => simp
      | none => cases p.absent <;> simp

end Layout.Follows

theorem Layout.isRead_put_self {σ τ : Type} {name : String} : ∀ (l : Layout σ τ) {s s' : σ},
    name ∈ l.names → l.put name node s = .ok s' → l.isRead name s' = true
  | .part p rest, (slot, s), s', hn, h => by
      rw [put] at h
      split at h
      next hp =>
        obtain ⟨a, -, rfl⟩ := map_eq_ok_iff.mp h
        rw [isRead, if_pos hp]
        rfl
      next hp =>
        obtain ⟨s'', hs, rfl⟩ := map_eq_ok_iff.mp h
        rw [isRead, if_neg hp]
        exact rest.isRead_put_self ((List.mem_cons.mp hn).resolve_left (Ne.symm hp)) hs

/-- The parts that are read once one more is. -/
theorem Layout.isRead_put_eq {l : Layout σ τ} {s s' : σ} {name : String} (hn : name ∈ l.names)
    (h : l.put name node s = .ok s') :
    (l.isRead · s') = fun n => n = name || l.isRead n s := by
  funext n
  by_cases he : n = name
  · rw [he, l.isRead_put_self hn h]
    simp
  · rw [l.isRead_put (Ne.symm he) h]
    simp [he]

/-- A field that no part has the name of is passed over, or refused in a closed record. -/
theorem recordFields_unlisted {l : Layout σ τ} {key : Key} {name : String} {rest : Fields}
    (hk : key.name = .ok name) (hn : name ∉ l.names) (hskip : node.skip = none)
    (isClosed : Bool) (s : σ) :
    recordFields l isClosed (.field key node rest) s =
      if isClosed then .error (keyFault (.unknownField name l.names) key.after)
      else recordFields l isClosed rest s := by
  cases isClosed <;>
    simp [recordFields, fieldName, hk, Layout.refuses, hn, hskip, bind, Except.bind, pure,
      Except.pure, throw, throwThe, MonadExceptOf.throw]

/-- **The fields of a record are accepted exactly if they obey the rules of its layout**, from any
state on. -/
theorem succeeds_recordFields_iff {l : Layout σ τ} {rules : List FieldRule}
    {fs : List (String × Document)} (hl : l.Follows fs rules) (hnodup : l.names.Nodup)
    (isClosed : Bool) {fields : Fields} (hf : FieldsHold fields fs) (s : σ) :
    Succeeds (recordFields l isClosed fields s) ↔
      ObeysFrom (l.isRead · s) isClosed rules fs := by
  -- along the fields; the state has the fields that came before
  induction fs generalizing fields s with
  | nil =>
      cases hf with
      | closed after =>
          rw [obeysFrom_nil_iff, ← hl.succeeds_finish_iff hnodup, recordFields]
          cases l.finish s <;> simp
  | cons f fs ih =>
      cases hf with
      | @field key node rest name v _ hk hs hv hr =>
          have hrest : ∀ s, Succeeds (recordFields l isClosed rest s) ↔
              ObeysFrom (l.isRead · s) isClosed rules fs :=
            ih (hl.mono (List.subset_cons_self _ _)) hr
          by_cases hn : name ∈ l.names
          · obtain ⟨r, hrule, rfl⟩ := List.mem_map.mp (hl.names_eq ▸ hn)
            have hput := hl.succeeds_put_iff hnodup hrule List.mem_cons_self hv s
            rw [obeysFrom_cons_listed_iff hrule (hl.names_eq ▸ hnodup), recordFields_field hk hn]
            cases hread : l.isRead r.name s with
            | true => simp
            | false =>
                simp only [Bool.false_eq_true, if_false, succeeds_bind_iff, true_and, ← hput]
                constructor
                · rintro ⟨s', hs', h⟩
                  exact ⟨⟨s', hs'⟩, Layout.isRead_put_eq hn hs' ▸ (hrest s').mp h⟩
                · rintro ⟨⟨s', hs'⟩, h⟩
                  exact ⟨s', hs', (hrest s').mpr (Layout.isRead_put_eq hn hs' ▸ h)⟩
          · have hname : ∀ r ∈ rules, r.name ≠ name := fun r hr => (hl.name_ne hn hr).symm
            rw [obeysFrom_cons_unlisted_iff hname, recordFields_unlisted hk hn hv.skip_eq]
            cases isClosed with
            | true => simp
            | false => simpa using hrest s

/-- **A record accepts the objects that obey the rules its layout follows**, and of the other
documents arrays at most. -/
theorem succeeds_record_iff {levels : Nat} {name : String} {isClosed : Bool} {l : Layout σ τ}
    {rules : List FieldRule} (h : node.Holds d) (hdepth : d.depth ≤ levels)
    (harray : ∀ ds, d ≠ .array ds) (hl : ∀ fs, d = .object fs → l.Follows fs rules)
    (hnodup : l.names.Nodup) :
    Succeeds (record levels name isClosed l node) ↔ d.IsRecord isClosed rules := by
  cases h with
  | @object here fields fs hf =>
      have hlevels : levels ≠ 0 := by
        rw [Document.depth] at hdepth
        omega
      have hstart : (l.isRead · l.start) = fun _ => false := funext l.isRead_start
      rw [record, if_neg hlevels, succeeds_recordFields_iff (hl fs rfl) hnodup isClosed hf,
        hstart, obeysFrom_start_iff]
      simp [Document.IsRecord]
  | array => exact absurd rfl (harray _)
  | _ => simp [record, not_succeeds_mismatch, Document.IsRecord]

end Json

end BlankLines
