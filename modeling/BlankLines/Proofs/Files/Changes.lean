import BlankLines.Files.Memory

/-!
# Proofs — Files — what an entry put in place changes

A run changes a file system by putting an entry where names lead, in a directory that is there: an
empty directory where nothing was, or a file.  Here is what such a change leaves as it was.

* `get?_set_self`, `get?_set`: what every list of names leads to afterwards.
* `filter_files_set`: a walk meets the same files, but for the one that was put.
* `Kept`: directories stay, and so do files and what a walk meets, one file apart; `kept_set` is the
  step, `Kept.refl` and `Kept.trans` make runs of it.
-/

namespace BlankLines.Entry

/-! ### Names that lead on -/

theorem get?_append (ms ns : List String) (e : Entry) :
    e.get? (ms ++ ns) = (e.get? ms).bind (get? ns) := by
  induction ms generalizing e with
  | nil => rfl
  | cons m ms ih =>
      cases e with
      | file content => rfl
      | directory entries =>
          simp only [List.cons_append, get?]
          cases entries.lookup m with
          | none => rfl
          | some inner => exact ih inner

/-- A name leads on only from a directory. -/
theorem get?_cons_eq_some {name : String} {rest : List String} {e a : Entry} :
    e.get? (name :: rest) = some a ↔
      ∃ entries inner, e = .directory entries ∧ entries.lookup name = some inner ∧
        inner.get? rest = some a := by
  cases e with
  | file content => simp [get?]
  | directory entries => simp [get?, Option.bind_eq_some_iff]

/-! ### A named value -/

theorem lookup_cons_eq {α : Type} (n k : String) (a : α) (l : List (String × α)) :
    ((k, a) :: l).lookup n = if n = k then some a else l.lookup n := by
  by_cases h : n = k
  · simp [h]
  · simp [List.lookup_cons, h, beq_false_of_ne h]

theorem lookup_setNamed {α : Type} (name : String) (f : Option α → α) (l : List (String × α))
    (n : String) :
    (setNamed name f l).lookup n = if n = name then some (f (l.lookup name)) else l.lookup n := by
  induction l with
  | nil => simp [setNamed, lookup_cons_eq]
  | cons entry rest ih =>
      obtain ⟨k, a⟩ := entry
      by_cases hk : k = name
      · subst hk
        by_cases h : n = k <;> simp [setNamed, lookup_cons_eq, h]
      · rw [setNamed, if_neg hk, lookup_cons_eq, lookup_cons_eq, lookup_cons_eq, ih,
          if_neg (Ne.symm hk)]
        by_cases h : n = k
        · simp [h, hk]
        · simp [h]

theorem setNamed_setNamed {α : Type} (name : String) (f g : Option α → α)
    (l : List (String × α)) :
    setNamed name f (setNamed name g l) = setNamed name (fun old => f (some (g old))) l := by
  induction l with
  | nil => simp [setNamed]
  | cons entry rest ih =>
      obtain ⟨k, a⟩ := entry
      by_cases hk : k = name <;> simp [setNamed, hk, ih]

/-- What is put takes the place of what was put there before. -/
theorem set_set (new old : Entry) (ns : List String) (e : Entry) :
    set new ns (set old ns e) = set new ns e := by
  induction ns generalizing e with
  | nil => rfl
  | cons n ns ih =>
      cases e with
      | file content => rfl
      | directory entries =>
          simp only [set, setNamed_setNamed, Option.getD_some, ih]

/-! ### What names lead to after a change -/

variable {new e : Entry} {ms : List String} {n : String} {entries : List (String × Entry)}

/-- The names of what was put lead to it. -/
theorem get?_set_self (h : e.get? ms = some (.directory entries)) :
    (set new (ms ++ [n]) e).get? (ms ++ [n]) = some new := by
  induction ms generalizing e with
  | nil =>
      obtain rfl : e = .directory entries := Option.some.inj h
      simp [set, get?, lookup_setNamed]
  | cons m ms ih =>
      obtain ⟨es, inner, rfl, hinner, hms⟩ := get?_cons_eq_some.1 h
      simp only [List.cons_append, set, get?, lookup_setNamed, hinner, if_true, Option.getD_some,
        Option.bind_some]
      exact ih hms

/-- Names that led to something lead on: to the same, or on the way to what was put to the same
with that put in it.  Only what took its place is out of reach, so a directory may not be there. -/
theorem get?_set (new : Entry) (h : e.get? ms = some (.directory entries))
    (hn : ∀ es, e.get? (ms ++ [n]) ≠ some (.directory es)) {rs : List String} {a : Entry}
    (ha : e.get? rs = some a) (hrs : rs ≠ ms ++ [n]) :
    (set new (ms ++ [n]) e).get? rs = some a ∨
      ∃ ts, ms = rs ++ ts ∧ (set new (ms ++ [n]) e).get? rs = some (set new (ts ++ [n]) a) := by
  induction ms generalizing e rs with
  | nil =>
      obtain rfl : e = .directory entries := Option.some.inj h
      cases rs with
      | nil =>
          obtain rfl : Entry.directory entries = a := Option.some.inj ha
          exact .inr ⟨[], rfl, rfl⟩
      | cons r rs =>
          obtain ⟨es, inner, hes, hinner, hr⟩ := get?_cons_eq_some.1 ha
          cases hes
          by_cases hrn : r = n
          · subst hrn
            -- what stood there leads on, so it was a directory
            cases rs with
            | nil => exact absurd rfl hrs
            | cons r' rs =>
                obtain ⟨es', -, rfl, -⟩ := get?_cons_eq_some.1 hr
                exact absurd (get?_cons_eq_some.2 ⟨_, _, rfl, hinner, rfl⟩) (hn es')
          · refine .inl ?_
            simp [set, get?, lookup_setNamed, hrn, hinner, hr]
  | cons m ms ih =>
      obtain ⟨es, inner, rfl, hinner, hms⟩ := get?_cons_eq_some.1 h
      have hset : set new (m :: ms ++ [n]) (.directory es) =
          .directory (setNamed m (fun old => set new (ms ++ [n]) (old.getD (.directory []))) es) :=
        rfl
      cases rs with
      | nil =>
          obtain rfl : Entry.directory es = a := Option.some.inj ha
          exact .inr ⟨m :: ms, rfl, rfl⟩
      | cons r rs =>
          obtain ⟨es', inner', hes, hinner', hr⟩ := get?_cons_eq_some.1 ha
          cases hes
          by_cases hrm : r = m
          · subst hrm
            obtain rfl : inner = inner' := Option.some.inj (hinner.symm.trans hinner')
            have hstep : (set new (r :: ms ++ [n]) (.directory es)).get? (r :: rs) =
                (set new (ms ++ [n]) inner).get? rs := by
              rw [hset]
              simp [get?, lookup_setNamed, hinner]
            rw [hstep]
            have hn' : ∀ es, inner.get? (ms ++ [n]) ≠ some (.directory es) := fun es' h' =>
              hn es' (get?_cons_eq_some.2 ⟨_, _, rfl, hinner, h'⟩)
            have hrs' : rs ≠ ms ++ [n] := fun h' => hrs (by rw [h']; rfl)
            rcases ih hms hn' hr hrs' with hsame | ⟨ts, hts, hput⟩
            · exact .inl hsame
            · exact .inr ⟨ts, by rw [hts]; rfl, hput⟩
          · refine .inl ?_
            rw [hset]
            simp [get?, lookup_setNamed, hrm, hinner', hr]

/-! ### What a walk meets after a change -/

theorem filter_filesOfAll_setNamed {q : List String × Path → Bool} {base : List String}
    {path : Path} {name : String} {f : Option Entry → Entry} {l : List (String × Entry)}
    (h : ((f (l.lookup name)).files (base ++ [name]) (path.join ⟨name⟩)).filter q =
      ((l.lookup name).elim [] (files (base ++ [name]) (path.join ⟨name⟩))).filter q) :
    (filesOfAll base path (setNamed name f l)).filter q = (filesOfAll base path l).filter q := by
  induction l with
  | nil => simpa [setNamed, filesOfAll, filesOfNamed] using h
  | cons entry rest ih =>
      obtain ⟨k, a⟩ := entry
      rw [lookup_cons_eq] at h
      by_cases hk : k = name
      · subst hk
        rw [if_pos rfl] at h
        simp only [setNamed, if_true, filesOfAll, filesOfNamed, List.filter_append, h,
          Option.elim_some]
      · rw [if_neg (Ne.symm hk)] at h
        simp only [setNamed, if_neg hk, filesOfAll, List.filter_append, ih h]

/-- A walk meets what it met, if it meets what it met where the change is. -/
theorem filter_files_set {q : List String × Path → Bool} {base : List String}
    (h : e.get? ms = some (.directory entries))
    (hleaf : ∀ path, (files (base ++ (ms ++ [n])) path new).filter q =
      ((e.get? (ms ++ [n])).elim [] (files (base ++ (ms ++ [n])) path)).filter q) (path : Path) :
    ((set new (ms ++ [n]) e).files base path).filter q = (e.files base path).filter q := by
  induction ms generalizing e base path with
  | nil =>
      obtain rfl : e = .directory entries := Option.some.inj h
      simp only [List.nil_append, get?] at hleaf
      simp only [List.nil_append, set, files]
      refine filter_filesOfAll_setNamed ((hleaf _).trans ?_)
      cases entries.lookup n <;> rfl
  | cons m ms ih =>
      obtain ⟨es, inner, rfl, hinner, hms⟩ := get?_cons_eq_some.1 h
      simp only [List.cons_append, set, files]
      refine filter_filesOfAll_setNamed ?_
      simp only [hinner, Option.getD_some, Option.elim_some]
      refine ih hms (fun path => ?_) _
      simpa [get?, hinner] using hleaf path

/-! ### What stays -/

/-- What a change leaves as it was, the file that `o` leads to apart: directories stay, files keep
their contents, and walks meet the same files. -/
structure Kept (o : List String) (e e' : Entry) : Prop where
  directory : ∀ rs es, e.get? rs = some (.directory es) → ∃ es', e'.get? rs = some (.directory es')
  file : ∀ rs c, e.get? rs = some (.file c) →
    ∃ c', e'.get? rs = some (.file c') ∧ (rs ≠ o → c' = c)
  files : ∀ rs a a' path, e.get? rs = some a → e'.get? rs = some a' →
    (a'.files [] path).filter (fun x => rs ++ x.1 ≠ o) =
      (a.files [] path).filter (fun x => rs ++ x.1 ≠ o)

namespace Kept

variable {o : List String} {e' e'' : Entry}

theorem refl (o : List String) (e : Entry) : Kept o e e where
  directory := fun _ es h => ⟨es, h⟩
  file := fun _ c h => ⟨c, h, fun _ => rfl⟩
  files := fun rs a a' path h h' => by
    obtain rfl : a = a' := Option.some.inj (h.symm.trans h')
    rfl

/-- What leads to something leads to something of its kind. -/
theorem exists_get? (h : Kept o e e') {rs : List String} {a : Entry} (ha : e.get? rs = some a) :
    ∃ a', e'.get? rs = some a' := by
  cases a with
  | directory es =>
      obtain ⟨es', h'⟩ := h.directory rs es ha
      exact ⟨_, h'⟩
  | file c =>
      obtain ⟨c', h', -⟩ := h.file rs c ha
      exact ⟨_, h'⟩

theorem trans (h : Kept o e e') (h' : Kept o e' e'') : Kept o e e'' where
  directory := fun rs es hes => by
    obtain ⟨es', hes'⟩ := h.directory rs es hes
    exact h'.directory rs es' hes'
  file := fun rs c hc => by
    obtain ⟨c', hc', hsame⟩ := h.file rs c hc
    obtain ⟨c'', hc'', hsame'⟩ := h'.file rs c' hc'
    exact ⟨c'', hc'', fun hne => (hsame' hne).trans (hsame hne)⟩
  files := fun rs a a'' path ha ha'' => by
    obtain ⟨a', ha'⟩ := h.exists_get? ha
    exact (h'.files rs a' a'' path ha' ha'').trans (h.files rs a a' path ha ha')

end Kept

/-- **One change.**  An empty directory is put where nothing was, or a file where no directory was,
each in a directory that is there: all stays, but the file. -/
theorem kept_set {o : List String} (h : e.get? ms = some (.directory entries))
    (hn : ∀ es, e.get? (ms ++ [n]) ≠ some (.directory es))
    (hnew : new = .directory [] ∧ e.get? (ms ++ [n]) = none ∨
      ∃ c, new = .file c ∧ ms ++ [n] = o) :
    Kept o e (set new (ms ++ [n]) e) where
  directory := fun rs es hes => by
    have hrs : rs ≠ ms ++ [n] := fun h' => hn es (h' ▸ hes)
    rcases get?_set new h hn hes hrs with hsame | ⟨ts, -, hput⟩
    · exact ⟨es, hsame⟩
    · cases ts <;> exact ⟨_, hput⟩
  file := fun rs c hc => by
    by_cases hrs : rs = ms ++ [n]
    · subst hrs
      rcases hnew with ⟨-, hnone⟩ | ⟨c', rfl, ho⟩
      · rw [hnone] at hc
        cases hc
      · exact ⟨c', get?_set_self h, fun hne => absurd ho hne⟩
    · rcases get?_set new h hn hc hrs with hsame | ⟨ts, hts, -⟩
      · exact ⟨c, hsame, fun _ => rfl⟩
      · -- nothing is on the way below a file
        rw [hts, get?_append, hc] at h
        cases ts <;> cases h
  files := fun rs a a' path ha ha' => by
    by_cases hrs : rs = ms ++ [n]
    · subst hrs
      rcases hnew with ⟨-, hnone⟩ | ⟨c', rfl, ho⟩
      · rw [hnone] at ha
        cases ha
      · obtain rfl : .file c' = a' := Option.some.inj ((get?_set_self h).symm.trans ha')
        cases a with
        | directory es => exact absurd ha (hn es)
        | file c => simp [files, ho]
    · rcases get?_set new h hn ha hrs with hsame | ⟨ts, hts, hput⟩
      · obtain rfl : a = a' := Option.some.inj (hsame.symm.trans ha')
        rfl
      · obtain rfl := Option.some.inj (hput.symm.trans ha')
        subst hts
        have hat : a.get? ts = some (.directory entries) := by
          rw [get?_append, ha] at h
          exact h
        have hleaf : e.get? (rs ++ ts ++ [n]) = a.get? (ts ++ [n]) := by
          rw [List.append_assoc, get?_append, ha]
          rfl
        rw [hleaf] at hn hnew
        refine filter_files_set hat (fun path => ?_) path
        rcases hnew with ⟨rfl, hnone⟩ | ⟨c', rfl, ho⟩
        · simp [hnone, files, filesOfAll]
        · rw [List.append_assoc] at ho
          cases hold : a.get? (ts ++ [n]) with
          | none => simp [files, ho]
          | some old =>
              cases old with
              | directory es => exact absurd hold (hn es)
              | file c => simp [files, ho]

end BlankLines.Entry
