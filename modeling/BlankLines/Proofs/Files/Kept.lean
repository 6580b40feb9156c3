import BlankLines.Proofs.Files.Changes
import BlankLines.Proofs.Files.Resolve
import BlankLines.Proofs.Files.Walk

/-!
# Proofs — Files — looking at a changed file system

A file system that was changed by putting things into it answers most questions as before.

* `Kept`: all that was there is there, the file at one place apart; `kept_put` is one change.
* `Kept.locate`, `Kept.isPresent`, `Kept.readText`: a path that led somewhere leads there still.
* `Kept.filter_filesUnder`: a walk finds the same files, as far as it does not take the one.
-/

namespace BlankLines

namespace FileSystem

/-! ### Paths after a change -/

/-- Names are followed through directories, and these stay. -/
theorem follow_of_kept {o : List String} {root root' : Entry} (hk : Entry.Kept o root root')
    {ps : List (List Char)} {dir : List String} {l : Location} (h : follow root dir ps = .ok l) :
    follow root' dir ps = .ok ⟨l.names, root'.get? l.names, l.slash⟩ := by
  induction ps generalizing dir with
  | nil =>
      cases h
      rfl
  | cons piece rest ih =>
      simp only [follow] at h ⊢
      split at h
      next hskip => rw [if_pos hskip, ih h]
      next hskip =>
        rw [if_neg hskip]
        split at h
        next hup => rw [if_pos hup, ih h]
        next hup =>
          rw [if_neg hup]
          split at h
          next hall =>
            cases h
            rw [if_pos hall]
          next hall =>
            rw [if_neg hall]
            split at h
            · cases h
            · cases h
            next es hes =>
              -- what was entered can be entered still, so the names stay those of the path
              obtain ⟨es', hes'⟩ := hk.directory _ es hes
              rw [hes']
              exact ih h

/-- The directory above a directory. -/
theorem exists_directory_tail {root : Entry} {dir : List String} {es : List (String × Entry)}
    (h : root.get? dir.reverse = some (.directory es)) :
    ∃ es', root.get? dir.tail.reverse = some (.directory es') := by
  cases dir with
  | nil => exact ⟨es, h⟩
  | cons d dir =>
      rw [List.reverse_cons, Entry.get?_append, Option.bind_eq_some_iff] at h
      obtain ⟨a, ha, hd⟩ := h
      obtain ⟨es', -, rfl, -⟩ := Entry.get?_cons_eq_some.1 hd
      exact ⟨es', ha⟩

/-- A path leads to a directory, or to a place in one. -/
theorem directory_or_parent_of_follow {root : Entry} {ps : List (List Char)} {dir : List String}
    {l : Location} {es : List (String × Entry)}
    (hdir : root.get? dir.reverse = some (.directory es)) (h : follow root dir ps = .ok l) :
    (∃ es', root.get? l.names = some (.directory es')) ∨
      ∃ ms n es', l.names = ms ++ [n] ∧ root.get? ms = some (.directory es') := by
  induction ps generalizing dir es with
  | nil =>
      cases h
      exact .inl ⟨es, hdir⟩
  | cons piece rest ih =>
      simp only [follow] at h
      split at h
      · exact ih hdir h
      · split at h
        · obtain ⟨es', hes'⟩ := exists_directory_tail hdir
          exact ih hes' h
        · split at h
          · cases h
            exact .inr ⟨dir.reverse, String.ofList piece, es, List.reverse_cons, hdir⟩
          · split at h
            · cases h
            · cases h
            next es' hes' => exact ih hes' h

/-- The root is a directory. -/
def Rooted (fs : FileSystem) : Prop :=
  ∃ es, fs.root = .directory es

theorem parent_of_locate {fs : FileSystem} (hr : fs.Rooted) {p : Path} {l : Location}
    (h : fs.locate p = .ok l) (hl : ∀ es, l.entry ≠ some (.directory es)) :
    ∃ ms n es, l.names = ms ++ [n] ∧ fs.root.get? ms = some (.directory es) := by
  obtain ⟨es, hes⟩ := hr
  have hentry := (names_of_locate h).2
  unfold locate at h
  split at h
  · cases h
  · split at h
    · cases h
    · have hroot : fs.root.get? ([] : List String).reverse = some (.directory es) :=
        congrArg some hes
      rcases directory_or_parent_of_follow hroot h with ⟨es', hes'⟩ | hparent
      · exact absurd (hentry.trans hes') (hl es')
      · exact hparent

/-- What a change of a file system leaves as it was, the file that `o` leads to apart. -/
structure Kept (o : List String) (fs fs' : FileSystem) : Prop where
  current : fs'.current = fs.current
  config : fs'.config = fs.config
  root : Entry.Kept o fs.root fs'.root

theorem isDirectory_iff {fs : FileSystem} {p : Path} :
    fs.isDirectory p = true ↔
      ∃ names es slash, fs.locate p = .ok ⟨names, some (.directory es), slash⟩ := by
  unfold isDirectory
  split
  next names es slash hl => simp [hl]
  next hl => simpa using fun names es slash h => hl names es slash h

namespace Kept

variable {o : List String} {fs fs' fs'' : FileSystem}

theorem refl (o : List String) (fs : FileSystem) : Kept o fs fs :=
  ⟨rfl, rfl, .refl o fs.root⟩

theorem trans (h : Kept o fs fs') (h' : Kept o fs' fs'') : Kept o fs fs'' :=
  ⟨h'.current.trans h.current, h'.config.trans h.config, h.root.trans h'.root⟩

theorem rooted (h : Kept o fs fs') (hr : fs.Rooted) : fs'.Rooted := by
  obtain ⟨es, hes⟩ := hr
  obtain ⟨es', hes'⟩ := h.root.directory [] es (by rw [hes]; rfl)
  exact ⟨es', Option.some.inj hes'⟩

/-- A path that led somewhere leads there still. -/
theorem locate (h : Kept o fs fs') {p : Path} {l : Location} (hl : fs.locate p = .ok l) :
    fs'.locate p = .ok ⟨l.names, fs'.root.get? l.names, l.slash⟩ := by
  unfold FileSystem.locate at hl ⊢
  rw [h.current]
  split at hl
  · cases hl
  next hnul =>
    rw [if_neg hnul]
    split at hl
    · cases hl
    next hempty =>
      rw [if_neg hempty]
      exact follow_of_kept h.root hl

theorem isDirectory (h : Kept o fs fs') {p : Path} (hp : fs.isDirectory p = true) :
    fs'.isDirectory p = true := by
  obtain ⟨names, es, slash, hl⟩ := isDirectory_iff.1 hp
  obtain ⟨es', hes'⟩ := h.root.directory names es (names_of_locate hl).2.symm
  have hl' := h.locate hl
  simp only [hes'] at hl'
  exact isDirectory_iff.2 ⟨names, es', slash, hl'⟩

end Kept

/-! ### What a path leads to after a change -/

theorem isPresent_iff {fs : FileSystem} {p : Path} :
    fs.isPresent p = true ↔
      ∃ names e slash, fs.locate p = .ok ⟨names, some e, slash⟩ ∧
        ∀ c, e = .file c → slash = false := by
  unfold isPresent
  constructor
  · intro h
    split at h
    next names c slash hl => exact ⟨names, .file c, slash, hl, fun _ _ => by simpa using h⟩
    next names es slash hl => exact ⟨names, .directory es, slash, hl, fun c hc => by cases hc⟩
    next => cases h
  · rintro ⟨names, e, slash, hl, hs⟩
    rw [hl]
    cases e with
    | file c =>
        obtain rfl := hs c rfl
        rfl
    | directory es => rfl

/-- The text of what a path leads to. -/
def textOf : Entry → Except IoFault String
  | .directory _  => .error .isDirectory
  | .file content =>
    match String.fromUTF8? content with
    | some text => .ok text
    | none      => .error .notText

theorem readText_eq {fs : FileSystem} {p : Path} {names : List String} {e : Entry} {slash : Bool}
    (hl : fs.locate p = .ok ⟨names, some e, slash⟩) (hs : ∀ c, e = .file c → slash = false) :
    fs.readText p = textOf e := by
  unfold readText
  rw [hl]
  cases e with
  | directory es => rfl
  | file c =>
      obtain rfl := hs c rfl
      rfl

/-- A text that can be read is there. -/
theorem isPresent_of_readText {fs : FileSystem} {p : Path} {text : String}
    (h : fs.readText p = .ok text) : fs.isPresent p = true := by
  unfold readText at h
  cases hl : fs.locate p with
  | error f =>
      rw [hl] at h
      cases h
  | ok l =>
      obtain ⟨names, entry, slash⟩ := l
      rw [hl] at h
      refine isPresent_iff.2 ?_
      rcases entry with _ | ⟨c | es⟩
      · cases h
      · cases slash
        · exact ⟨names, .file c, false, hl, fun _ _ => rfl⟩
        · cases h
      · cases h

/-- Two file systems answer alike when they are asked for a path. -/
structure Alike (fs fs' : FileSystem) (p : Path) : Prop where
  isPresent : fs'.isPresent p = fs.isPresent p
  readText : (fs'.readText p).toOption = (fs.readText p).toOption

namespace Kept

variable {o : List String} {fs fs' : FileSystem} {p : Path}

theorem isPresent (h : Kept o fs fs') (hp : fs.isPresent p = true) : fs'.isPresent p = true := by
  obtain ⟨names, e, slash, hl, hs⟩ := isPresent_iff.1 hp
  have hentry := (names_of_locate hl).2.symm
  have hl' := h.locate hl
  cases e with
  | directory es =>
      obtain ⟨es', hes'⟩ := h.root.directory names es hentry
      simp only [hes'] at hl'
      exact isPresent_iff.2 ⟨names, _, slash, hl', fun c hc => by cases hc⟩
  | file c =>
      obtain ⟨c', hc', -⟩ := h.root.file names c hentry
      simp only [hc'] at hl'
      exact isPresent_iff.2 ⟨names, _, slash, hl', fun _ _ => hs c rfl⟩

/-- What was there reads as before, unless it is the one file. -/
theorem readText (h : Kept o fs fs') (hp : fs.isPresent p = true) (ho : fs'.fileAt? p ≠ some o) :
    fs'.readText p = fs.readText p := by
  obtain ⟨names, e, slash, hl, hs⟩ := isPresent_iff.1 hp
  have hentry := (names_of_locate hl).2.symm
  have hl' := h.locate hl
  rw [readText_eq hl hs]
  cases e with
  | directory es =>
      obtain ⟨es', hes'⟩ := h.root.directory names es hentry
      simp only [hes'] at hl'
      exact (readText_eq hl' fun c hc => by cases hc).trans rfl
  | file c =>
      obtain ⟨c', hc', hsame⟩ := h.root.file names c hentry
      obtain rfl := hs c rfl
      simp only [hc'] at hl'
      have hne : names ≠ o := fun heq => ho (by simp [fileAt?, hl', heq])
      rw [hsame hne] at hl'
      exact readText_eq hl' fun _ _ => rfl

/-- A path that leads to the one file neither before nor after, and to nothing new. -/
theorem alike (h : Kept o fs fs') (ho : fs'.fileAt? p ≠ some o)
    (hnew : fs'.isPresent p = true → fs.isPresent p = true) : Alike fs fs' p := by
  by_cases hp : fs.isPresent p = true
  · exact ⟨(h.isPresent hp).trans hp.symm, by rw [h.readText hp ho]⟩
  · have hp' : ¬ fs'.isPresent p = true := fun hp' => hp (hnew hp')
    have hnone : ∀ gs : FileSystem, ¬ gs.isPresent p = true →
        (gs.readText p).toOption = none := fun gs hgs => by
      cases hr : gs.readText p with
      | error f => rfl
      | ok text => exact absurd (isPresent_of_readText hr) hgs
    exact ⟨by rw [Bool.eq_false_iff.2 hp, Bool.eq_false_iff.2 hp'],
      by rw [hnone fs hp, hnone fs' hp']⟩

end Kept

/-! ### A walk after a change -/

/-- The files at or below a path: the names, from the root on, that lead to each, and the path it is
met under. -/
def filesMet (fs : FileSystem) (path : Path) : List (List String × Path) :=
  match fs.locate path with
  | .ok ⟨names, some e, _⟩ => (e.files [] path).map fun x => (names ++ x.1, x.2)
  | _                      => []

/-- **A walk after a change.**  A walk from what was there finds the same files, as long as it does
not take the one file where it meets it. -/
theorem Kept.filter_filesUnder {o : List String} {fs fs' : FileSystem} (h : Kept o fs fs')
    {c : ByteArray} (ho : fs'.root.get? o = some (.file c)) {root : Path}
    (hroot : fs.isPresent root = true) {q : Path → Bool}
    (hq : ∀ x ∈ fs'.filesMet root, q x.2 = true → x.1 ≠ o) :
    (fs'.filesUnder root).filter q = (fs.filesUnder root).filter q := by
  obtain ⟨names, e, slash, hl, -⟩ := isPresent_iff.1 hroot
  have he : fs.root.get? names = some e := (names_of_locate hl).2.symm
  obtain ⟨e', he'⟩ := h.root.exists_get? he
  have hl' := h.locate hl
  simp only [he'] at hl'
  have hmet : ∀ x ∈ e'.files [] root, q x.2 = true → names ++ x.1 ≠ o := fun x hx =>
    hq (names ++ x.1, x.2) (by
      unfold filesMet
      rw [hl']
      exact List.mem_map_of_mem hx)
  -- a file that leads to `o` is met after the change, wherever it was met before
  have hmet' : ∀ x ∈ e.files [] root, q x.2 = true → names ++ x.1 ≠ o := fun x hx hqx heq => by
    obtain ⟨ns, rfl⟩ := Entry.exists_of_mem_files e [] root x hx
    rw [List.nil_append] at heq
    rw [← heq, Entry.get?_append, he'] at ho
    exact hmet _ (Entry.mem_files_of_get? ho [] root) hqx heq
  have hfiles : (e'.files [] root).filter (fun x => q x.2) =
      (e.files [] root).filter (fun x => q x.2) := by
    have hkept := congrArg (List.filter fun x => q x.2) (h.root.files names e e' root he he')
    rw [List.filter_filter, List.filter_filter] at hkept
    refine Eq.trans (List.filter_congr fun x hx => ?_)
      (hkept.trans (List.filter_congr fun x hx => ?_))
    · simpa using hmet x hx
    · simpa using hmet' x hx
  have hwalk := Entry.filter_inOrder_eq (fun _ hx _ hy => Entry.eq_of_mem_files hx hy) hfiles
  simp only [filesUnder, hl, hl', Entry.walkFiles, List.filter_map]
  exact congrArg (List.map Prod.snd) hwalk

/-! ### One change -/

/-- Putting an entry where a path leads, which no directory did. -/
theorem kept_put (o : List String) (new : Entry) {fs : FileSystem} (hr : fs.Rooted) {p : Path}
    {l : Location} (h : fs.locate p = .ok l) (hl : ∀ es, l.entry ≠ some (.directory es))
    (hnew : new = .directory [] ∧ l.entry = none ∨ ∃ c, new = .file c ∧ l.names = o) :
    Kept o fs (fs.put l.names new) ∧ (fs.put l.names new).root.get? l.names = some new := by
  obtain ⟨ms, n, es, hnames, hms⟩ := parent_of_locate hr h hl
  rw [(names_of_locate h).2, hnames] at hl hnew
  rw [hnames]
  exact ⟨⟨rfl, rfl, Entry.kept_set hms hl hnew⟩, Entry.get?_set_self hms⟩

end FileSystem

end BlankLines
