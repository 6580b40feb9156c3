import BlankLines.Command.Run
import BlankLines.Proofs.Files.Kept
import BlankLines.Proofs.Results

/-!
# Proofs — Files — saving a text

Saving makes the directories above a file that are missing and writes the file; what was made stays
made when a later step fails.

* `AllowsDirectories`: what one new directory leaves, `makeDirectories` leaves, also if it fails.
* `Makes`: writings that leave a directory at a path, and all else as it was.
* `Saving.Ran`, `Saving.ran_perform`: the four ways in which a text is saved.
* `Saving.exists_done`: a text that was saved is there, all else is as it was, and to save it again
  changes nothing.
* `Saving.exists_of_run_perform`: whether a text can be saved does not depend on what it says.
-/

namespace BlankLines

theorem FileSystem.put_put (fs : FileSystem) (names : List String) (old new : Entry) :
    (fs.put names old).put names new = fs.put names new :=
  congrArg (fun root => { fs with root }) (Entry.set_set new old names fs.root)

/-! ### Runs of writings -/

namespace Writing

theorem run_bind {α β : Type} (w : Writing α) (g : α → Writing β) (fs : FileSystem) :
    (w >>= g).run fs =
      match w.run fs with
      | (.ok a, fs')    => (g a).run fs'
      | (.error f, fs') => (.error f, fs') := by
  change StateT.run (ExceptT.run (w >>= g)) fs = match StateT.run w.run fs with
    | (.ok a, fs')    => StateT.run (g a).run fs'
    | (.error f, fs') => (.error f, fs')
  rw [ExceptT.run_bind, StateT.run_bind]
  rcases StateT.run w.run fs with ⟨_ | _, fs'⟩ <;> rfl

theorem run_tryCatch (w : Writing Unit) (h : IoFault → Writing Unit) (fs : FileSystem) :
    (tryCatch w h).run fs =
      match w.run fs with
      | (.ok (), fs')   => (.ok (), fs')
      | (.error f, fs') => (h f).run fs' := by
  change StateT.run (ExceptT.run (ExceptT.tryCatch w h)) fs = match StateT.run w.run fs with
    | (.ok (), fs')   => (.ok (), fs')
    | (.error f, fs') => StateT.run (h f).run fs'
  unfold ExceptT.tryCatch
  rw [ExceptT.run_mk, StateT.run_bind]
  change (StateT.run w.run fs >>= _) = _
  rcases StateT.run w.run fs with ⟨_ | _, fs'⟩ <;> rfl

theorem run_put (names : List String) (e : Entry) (fs : FileSystem) :
    (put names e).run fs = (.ok (), fs.put names e) := rfl

theorem run_makeDirectory (path : Path) (fs : FileSystem) :
    (makeDirectory path).run fs =
      match fs.locate path with
      | .error f => (.error f, fs)
      | .ok l =>
        match l.entry with
        | some _ => (.error .alreadyExists, fs)
        | none   => (.ok (), fs.put l.names (.directory [])) := by
  unfold makeDirectory
  rw [run_bind]
  change ((liftM (fs.locate path) : Writing Location) >>= _).run fs = _
  rw [run_bind]
  cases fs.locate path with
  | error f => rfl
  | ok l =>
      obtain ⟨names, entry, slash⟩ := l
      cases entry <;> rfl

theorem run_unlessPresent (path : Path) (f : IoFault) (fs : FileSystem) :
    (unlessPresent path f).run fs =
      if fs.isDirectory path then (.ok (), fs) else (.error f, fs) := by
  unfold unlessPresent
  rw [run_bind]
  change (if fs.isDirectory path then pure () else throw f : Writing Unit).run fs = _
  split <;> rfl

theorem run_openFile (path : Path) (fs : FileSystem) :
    (openFile path).run fs =
      match fs.namesOfFile path with
      | .error f  => (.error f, fs)
      | .ok names => (.ok names, fs.put names (.file .empty)) := by
  unfold openFile
  rw [run_bind]
  change ((liftM (fs.namesOfFile path) : Writing (List String)) >>= _).run fs = _
  rw [run_bind]
  cases fs.namesOfFile path <;> rfl

/-- A file that cannot be opened stays as it is.  One that is opened ends with the text, or with as
much of it as was taken. -/
theorem run_writeText (path : Path) (text : String) (break? : Option Break) (fs : FileSystem) :
    (writeText path text break?).run fs =
      match fs.namesOfFile path with
      | .error f => (.error f, fs)
      | .ok names =>
        match break? with
        | none   => (.ok (), fs.put names (.file text.toUTF8))
        | some b =>
          (.error b.fault, fs.put names (.file (text.toUTF8.extract 0 b.taken))) := by
  unfold writeText
  rw [run_bind, run_openFile]
  cases fs.namesOfFile path with
  | error f => rfl
  | ok names =>
      rcases break? with _ | b
      · simp only [fill, run_put, FileSystem.put_put]
      · simp only [fill, run_bind, run_put, FileSystem.put_put]
        rfl

/-! ### What writings leave -/

variable {w w' : Writing Unit} {h : IoFault → Writing Unit}

/-- What a writing starts from is related to what it leaves, also when it fails. -/
def Leaves (R : FileSystem → FileSystem → Prop) (w : Writing Unit) : Prop :=
  ∀ fs : FileSystem, R fs (w.run fs).2

/-- A relation that one new directory obeys, and so any number of them. -/
structure AllowsDirectories (R : FileSystem → FileSystem → Prop) : Prop where
  refl : ∀ fs, R fs fs
  trans : ∀ {fs fs' fs''}, R fs fs' → R fs' fs'' → R fs fs''
  made : ∀ {fs : FileSystem} {path : Path} {l : Location}, fs.locate path = .ok l →
    l.entry = none → R fs (fs.put l.names (.directory []))

namespace AllowsDirectories

variable {R : FileSystem → FileSystem → Prop}

theorem bind (hR : AllowsDirectories R) (hw : Leaves R w) (hw' : Leaves R w') :
    Leaves R (w >>= fun _ => w') := by
  intro fs
  have hfirst := hw fs
  rw [run_bind]
  rcases hrun : w.run fs with ⟨_ | _, fs'⟩
  · simpa [hrun] using hfirst
  · rw [hrun] at hfirst
    exact hR.trans hfirst (hw' fs')

theorem tryCatch (hR : AllowsDirectories R) (hw : Leaves R w) (hh : ∀ f, Leaves R (h f)) :
    Leaves R (tryCatch w h) := by
  intro fs
  have hfirst := hw fs
  rw [run_tryCatch]
  rcases hrun : w.run fs with ⟨f | _, fs'⟩
  · rw [hrun] at hfirst
    exact hR.trans hfirst (hh f fs')
  · simpa [hrun] using hfirst

theorem makeDirectory (hR : AllowsDirectories R) (path : Path) :
    Leaves R (makeDirectory path) := by
  intro fs
  rw [run_makeDirectory]
  cases hl : fs.locate path with
  | error f => exact hR.refl fs
  | ok l =>
      cases hentry : l.entry with
      | some e => simpa [hentry] using hR.refl fs
      | none => simpa [hentry] using hR.made hl hentry

theorem unlessPresent (hR : AllowsDirectories R) (path : Path) (f : IoFault) :
    Leaves R (unlessPresent path f) := by
  intro fs
  rw [run_unlessPresent]
  split <;> exact hR.refl fs

/-- Where a directory is to be made and its parent is missing, the parent is made first. -/
theorem makeDirectories (hR : AllowsDirectories R) (depth : Nat) (path : Path) :
    Leaves R (makeDirectories depth path) := by
  induction depth generalizing path with
  | zero => exact hR.refl
  | succ depth ih =>
      rw [Writing.makeDirectories]
      split
      · exact hR.refl
      · refine hR.tryCatch (hR.makeDirectory path) fun f => ?_
        split
        next parent _ =>
          exact hR.bind (ih parent)
            (hR.tryCatch (hR.makeDirectory path) (hR.unlessPresent path))
        next => exact hR.unlessPresent path _

end AllowsDirectories

/-! ### Directories -/

open FileSystem (Kept)

variable {o : List String} {path : Path}

/-- All stays but the file that `o` leads to; the root has to be a directory. -/
def Stays (o : List String) (fs fs' : FileSystem) : Prop :=
  fs.Rooted → Kept o fs fs'

theorem allowsDirectories_stays (o : List String) : AllowsDirectories (Stays o) where
  refl := fun fs _ => .refl o fs
  trans := fun hkept hkept' hr => (hkept hr).trans (hkept' ((hkept hr).rooted hr))
  made := fun hl hnone hr =>
    (FileSystem.kept_put o (.directory []) hr hl (by simp [hnone]) (.inl ⟨rfl, hnone⟩)).1

/-- A writing after which, if it succeeds, a path leads to a directory, and all else stays. -/
structure Makes (o : List String) (path : Path) (w : Writing Unit) : Prop where
  leaves : Leaves (Stays o) w
  makes : ∀ fs fs' : FileSystem, fs.Rooted → w.run fs = (.ok (), fs') →
    fs'.isDirectory path = true

theorem Makes.tryCatch (hw : Makes o path w) (hh : ∀ f, Makes o path (h f)) :
    Makes o path (tryCatch w h) where
  leaves := (allowsDirectories_stays o).tryCatch hw.leaves fun f => (hh f).leaves
  makes := fun fs fs'' hr hrun => by
    rw [run_tryCatch] at hrun
    rcases hw' : w.run fs with ⟨f | _, fs'⟩
    · have hkept := hw.leaves fs hr
      rw [hw'] at hkept hrun
      exact (hh f).makes fs' fs'' (hkept.rooted hr) hrun
    · rw [hw'] at hrun
      cases hrun
      exact hw.makes fs _ hr hw'

theorem Makes.bind (hw : Leaves (Stays o) w) (hw' : Makes o path w') :
    Makes o path (w >>= fun _ => w') where
  leaves := (allowsDirectories_stays o).bind hw hw'.leaves
  makes := fun fs fs'' hr hrun => by
    rw [run_bind] at hrun
    rcases hw'' : w.run fs with ⟨f | _, fs'⟩
    · rw [hw''] at hrun
      cases hrun
    · have hkept := hw fs hr
      rw [hw''] at hkept hrun
      exact hw'.makes fs' fs'' (hkept.rooted hr) hrun

theorem makes_makeDirectory (o : List String) (path : Path) :
    Makes o path (makeDirectory path) where
  leaves := (allowsDirectories_stays o).makeDirectory path
  makes := fun fs fs' hr hrun => by
    rw [run_makeDirectory] at hrun
    cases hl : fs.locate path with
    | error f =>
        rw [hl] at hrun
        cases hrun
    | ok l =>
        rw [hl] at hrun
        cases hentry : l.entry with
        | some e =>
            simp only [hentry] at hrun
            cases hrun
        | none =>
            simp only [hentry] at hrun
            cases hrun
            obtain ⟨hkept, hself⟩ := FileSystem.kept_put o (.directory []) hr hl (by simp [hentry])
              (.inl ⟨rfl, hentry⟩)
            have hl' := hkept.locate hl
            simp only [hself] at hl'
            exact FileSystem.isDirectory_iff.2 ⟨_, _, _, hl'⟩

theorem makes_unlessPresent (o : List String) (path : Path) (f : IoFault) :
    Makes o path (unlessPresent path f) where
  leaves := (allowsDirectories_stays o).unlessPresent path f
  makes := fun fs fs' hr hrun => by
    rw [run_unlessPresent] at hrun
    split at hrun
    next hpath =>
      cases hrun
      exact hpath
    next => cases hrun

theorem makes_makeDirectories (o : List String) (depth : Nat) {path : Path} (h : path.text ≠ "") :
    Makes o path (makeDirectories (depth + 1) path) := by
  rw [makeDirectories, if_neg fun hempty => h (String.isEmpty_iff.1 hempty)]
  refine (makes_makeDirectory o path).tryCatch fun f => ?_
  split
  next parent _ =>
    exact .bind ((allowsDirectories_stays o).makeDirectories depth parent)
      ((makes_makeDirectory o path).tryCatch (makes_unlessPresent o path))
  next => exact makes_unlessPresent o path _

/-- Where the directory is there, nothing is made. -/
theorem run_makeDirectories_of_isDirectory {fs : FileSystem} (h : fs.isDirectory path = true)
    (depth : Nat) : (makeDirectories depth path).run fs = (.ok (), fs) := by
  cases depth with
  | zero => rfl
  | succ depth =>
      obtain ⟨names, es, slash, hl⟩ := FileSystem.isDirectory_iff.1 h
      rw [makeDirectories]
      split
      · rfl
      · rw [run_tryCatch, run_makeDirectory, hl]
        exact (run_unlessPresent path .alreadyExists fs).trans (if_pos h)

/-! ### The text -/

/-- What names a path leads to as a file, and what is under them. -/
theorem locate_of_namesOfFile {fs : FileSystem} {names : List String}
    (h : fs.namesOfFile path = .ok names) :
    ∃ entry, fs.locate path = .ok ⟨names, entry, false⟩ ∧ ∀ es, entry ≠ some (.directory es) := by
  obtain ⟨⟨names', entry, slash⟩, hl, h⟩ := bind_eq_ok_iff.1 h
  rcases entry with _ | ⟨content | es⟩ <;> cases slash <;> cases h <;> exact ⟨_, hl, by simp⟩

theorem namesOfFile_of_locate {fs : FileSystem} {names : List String} {content : ByteArray}
    (h : fs.locate path = .ok ⟨names, some (.file content), false⟩) :
    fs.namesOfFile path = .ok names := by
  rw [FileSystem.namesOfFile, h]
  rfl

/-- What is put where a path leads as a file is there, and all else stays. -/
theorem kept_put_file {fs : FileSystem} {names : List String} (hr : fs.Rooted)
    (h : fs.namesOfFile path = .ok names) (content : ByteArray) :
    Kept names fs (fs.put names (.file content)) ∧
      (fs.put names (.file content)).locate path = .ok ⟨names, some (.file content), false⟩ := by
  obtain ⟨entry, hl, hentry⟩ := locate_of_namesOfFile h
  obtain ⟨hkept, hself⟩ :=
    FileSystem.kept_put names (.file content) hr hl hentry (.inr ⟨_, rfl, rfl⟩)
  have hl' := hkept.locate hl
  simp only [hself] at hl'
  exact ⟨hkept, hl'⟩

end Writing

/-! ### Saving a text -/

namespace Saving

variable {s : Saving} {break? : Option Break} {fs fs' : FileSystem} {names : List String}

/-- The directories that are made before a text is written. -/
def makeParents (s : Saving) : Writing Unit :=
  if s.makesParents then
    match s.path.parent? with
    | some parent => Writing.makeDirectories (parent.components.length + 1) parent
    | none        => pure ()
  else pure ()

theorem makeParents_cases (s : Saving) :
    s.makeParents = pure () ∨
      ∃ depth parent, s.makeParents = Writing.makeDirectories (depth + 1) parent := by
  unfold makeParents
  split
  · split
    · exact .inr ⟨_, _, rfl⟩
    · exact .inl rfl
  · exact .inl rfl

theorem perform_eq (s : Saving) (break? : Option Break) :
    s.perform break? = s.makeParents >>= fun _ => Writing.writeText s.path s.text break? := by
  cases hm : s.makesParents <;> cases hp : s.path.parent? <;>
    simp [perform, makeParents, hm, hp]

/-- The directories above a text stay made. -/
theorem run_makeParents (s : Saving) {fs fs' : FileSystem} (hr : fs.Rooted)
    (hrun : s.makeParents.run fs = (.ok (), fs')) (o : List String) :
    FileSystem.Kept o fs fs' ∧ ∀ fs'' : FileSystem, FileSystem.Kept o fs' fs'' →
      s.makeParents.run fs'' = (.ok (), fs'') := by
  rcases s.makeParents_cases with hnone | ⟨depth, parent, hsome⟩
  · rw [hnone] at hrun ⊢
    cases hrun
    exact ⟨.refl o fs, fun _ _ => rfl⟩
  · rw [hsome] at hrun ⊢
    have hkept := (Writing.allowsDirectories_stays o).makeDirectories (depth + 1) parent fs hr
    rw [hrun] at hkept
    refine ⟨hkept, fun fs'' hkept' => ?_⟩
    -- an empty parent is the current directory, for which nothing is made
    by_cases hempty : parent.text = ""
    · rw [Writing.makeDirectories, if_pos (by simp [hempty])]
      rfl
    · have hdir := (Writing.makes_makeDirectories o depth hempty).makes fs fs' hr hrun
      exact Writing.run_makeDirectories_of_isDirectory (hkept'.isDirectory hdir) _

/-- The outcome of saving a text: the directories above it could not all be made; or they were, and
its file could not be opened, holds it, or holds what was taken of it by the time the writing broke
off. -/
inductive Ran (s : Saving) (fs : FileSystem) :
    Option Break → Except IoFault Unit × FileSystem → Prop where
  | unmade {break? : Option Break} {f : IoFault} {fs' : FileSystem}
      (h : s.makeParents.run fs = (.error f, fs')) : Ran s fs break? (.error f, fs')
  | unopened {break? : Option Break} {f : IoFault} {fs' : FileSystem}
      (h : s.makeParents.run fs = (.ok (), fs')) (hopen : fs'.namesOfFile s.path = .error f) :
      Ran s fs break? (.error f, fs')
  | saved {fs' : FileSystem} {names : List String} (h : s.makeParents.run fs = (.ok (), fs'))
      (hopen : fs'.namesOfFile s.path = .ok names) :
      Ran s fs none (.ok (), fs'.put names (.file s.text.toUTF8))
  | brokenOff {b : Break} {fs' : FileSystem} {names : List String}
      (h : s.makeParents.run fs = (.ok (), fs')) (hopen : fs'.namesOfFile s.path = .ok names) :
      Ran s fs (some b)
        (.error b.fault, fs'.put names (.file (s.text.toUTF8.extract 0 b.taken)))

theorem ran_perform (s : Saving) (break? : Option Break) (fs : FileSystem) :
    s.Ran fs break? ((s.perform break?).run fs) := by
  rw [perform_eq, Writing.run_bind]
  rcases h : s.makeParents.run fs with ⟨f | _, fs'⟩
  · exact .unmade h
  · simp only [Writing.run_writeText]
    cases hopen : fs'.namesOfFile s.path with
    | error f => exact .unopened h hopen
    | ok names =>
        cases break? with
        | none => exact .saved h hopen
        | some b => exact .brokenOff h hopen

/-- A text is saved where the directories above it can be made and its file opened. -/
theorem run_perform (h : s.makeParents.run fs = (.ok (), fs'))
    (hopen : fs'.namesOfFile s.path = .ok names) :
    (s.perform none).run fs = (.ok (), fs'.put names (.file s.text.toUTF8)) := by
  rw [perform_eq, Writing.run_bind, h]
  simp only [Writing.run_writeText, hopen]

/-- What saving leaves: the file that `o` leads to, with the text, and all else as it was; and to
save the text again changes nothing. -/
structure Done (s : Saving) (break? : Option Break) (o : List String)
    (fs fs' : FileSystem) : Prop where
  kept : FileSystem.Kept o fs fs'
  there : fs'.locate s.path = .ok ⟨o, some (.file s.text.toUTF8), false⟩
  again : (s.perform break?).run fs' = (.ok (), fs')

/-- **Saving twice is saving once.**  A text that could be saved is where its path leads; nothing
that was there before is gone or changed, but the file itself; and to save it again succeeds and
changes nothing. -/
theorem exists_done (hr : fs.Rooted) (hrun : (s.perform break?).run fs = (.ok (), fs')) :
    ∃ o, s.Done break? o fs fs' := by
  have hran := s.ran_perform break? fs
  rw [hrun] at hran
  cases hran with
  | @saved fs₁ o hparents hopen =>
      have hr₁ : fs₁.Rooted := (s.run_makeParents hr hparents o).1.rooted hr
      obtain ⟨hkept, hthere⟩ := Writing.kept_put_file hr₁ hopen s.text.toUTF8
      obtain ⟨hkept₁, hstays⟩ := s.run_makeParents hr hparents o
      refine ⟨o, hkept₁.trans hkept, hthere, ?_⟩
      rw [run_perform (hstays _ hkept) (Writing.namesOfFile_of_locate hthere),
        FileSystem.put_put]

/-- Whether a text can be saved does not depend on what it says. -/
theorem exists_of_run_perform (h : (s.perform break?).run fs = (.ok (), fs')) (text : String) :
    ∃ fs'', (({ s with text } : Saving).perform break?).run fs = (.ok (), fs'') := by
  have hran := s.ran_perform break? fs
  rw [h] at hran
  cases hran with
  | saved hparents hopen => exact ⟨_, run_perform (s := { s with text }) hparents hopen⟩

end Saving

end BlankLines
