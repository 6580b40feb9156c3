import BlankLines.Proofs.Files.Saving

/-!
# Proofs — Files — a text that cannot be saved

Saving makes the directories above a text first, then opens the file, which empties it, and then
writes; what was done stays done when a later step fails.  So a text that cannot be saved leaves new
directories at most, unless its writing breaks off: then its file is left with a beginning of it.

* `Entry.get?_set_of_ne`: what other names lead to after an entry was put.
* `FileSystem.AddsDirectories`: the same files with the same contents, and all directories there
  were; the file under some names may be spared the comparison.
* `Saving.BrokenOff`: the file of a text holds a beginning of it, and all other files are the same.
* `Saving.of_error`: a text that cannot be saved leaves no more than that.
-/

namespace BlankLines

namespace Entry

/-- The names an entry is put under lead to it, unless a file is in the way. -/
theorem get?_set_same (new e : Entry) (names : List String) :
    (set new names e).get? names = some new ∨ (set new names e).get? names = e.get? names := by
  induction names generalizing e with
  | nil => exact .inl rfl
  | cons name names ih =>
      cases e with
      | file content => exact .inr rfl
      | directory entries =>
          simp only [set, get?, lookup_setNamed, if_true, Option.bind_some]
          cases entries.lookup name with
          | some inner => exact ih inner
          | none =>
              -- where nothing was there is nothing in the way
              refine .inl ?_
              have hmade : ∀ ns, (set new ns (.directory [])).get? ns = some new := fun ns => by
                induction ns with
                | nil => rfl
                | cons n ns ihn => simpa [set, get?, setNamed] using ihn
              exact hmade names

/-- **A new entry.**  An entry with nothing in it is put where there was no directory, with the
directories above it that are missing.  Other names lead to what they led to, or they lead to a
directory and did not lead to a file. -/
theorem get?_set_of_ne {new e : Entry} {names rs : List String}
    (hnew : ∀ r rs, new.get? (r :: rs) = none) (h : ∀ es, e.get? names ≠ some (.directory es))
    (hrs : rs ≠ names) :
    (set new names e).get? rs = e.get? rs ∨
      (∃ es, (set new names e).get? rs = some (.directory es)) ∧
        ∀ content, e.get? rs ≠ some (.file content) := by
  induction names generalizing e rs with
  | nil =>
      obtain ⟨r, rs, rfl⟩ := List.exists_cons_of_ne_nil hrs
      cases e with
      | file content => exact .inl (hnew r rs)
      | directory es => exact absurd rfl (h es)
  | cons name names ih =>
      cases e with
      | file content => exact .inl rfl
      | directory entries =>
          cases rs with
          | nil => exact .inr ⟨⟨_, rfl⟩, by simp [get?]⟩
          | cons r rs =>
              by_cases hr : r = name
              · subst hr
                have hrs : rs ≠ names := fun heq => hrs (heq ▸ rfl)
                simp only [set, get?, lookup_setNamed, if_true, Option.bind_some]
                cases hinner : entries.lookup r with
                | some inner =>
                    simp only [get?, hinner, Option.bind_some] at h
                    exact ih h hrs
                | none =>
                    -- all that is here was made: directories, one in the other
                    simp only [Option.getD_none, Option.bind_none]
                    cases names with
                    | nil =>
                        obtain ⟨s, rs, rfl⟩ := List.exists_cons_of_ne_nil hrs
                        exact .inl (hnew s rs)
                    | cons n ns =>
                        rcases ih (e := .directory []) (by simp [get?]) hrs with hsame | ⟨hdir, -⟩
                        · cases rs <;> simp_all [get?]
                        · exact .inr ⟨hdir, by simp⟩
              · simp [set, get?, lookup_setNamed, hr]

end Entry

namespace FileSystem

/-- One file system is another with new directories in it at most: the same names lead to files,
which hold the same, and what was a directory is one.  What the spared names lead to, if there are
any, may have become another file. -/
structure AddsDirectories (fs : FileSystem) (spared : Option (List String)) (fs' : FileSystem) :
    Prop where
  current : fs'.current = fs.current
  config : fs'.config = fs.config
  file : ∀ names content, spared ≠ some names →
    (fs'.root.get? names = some (.file content) ↔ fs.root.get? names = some (.file content))
  directory : ∀ names entries, fs.root.get? names = some (.directory entries) →
    ∃ entries', fs'.root.get? names = some (.directory entries')

namespace AddsDirectories

variable {fs fs' fs'' : FileSystem} {spared : Option (List String)} {names : List String}

theorem refl (spared : Option (List String)) (fs : FileSystem) : fs.AddsDirectories spared fs :=
  ⟨rfl, rfl, fun _ _ _ => .rfl, fun _ entries h => ⟨entries, h⟩⟩

theorem trans (h : fs.AddsDirectories spared fs') (h' : fs'.AddsDirectories spared fs'') :
    fs.AddsDirectories spared fs'' where
  current := h'.current.trans h.current
  config := h'.config.trans h.config
  file := fun names content hne => (h'.file names content hne).trans (h.file names content hne)
  directory := fun names entries hd => by
    obtain ⟨entries', hd'⟩ := h.directory names entries hd
    exact h'.directory names entries' hd'

theorem sparing (h : fs.AddsDirectories none fs') (spared : Option (List String)) :
    fs.AddsDirectories spared fs' :=
  { h with file := fun names content _ => h.file names content (by simp) }

/-- An entry with nothing in it is put under spared names, or it is a directory put where nothing
was. -/
theorem put {new : Entry} (hnew : ∀ r rs, new.get? (r :: rs) = none)
    (h : ∀ es, fs.root.get? names ≠ some (.directory es))
    (hspared : spared = some names ∨ new = .directory [] ∧ fs.root.get? names = none) :
    fs.AddsDirectories spared (fs.put names new) where
  current := rfl
  config := rfl
  file := fun rs content hne => by
    rw [root_put]
    by_cases hrs : rs = names
    · subst hrs
      obtain ⟨rfl, hnone⟩ := hspared.resolve_left hne
      rcases Entry.get?_set_same (.directory []) fs.root rs with hself | hsame
      · simp [hself, hnone]
      · rw [hsame]
    · rcases Entry.get?_set_of_ne hnew h hrs with hsame | ⟨⟨es, hdir⟩, hfile⟩
      · rw [hsame]
      · simp [hdir, hfile content]
  directory := fun rs entries hd => by
    have hrs : rs ≠ names := fun heq => h entries (heq ▸ hd)
    rcases Entry.get?_set_of_ne hnew h hrs with hsame | ⟨hdir, -⟩
    · exact ⟨entries, hsame.trans hd⟩
    · exact hdir

end AddsDirectories

end FileSystem

open FileSystem (AddsDirectories)

theorem Writing.allowsDirectories_addsDirectories :
    AllowsDirectories fun fs fs' => fs.AddsDirectories none fs' where
  refl := .refl none
  trans := .trans
  made := fun hl hnone => by
    have hget := (FileSystem.names_of_locate hl).2.symm.trans hnone
    exact .put (fun _ _ => rfl) (by simp [hget]) (.inr ⟨rfl, hget⟩)

namespace Saving

variable {s : Saving}

/-- What is left of a text whose writing broke off: where its path leads, as much of it as was
taken, and beside it new directories at most. -/
structure BrokenOff (s : Saving) (b : Break) (o : List String) (fs fs' : FileSystem) : Prop where
  others : fs.AddsDirectories (some o) fs'
  begun : fs.Rooted →
    fs'.locate s.path = .ok ⟨o, some (.file (s.text.toUTF8.extract 0 b.taken)), false⟩

theorem leaves_makeParents (s : Saving) :
    Writing.Leaves (fun fs fs' => fs.AddsDirectories none fs') s.makeParents := by
  rcases s.makeParents_cases with hnone | ⟨depth, parent, hsome⟩
  · rw [hnone]
    exact .refl none
  · rw [hsome]
    exact Writing.allowsDirectories_addsDirectories.makeDirectories (depth + 1) parent

/-- **A text that cannot be saved** makes no file and changes none, unless its writing breaks off:
then only its own. -/
theorem of_error {break? : Option Break} {fs fs' : FileSystem} {f : IoFault}
    (h : (s.perform break?).run fs = (.error f, fs')) :
    fs.AddsDirectories none fs' ∨
      ∃ b o, break? = some b ∧ f = b.fault ∧ s.BrokenOff b o fs fs' := by
  have hmade := s.leaves_makeParents fs
  have hran := s.ran_perform break? fs
  rw [h] at hran
  cases hran with
  | unmade hparents =>
      rw [hparents] at hmade
      exact .inl hmade
  | unopened hparents =>
      rw [hparents] at hmade
      exact .inl hmade
  | @brokenOff b fs₁ o hparents hopen =>
      rw [hparents] at hmade
      obtain ⟨entry, hl, hentry⟩ := Writing.locate_of_namesOfFile hopen
      have hnot : ∀ es, fs₁.root.get? o ≠ some (.directory es) := fun es hes =>
        hentry es ((FileSystem.names_of_locate hl).2.trans hes)
      refine .inr ⟨b, o, rfl, rfl, (hmade.sparing (some o)).trans
        (.put (fun _ _ => rfl) hnot (.inl rfl)), fun hr => ?_⟩
      have hr₁ := (s.run_makeParents hr hparents o).1.rooted hr
      exact (Writing.kept_put_file hr₁ hopen _).2

end Saving

end BlankLines
