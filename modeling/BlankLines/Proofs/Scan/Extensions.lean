import Mathlib.Data.List.DropRight
import BlankLines.Proofs.Command.Steps
import BlankLines.Proofs.Files.Steps

/-!
# Proofs — Scan — files with a configured extension

The extension of a file is what follows the last dot of its name.  So a configured extension selects
the files that are called by it, unless it has a dot inside: what is in front of that dot is looked
for in vain, since no extension of a file reaches so far.

* `Path.extension?_join`: the extension of a file whose name ends in a dot and a text.
* `Filter.includes_iff`: which of the configured extensions select that file.
* `Config.selects_extension`: a configured extension without a dot inside selects its files.
* `Config.misses_extension`: one with a dot inside need not.
-/

namespace BlankLines

/-! ### The extension of a name -/

namespace Path

variable {stem ext : List Char}

/-- What follows the last dot, or all if there is none. -/
def afterLastDot (cs : List Char) : List Char :=
  cs.rtakeWhile (· ≠ '.')

theorem afterLastDot_of_not_mem (h : '.' ∉ ext) : afterLastDot ext = ext :=
  List.rtakeWhile_eq_self_iff.2 fun _ hc => decide_eq_true fun hdot => h (hdot ▸ hc)

/-- What stands in front of a dot has no part in what follows the last one. -/
theorem afterLastDot_append (stem ext : List Char) :
    afterLastDot (stem ++ '.' :: ext) = afterLastDot ext := by
  induction ext using List.reverseRecOn with
  | nil => simp [afterLastDot]
  | append_singleton ext c ih =>
      rw [afterLastDot] at ih ⊢
      rw [← List.cons_append, ← List.append_assoc, List.rtakeWhile_concat, ih, afterLastDot,
        afterLastDot, List.rtakeWhile_concat]

/-- A name with a dot behind its first character has an extension. -/
theorem extensionOf?_append (hstem : stem ≠ []) (ext : List Char) :
    extensionOf? (stem ++ '.' :: ext) = some (afterLastDot ext) := by
  have hafter := afterLastDot_append stem ext
  have hlength : (afterLastDot ext).length ≤ ext.length := (List.rtakeWhile_suffix _ _).length_le
  have hpos := List.length_pos_iff.2 hstem
  rw [extensionOf?]
  change (if _ ≤ (afterLastDot (stem ++ '.' :: ext)).length + 1 then none
    else some (afterLastDot (stem ++ '.' :: ext))) = _
  rw [hafter, if_neg]
  simp only [List.length_append, List.length_cons]
  omega

theorem isName_append (hstem : stem ≠ []) (hslash : '/' ∉ stem) (hext : ext ≠ [])
    (hslash' : '/' ∉ ext) : IsName (stem ++ '.' :: ext) := by
  have hpos := List.length_pos_iff.2 hstem
  have hpos' := List.length_pos_iff.2 hext
  have hne : ∀ cs : List Char, cs.length < 3 → stem ++ '.' :: ext ≠ cs := by
    rintro cs hcs rfl
    simp only [List.length_append, List.length_cons] at hcs
    omega
  refine ⟨hne _ (by decide), hne _ (by decide), hne _ (by decide), ?_⟩
  simp [hslash, hslash']

/-- The extension of a file in a directory. -/
theorem extension?_join (dir : Path) (hstem : stem ≠ []) (hslash : '/' ∉ stem) (hext : ext ≠ [])
    (hslash' : '/' ∉ ext) :
    (dir.join ⟨String.ofList (stem ++ '.' :: ext)⟩).extension? = some (afterLastDot ext) := by
  have hname : IsName (String.ofList (stem ++ '.' :: ext)).toList := by
    rw [String.toList_ofList]
    exact isName_append hstem hslash hext hslash'
  have hlast : (dir.join ⟨String.ofList (stem ++ '.' :: ext)⟩).fileName? =
      some (stem ++ '.' :: ext) := by
    rw [fileName?_eq_some_iff, steps_join_name dir hname, List.getLast?_concat,
      String.toList_ofList]
  rw [extension?, hlast, Option.bind_some, extensionOf?_append hstem]

end Path

/-! ### The extensions of a filter -/

/-- Texts that differ in the case of ASCII letters at most. -/
def SameLetters (s t : List Char) : Prop :=
  s.map Char.toLower = t.map Char.toLower

instance (s t : List Char) : Decidable (SameLetters s t) :=
  inferInstanceAs (Decidable (s.map Char.toLower = t.map Char.toLower))

/-- A dot is no letter. -/
theorem SameLetters.dot_mem_iff {s t : List Char} (h : SameLetters s t) : '.' ∈ s ↔ '.' ∈ t := by
  have hlower : ∀ c : Char, c.toLower = '.' ↔ c = '.' := by
    intro c
    refine ⟨fun hc => ?_, by rintro rfl; rfl⟩
    unfold Char.toLower at hc
    split at hc
    next hupper =>
      have hval := congrArg (fun c => c.val.toNat) hc
      simp only [UInt32.le_iff_toNat_le] at hupper
      simp at hval hupper
      omega
    next => exact hc
  have hmem : ∀ cs : List Char, '.' ∈ cs.map Char.toLower ↔ '.' ∈ cs := by
    intro cs
    simp [hlower]
  rw [← hmem, h, hmem]

namespace Filter

/-- A configured extension without its leading dots. -/
def bareExtension (e : String) : List Char :=
  e.toList.dropWhile (· = '.')

/-- A filter without patterns takes every path with one of its extensions. -/
theorem includes_iff {f : Filter} {extensions : List String}
    (hextensions : f.extensions = extensions.map normalExtension) (hexcludes : f.excludes = [])
    {p : Path} {ext : List Char} (hp : p.extension? = some ext) :
    f.includes p = true ↔ ∃ e ∈ extensions, SameLetters (bareExtension e) ext := by
  simp only [includes, hasExtension, hp, hextensions, hexcludes, Option.any_some, List.any_nil,
    Bool.not_false, Bool.and_true, List.contains_iff_mem, List.mem_map]
  rfl

end Filter

namespace Config

variable {c : Config}

/-- A configuration that is valid and has no patterns is used with its extensions alone. -/
theorem usable_eq_ok (hvalid : c.validate = .ok ()) (hexclude : c.scanner.exclude = []) :
    c.usable = .ok (c.rules, ⟨c.scanner.extensions.map Filter.normalExtension, []⟩) := by
  have hfilter : Filter.ofConfig c.scanner =
      .ok ⟨c.scanner.extensions.map Filter.normalExtension, []⟩ := by
    rw [Filter.ofConfig, hexclude]
    rfl
  exact bind_eq_ok_iff.2 ⟨(), hvalid, bind_eq_ok_iff.2 ⟨_, hfilter, rfl⟩⟩

/-- **A configured extension selects its files**, if it has no dot but in front.  A configuration that
is valid and has no patterns can be used.  Of a file in any directory, with a name of any stem, a dot
and a text:
* It is taken exactly if what follows the last dot is one of the configured extensions, up to leading
  dots there and the case of ASCII letters.
* So it is taken if the text is one of them, in any case of ASCII letters, that has no further dot. -/
theorem selects_extension (hvalid : c.validate = .ok ()) (hexclude : c.scanner.exclude = []) :
    ∃ f, c.usable = .ok (c.rules, f) ∧
      ∀ (dir : Path) (stem ext : List Char), stem ≠ [] → '/' ∉ stem → ext ≠ [] → '/' ∉ ext →
        (f.includes (dir.join ⟨String.ofList (stem ++ '.' :: ext)⟩) = true ↔
          ∃ e ∈ c.scanner.extensions,
            SameLetters (Filter.bareExtension e) (Path.afterLastDot ext)) ∧
        ∀ e ∈ c.scanner.extensions, '.' ∉ Filter.bareExtension e →
          SameLetters (Filter.bareExtension e) ext →
          f.includes (dir.join ⟨String.ofList (stem ++ '.' :: ext)⟩) = true := by
  refine ⟨_, usable_eq_ok hvalid hexclude, fun dir stem ext hstem hslash hext hslash' => ?_⟩
  have hincludes := Filter.includes_iff (f := ⟨c.scanner.extensions.map Filter.normalExtension, []⟩)
    rfl rfl (Path.extension?_join dir hstem hslash hext hslash')
  refine ⟨hincludes, fun e he hdot hsame => hincludes.2 ⟨e, he, ?_⟩⟩
  rwa [Path.afterLastDot_of_not_mem (mt hsame.dot_mem_iff.2 hdot)]

/-! ### Extensions with a dot inside -/

/-- A configuration with an extension that has a dot in front and one that has a dot inside. -/
def dottedExtensions : Config where
  scanner := { extensions := [".Tree", "go.json"] }

/-- The dot in front and the case of letters make no difference; the dot inside does, since the
extension of that file is `json`. -/
theorem selects_extension_dotted :
    ∃ f, dottedExtensions.usable = .ok ({}, f) ∧
      f.includes (Path.join ⟨"trees"⟩ ⟨"main.TREE"⟩) = true ∧
      f.includes (Path.join ⟨"trees"⟩ ⟨"main.go.json"⟩) = false := by
  have hvalid : dottedExtensions.validate = .ok () := by decide +kernel
  obtain ⟨f, husable, hfiles⟩ := selects_extension hvalid rfl
  obtain ⟨-, htree⟩ :=
    hfiles ⟨"trees"⟩ "main".toList "TREE".toList (by decide) (by decide) (by decide) (by decide)
  obtain ⟨hjson, -⟩ :=
    hfiles ⟨"trees"⟩ "main".toList "go.json".toList (by decide) (by decide) (by decide) (by decide)
  have hletters : SameLetters (Filter.bareExtension ".Tree") "TREE".toList := by decide
  have hothers : ¬ ∃ e ∈ dottedExtensions.scanner.extensions,
      SameLetters (Filter.bareExtension e) (Path.afterLastDot "go.json".toList) := by
    decide
  exact ⟨f, husable, htree ".Tree" (by decide) (by decide) hletters,
    Bool.eq_false_iff.2 fun h => hothers (hjson.1 h)⟩

/-- **A configured extension with a dot inside misses its files**, though the configuration is
valid: with `go.json` alone, `main.go.json` is not taken for a tree. -/
theorem misses_extension :
    validate { scanner := { extensions := ["go.json"] } } = .ok () ∧
      ∃ f, usable { scanner := { extensions := ["go.json"] } } = .ok ({}, f) ∧
        f.includes (Path.join ⟨"trees"⟩ ⟨"main.go.json"⟩) = false := by
  have hvalid : validate { scanner := { extensions := ["go.json"] } } = .ok () := by decide +kernel
  exact ⟨hvalid, _, usable_eq_ok hvalid rfl, by decide +kernel⟩

end Config

end BlankLines
