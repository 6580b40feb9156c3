import BlankLines.Proofs.Config.Faults
import BlankLines.Proofs.Scan.Extensions

/-!
# Proofs — Scan — wider and narrower configurations

A filter takes a path that has one of its extensions and that none of its patterns matches.  So a
configuration that names more extensions and fewer patterns takes no less, and two that name the
same, each in its own order and as often as it likes, take the same.  Leading dots and the case of
ASCII letters make no difference to what an extension is; letters beyond ASCII and dots inside do.

* `ScannerConfig.Widens`: a configuration with more extensions and fewer patterns.
* `Filter.exists_ofConfig_of_widens`: it has a filter if the other has one, which takes no less.
* `FirstUnreadable`: the first of several texts that is no pattern, and why;
  `firstUnreadable_append_iff`: which of two lists it is in.
* `BuildsFromReadable`: texts that can each be read can be compiled together.
* `Filter.ofConfig_invariant`: what the filter of a configuration depends on, and how there is none.
-/

namespace BlankLines

/-! ### More extensions, fewer patterns -/

/-- Each of some extensions is one of others, up to leading dots and the case of ASCII letters. -/
def ExtensionsAmong (extensions others : List String) : Prop :=
  ∀ e ∈ extensions, ∃ e' ∈ others,
    SameLetters (Filter.bareExtension e) (Filter.bareExtension e')

instance (extensions others : List String) : Decidable (ExtensionsAmong extensions others) :=
  inferInstanceAs (Decidable (∀ e ∈ extensions, ∃ e' ∈ others, SameLetters _ _))

/-- What extensions are to a filter: leading dots and the case of ASCII letters are gone. -/
theorem ExtensionsAmong.map_subset {extensions others : List String}
    (h : ExtensionsAmong extensions others) :
    extensions.map Filter.normalExtension ⊆ others.map Filter.normalExtension := by
  intro cs hcs
  obtain ⟨e, he, rfl⟩ := List.mem_map.1 hcs
  obtain ⟨e', he', hsame⟩ := h e he
  exact List.mem_map.2 ⟨e', he', hsame.symm⟩

namespace ScannerConfig

variable {c c' : ScannerConfig}

/-- A configuration with all the extensions of another and with none but its patterns. -/
structure Widens (c' c : ScannerConfig) : Prop where
  extensions : ExtensionsAmong c.extensions c'.extensions
  exclude : c'.exclude ⊆ c.exclude

/-- Configurations that name the same extensions, up to leading dots and the case of ASCII letters,
and the same patterns. -/
structure NamesSame (c c' : ScannerConfig) : Prop where
  among : ExtensionsAmong c.extensions c'.extensions
  amongOther : ExtensionsAmong c'.extensions c.extensions
  exclude : ∀ text, text ∈ c.exclude ↔ text ∈ c'.exclude

theorem NamesSame.symm (h : c.NamesSame c') : c'.NamesSame c :=
  ⟨h.amongOther, h.among, fun text => (h.exclude text).symm⟩

theorem NamesSame.widens (h : c.NamesSame c') : c'.Widens c :=
  ⟨h.among, fun text => (h.exclude text).2⟩

end ScannerConfig

namespace Filter

variable {c c' : ScannerConfig} {f f' : Filter}

theorem ofConfig_eq_ok_iff :
    ofConfig c = .ok f ↔
      compileExcludes c.exclude = .ok f.excludes ∧
        f.extensions = c.extensions.map normalExtension := by
  rw [ofConfig, bind_eq_ok_iff]
  constructor
  · rintro ⟨ps, hps, h⟩
    obtain rfl := Except.ok.inj h
    exact ⟨hps, rfl⟩
  · rintro ⟨hps, hextensions⟩
    exact ⟨f.excludes, hps, congrArg Except.ok (by rw [← hextensions])⟩

theorem ofConfig_eq_error_iff {e : Error} :
    ofConfig c = .error e ↔ compileExcludes c.exclude = .error e := by
  rw [ofConfig, bind_eq_error_iff]
  simp [pure, Except.pure]

/-- There is no filter exactly if one of the patterns is none by itself. -/
theorem exists_ofConfig_eq_error_iff :
    (∃ e, ofConfig c = .error e) ↔ ∃ text ∈ c.exclude, ¬ IsPattern text := by
  have hok := @exists_compileExcludes_iff c.exclude
  rw [exists_eq_ok_iff] at hok
  simp only [ofConfig_eq_error_iff]
  rw [← not_iff_not]
  push Not
  exact hok

/-- **A wider configuration** has a filter where the other has one, and it takes no less. -/
theorem exists_ofConfig_of_widens (h : c'.Widens c) (hf : ofConfig c = .ok f) :
    ∃ f', ofConfig c' = .ok f' ∧ ∀ p, f.includes p = true → f'.includes p = true := by
  obtain ⟨hps, hextensions⟩ := ofConfig_eq_ok_iff.1 hf
  obtain ⟨ps', hps'⟩ := exists_compileExcludes_iff.2 fun text htext =>
    exists_compileExcludes_iff.1 ⟨f.excludes, hps⟩ text (h.exclude htext)
  refine ⟨⟨_, ps'⟩, ofConfig_eq_ok_iff.2 ⟨hps', rfl⟩, fun p => includes_of_subset ?_ ?_⟩
  · rw [hextensions]
    exact h.extensions.map_subset
  · intro g hg
    obtain ⟨text, htext, hparse⟩ := (mem_of_compileExcludes hps' g).1 hg
    exact (mem_of_compileExcludes hps g).2 ⟨text, h.exclude htext, hparse⟩

/-- Either of two filters of wider configurations takes no less than the other. -/
theorem includes_eq_of_namesSame (h : c.NamesSame c') (hf : ofConfig c = .ok f)
    (hf' : ofConfig c' = .ok f') (p : Path) : f.includes p = f'.includes p := by
  obtain ⟨g', hg', hwider⟩ := exists_ofConfig_of_widens h.widens hf
  obtain ⟨g, hg, hwider'⟩ := exists_ofConfig_of_widens h.symm.widens hf'
  obtain rfl := Except.ok.inj (hg'.symm.trans hf')
  obtain rfl := Except.ok.inj (hg.symm.trans hf)
  exact Bool.eq_iff_iff.2 ⟨hwider p, hwider' p⟩

end Filter

/-! ### The first text that is no pattern -/

/-- The first of several texts that is no pattern, and why. -/
def FirstUnreadable (texts : List String) (text : String) (fault : Glob.Fault) : Prop :=
  ∃ before after, texts = before ++ text :: after ∧
    (∀ t ∈ before, ∃ p, Glob.parse t = .ok p) ∧ Glob.parse text = .error fault

variable {texts more : List String} {text : String} {fault : Glob.Fault} {e : Error}

theorem FirstUnreadable.mem (h : FirstUnreadable texts text fault) : text ∈ texts := by
  obtain ⟨before, after, rfl, -, -⟩ := h
  exact List.mem_append_cons_self

theorem FirstUnreadable.parse_eq (h : FirstUnreadable texts text fault) :
    Glob.parse text = .error fault := by
  obtain ⟨before, after, -, -, hfault⟩ := h
  exact hfault

/-- A text that cannot be read is no pattern by itself. -/
theorem not_isPattern_of_fault (h : Glob.parse text = .error fault) : ¬ IsPattern text := by
  intro hpattern
  obtain ⟨p, hp, -⟩ := exists_compileExcludes_iff_parse.1 hpattern text (List.mem_singleton.2 rfl)
  cases h.symm.trans hp

/-- A text that starts with a class is refused for what is wrong with the class. -/
theorem Glob.parse_eq_error_of_readClass {cs : List Char} (htext : text.toList = '[' :: cs)
    (hclass : readClass cs = .error fault) : parse text = .error fault := by
  have hparse : parse text = parseFrom {} none ('[' :: cs) := by rw [parse, htext]
  rw [hparse, parseFrom]
  split
  next hok => cases hclass.symm.trans hok
  next herror =>
      cases hclass.symm.trans herror
      rfl

theorem readPatterns_eq_error_iff_firstUnreadable :
    readPatterns texts = .error e ↔ ∃ text fault, FirstUnreadable texts text fault ∧
      e = .badPattern text (.unreadable text fault) := by
  rw [readPatterns_eq_error_iff]
  constructor
  · rintro ⟨before, text, after, fault, rfl, hbefore, htext, rfl⟩
    exact ⟨text, fault, ⟨before, after, rfl, hbefore, htext⟩, rfl⟩
  · rintro ⟨text, fault, ⟨before, after, rfl, hbefore, htext⟩, rfl⟩
    exact ⟨before, text, after, fault, rfl, hbefore, htext, rfl⟩

/-- Of two lists, the second is looked at only if all of the first are patterns. -/
theorem firstUnreadable_append_iff :
    FirstUnreadable (texts ++ more) text fault ↔
      FirstUnreadable texts text fault ∨
        (∀ t ∈ texts, ∃ p, Glob.parse t = .ok p) ∧ FirstUnreadable more text fault := by
  constructor
  · rintro ⟨before, after, happend, hbefore, htext⟩
    rcases List.append_eq_append_iff.1 happend with ⟨rest, rfl, rfl⟩ | ⟨rest, rfl, hrest⟩
    · exact .inr ⟨fun t ht => hbefore t (List.mem_append_left _ ht),
        rest, after, rfl, fun t ht => hbefore t (List.mem_append_right _ ht), htext⟩
    · cases rest with
      | nil =>
          exact .inr ⟨by simpa using hbefore, [], after, hrest.symm, by simp, htext⟩
      | cons t rest =>
          obtain ⟨rfl, rfl⟩ := List.cons.inj hrest
          exact .inl ⟨before, rest, rfl, hbefore, htext⟩
  · rintro (⟨before, after, rfl, hbefore, htext⟩ | ⟨hall, before, after, rfl, hbefore, htext⟩)
    · exact ⟨before, after ++ more, by simp, hbefore, htext⟩
    · refine ⟨texts ++ before, after, by simp, fun t ht => ?_, htext⟩
      exact (List.mem_append.1 ht).elim (hall t) (hbefore t)

/-- Patterns that can each be read can be compiled together. -/
def BuildsFromReadable (texts : List String) : Prop :=
  ∀ ps, readPatterns texts = .ok ps → compileExcludes texts = .ok ps

theorem BuildsFromReadable.compileExcludes_eq_error_iff (h : BuildsFromReadable texts) :
    compileExcludes texts = .error e ↔ ∃ text fault, FirstUnreadable texts text fault ∧
      e = .badPattern text (.unreadable text fault) := by
  rw [← readPatterns_eq_error_iff_firstUnreadable, BlankLines.compileExcludes_eq_error_iff]
  refine ⟨fun herror => herror.resolve_right ?_, .inl⟩
  rintro ⟨ps, index, hread, hdeep, -⟩
  have hshallow := (compileExcludes_eq_ok_iff.1 (h ps hread)).2
  rw [tooDeep?_eq_none_iff.2 hshallow] at hdeep
  cases hdeep

/-! ### All of it -/

/-- **What a filter depends on.**
* Configurations that name the same extensions, up to leading dots and the case of ASCII letters,
  and the same patterns, in any order and as often as they like, both have a filter or both have
  none, and their filters take the same paths.
* A configuration with more extensions and fewer patterns than another has a filter if that has one,
  and it takes every path that the other takes.  So extensions that are added leave nothing out, and
  patterns that are added take nothing in.
* There is no filter exactly if one of the patterns cannot be compiled by itself.
* If patterns that can each be read can be compiled together, there is none exactly if one of the
  texts is no pattern, and the error names the first of these.
* Among the patterns of a configuration and those of a command line, that is the first of the
  configuration, or of the command line if the configuration has none. -/
theorem Filter.ofConfig_invariant (c c' : ScannerConfig) :
    (c.NamesSame c' →
      ((∃ f, ofConfig c = .ok f) ↔ ∃ f', ofConfig c' = .ok f') ∧
      ∀ f f', ofConfig c = .ok f → ofConfig c' = .ok f' → ∀ p, f.includes p = f'.includes p) ∧
    (c'.Widens c → ∀ f, ofConfig c = .ok f →
      ∃ f', ofConfig c' = .ok f' ∧ ∀ p, f.includes p = true → f'.includes p = true) ∧
    ((∃ e, ofConfig c = .error e) ↔ ∃ text ∈ c.exclude, ¬ IsPattern text) ∧
    (BuildsFromReadable c.exclude →
      ((∃ e, ofConfig c = .error e) ↔
        ∃ text ∈ c.exclude, ∃ fault, Glob.parse text = .error fault) ∧
      ∀ e, ofConfig c = .error e ↔
        ∃ text fault, FirstUnreadable c.exclude text fault ∧
          e = .badPattern text (.unreadable text fault)) ∧
    ∀ (a : CheckArgs) (config : Config),
      BuildsFromReadable (config.scanner.exclude ++ a.exclude) →
      ∀ e, ofConfig (a.override config).scanner = .error e ↔
        ∃ text fault, (FirstUnreadable config.scanner.exclude text fault ∨
            (∀ t ∈ config.scanner.exclude, ∃ p, Glob.parse t = .ok p) ∧
              FirstUnreadable a.exclude text fault) ∧
          e = .badPattern text (.unreadable text fault) := by
  refine ⟨fun h => ⟨⟨?_, ?_⟩, fun f f' => includes_eq_of_namesSame h⟩,
    fun h f => exists_ofConfig_of_widens h, exists_ofConfig_eq_error_iff,
    fun h => ⟨⟨?_, ?_⟩, fun e => ?_⟩, fun a config h e => ?_⟩
  · rintro ⟨f, hf⟩
    exact (exists_ofConfig_of_widens h.widens hf).imp fun _ => And.left
  · rintro ⟨f', hf'⟩
    exact (exists_ofConfig_of_widens h.symm.widens hf').imp fun _ => And.left
  · rintro ⟨e, he⟩
    rw [ofConfig_eq_error_iff, h.compileExcludes_eq_error_iff] at he
    obtain ⟨text, fault, hfirst, -⟩ := he
    exact ⟨text, hfirst.mem, fault, hfirst.parse_eq⟩
  · rintro ⟨text, htext, fault, hfault⟩
    refine exists_ofConfig_eq_error_iff.2 ⟨text, htext, ?_⟩
    exact not_isPattern_of_fault hfault
  · rw [ofConfig_eq_error_iff, h.compileExcludes_eq_error_iff]
  · rw [ofConfig_eq_error_iff]
    refine h.compileExcludes_eq_error_iff.trans ?_
    simp only [firstUnreadable_append_iff]

/-! ### The same settings, spelled differently -/

/-- Extensions and patterns. -/
def plainSettings : ScannerConfig where
  extensions := ["json", "É"]
  exclude := ["**/a/**", "x*"]

/-- The same, in another order, with dots in front, in capitals and repeated. -/
def respelledSettings : ScannerConfig where
  extensions := [".É", "..Json", "JSON"]
  exclude := ["x*", "**/a/**", "x*"]

/-- One more extension and one pattern less. -/
def widerSettings : ScannerConfig where
  extensions := ["tree", "É", "JSON"]
  exclude := ["x*"]

/-- A command line with two bad patterns behind a good one. -/
def badlyExcluding : CheckArgs where
  exclude := ["ok", "[b", "\x7b"]

theorem plainSettings_namesSame : plainSettings.NamesSame respelledSettings where
  among := by decide
  amongOther := by decide
  exclude text := by
    simp only [plainSettings, respelledSettings, List.mem_cons, List.not_mem_nil, or_false]
    tauto

theorem plainSettings_widens : widerSettings.Widens plainSettings where
  extensions := by decide
  exclude := by decide

/-- Respelled settings take a file by its extension in other capitals and leave it out in another
directory, as the plain ones do, and a letter beyond ASCII has no other case for them; the wider
settings take the first file as well; and the first bad pattern is the one that is named. -/
theorem Filter.ofConfig_invariant_respelled :
    (∃ f' g, ofConfig respelledSettings = .ok f' ∧ ofConfig widerSettings = .ok g ∧
      f'.includes ⟨"b/m.jSON"⟩ = true ∧ f'.includes ⟨"b/a/m.json"⟩ = false ∧
      f'.includes ⟨"b/m.é"⟩ = false ∧ g.includes ⟨"b/m.jSON"⟩ = true) ∧
    ofConfig (badlyExcluding.override { scanner := plainSettings }).scanner =
      .error (.badPattern "[b" (.unreadable "[b" .unclosedClass)) := by
  have hread : readPatterns plainSettings.exclude =
      .ok [[.leading, .literal 'a', .trailing], [.literal 'x', .star]] := by
    have hdirectory : Glob.parse "**/a/**" = .ok [.leading, .literal 'a', .trailing] := by
      simp [Glob.parse, Glob.parseFrom]; rfl
    have hstart : Glob.parse "x*" = .ok [.literal 'x', .star] := by
      simp [Glob.parse, Glob.parseFrom]; rfl
    simp only [plainSettings, readPatterns, hdirectory, hstart]
    rfl
  have hcompiled := compileExcludes_eq_ok_iff.2 ⟨hread, tooDeep?_eq_none_iff.1 (by decide)⟩
  obtain ⟨f, hf, htaken, hexcluded, hother⟩ : ∃ f, ofConfig plainSettings = .ok f ∧
      f.includes ⟨"b/m.jSON"⟩ = true ∧ f.includes ⟨"b/a/m.json"⟩ = false ∧
      f.includes ⟨"b/m.é"⟩ = false :=
    ⟨⟨plainSettings.extensions.map normalExtension, _⟩, ofConfig_eq_ok_iff.2 ⟨hcompiled, rfl⟩,
      by decide +kernel, by decide +kernel, by decide +kernel⟩
  obtain ⟨hrespelled, -⟩ := ofConfig_invariant plainSettings respelledSettings
  obtain ⟨-, hwider, -, -, hnamed⟩ := ofConfig_invariant plainSettings widerSettings
  obtain ⟨hboth, htake⟩ := hrespelled plainSettings_namesSame
  obtain ⟨f', hf'⟩ := hboth.1 ⟨f, hf⟩
  obtain ⟨g, hg, hmore⟩ := hwider plainSettings_widens f hf
  refine ⟨⟨f', g, hf', hg, ?_, ?_, ?_, hmore _ htaken⟩, ?_⟩
  · rw [← htake f f' hf hf', htaken]
  · rw [← htake f f' hf hf', hexcluded]
  · rw [← htake f f' hf hf', hother]
  · have hgood : Glob.parse "ok" = .ok [.literal 'o', .literal 'k'] := by
      simp [Glob.parse, Glob.parseFrom]; rfl
    have hbad : Glob.parse "[b" = .error .unclosedClass :=
      Glob.parse_eq_error_of_readClass rfl rfl
    have hfirst : FirstUnreadable badlyExcluding.exclude "[b" .unclosedClass :=
      ⟨["ok"], ["\x7b"], rfl, List.forall_mem_singleton.2 ⟨_, hgood⟩, hbad⟩
    have hreadable := exists_readPatterns_iff.1 ⟨_, hread⟩
    have hfound := firstUnreadable_append_iff.2 (.inr ⟨hreadable, hfirst⟩)
    have hbuilds : BuildsFromReadable (plainSettings.exclude ++ badlyExcluding.exclude) := by
      intro ps hps
      have herror := readPatterns_eq_error_iff_firstUnreadable.2 ⟨_, _, hfound, rfl⟩
      cases hps.symm.trans herror
    refine (hnamed badlyExcluding { scanner := plainSettings } hbuilds _).2 ⟨_, _, ?_, rfl⟩
    exact .inr ⟨hreadable, hfirst⟩

end BlankLines
