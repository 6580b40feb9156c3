import BlankLines.Config.FromToml
import BlankLines.Config.Show
import BlankLines.Proofs.Json.Decoding
import BlankLines.Proofs.Json.Pretty
import BlankLines.Proofs.Toml.Reading

/-!
# Proofs — Config — a shown configuration is read back

Both forms of a configuration say everything in it, so that what is shown can be used in its place.

* `ofJson_reads`: a node that shows a configuration is read as it.
* `shows_tomlText`: the TOML form shows the settings of a configuration, in two tables.
* `ofText_shown`: the two forms are read back.
-/

namespace BlankLines
open Json (Layout Node ReadsWithin)

/-! ### JSON -/

theorem StatementPolicy.lookup_name (p : StatementPolicy) : table.lookup p.name = some p := by
  cases p <;> rfl

theorem textsOfJson_reads {texts : List String} {node : Node} (levels : Nat)
    (h : node.Shows (textsToJson texts)) :
    ReadsWithin (Json.list levels (Json.text "a string") node) (levels ≠ 0) texts := by
  have hr := Json.list_reads levels h fun _ _ _ hn => .of_eq (Json.text_reads "a string" hn)
  exact hr.of_iff (by simp)

theorem ScannerConfig.ofJson_reads (c : ScannerConfig) {node : Node} (levels : Nat)
    (h : node.Shows c.toJson) : ReadsWithin (ScannerConfig.ofJson levels node) (2 ≤ levels) c := by
  have hw : (Layout.part ⟨"extensions", Json.list (levels - 1) (Json.text "a string"),
        some ["json"]⟩ <|
      .part ⟨"exclude", Json.list (levels - 1) (Json.text "a string"), some []⟩ .done).Writes
      [("extensions", textsToJson c.extensions), ("exclude", textsToJson c.exclude)]
      (levels - 1 ≠ 0 ∧ levels - 1 ≠ 0 ∧ True) (c.extensions, c.exclude, ()) :=
    .present (fun _ hn => textsOfJson_reads _ hn) <|
      .present (fun _ hn => textsOfJson_reads _ hn) .done
  have hr := Json.record_reads levels "ScannerConfig" false hw (by simp [Layout.names]) h
  have hc : ReadsWithin (ScannerConfig.ofJson levels node) _ c := hr.map _
  exact hc.of_iff ⟨by omega, fun hl => ⟨by omega, by omega, by omega, trivial⟩⟩

theorem boolOfJson_reads {b : Bool} {node : Node} (h : node.Shows (.bool b)) :
    ReadsWithin (Json.bool node) True b := by
  cases h
  exact .of_eq rfl

theorem Rules.ofJson_reads (r : Rules) {node : Node} (levels : Nat) (h : node.Shows r.toJson) :
    ReadsWithin (Rules.ofJson levels node) (levels ≠ 0) r := by
  have hw : (Layout.part ⟨"declaration_spacing", Json.bool, some true⟩ <|
      .part ⟨"statement_spacing", Json.bool, some true⟩ <|
      .part ⟨"statement_policy", Json.choice (levels - 1) StatementPolicy.table,
        some .commentAware⟩ .done).Writes
      [("declaration_spacing", .bool r.declarationSpacing),
        ("statement_spacing", .bool r.statementSpacing),
        ("statement_policy", .text r.statementPolicy.name)]
      (True ∧ True ∧ True ∧ True)
      (r.declarationSpacing, r.statementSpacing, r.statementPolicy, ()) :=
    .present (fun _ hn => boolOfJson_reads hn) <|
      .present (fun _ hn => boolOfJson_reads hn) <|
        .present (fun _ hn => .of_eq (Json.choice_reads r.statementPolicy.lookup_name _ hn)) .done
  have hr := Json.record_reads levels "RuleConfig" false hw (by simp [Layout.names]) h
  have hrules : ReadsWithin (Rules.ofJson levels node) _ r := hr.map _
  exact hrules.of_iff (by simp)

namespace Config

/-- A node that shows a configuration is read as it, given the three levels that it takes. -/
theorem ofJson_reads (c : Config) {node : Node} (levels : Nat) (h : node.Shows c.toJson) :
    ReadsWithin (ofJson levels node) (3 ≤ levels) c := by
  have hparts : (Layout.part ⟨"scanner", ScannerConfig.ofJson (levels - 1), some {}⟩ <|
      .part ⟨"rules", Rules.ofJson (levels - 1), some {}⟩ .done).Writes
      [("scanner", c.scanner.toJson), ("rules", c.rules.toJson)]
      (2 ≤ levels - 1 ∧ levels - 1 ≠ 0 ∧ True) (c.scanner, c.rules, ()) :=
    .present (fun _ hn => c.scanner.ofJson_reads _ hn) <|
      .present (fun _ hn => c.rules.ofJson_reads _ hn) .done
  obtain ⟨fields, hfields, hw⟩ : ∃ fields, c.toJson = .object fields ∧
      (Layout.part ⟨"version", Json.nullable (Json.text "a string"), some none⟩ <|
        .part ⟨"scanner", ScannerConfig.ofJson (levels - 1), some {}⟩ <|
        .part ⟨"rules", Rules.ofJson (levels - 1), some {}⟩ .done).Writes fields
        (3 ≤ levels) (c.version, c.scanner, c.rules, ()) := by
    rcases c with ⟨_ | v, scanner, rules⟩
    · exact ⟨_, rfl, .of_iff (.absent rfl hparts)
        ⟨by omega, fun hl => ⟨by omega, by omega, trivial⟩⟩⟩
    · refine ⟨_, rfl, .of_iff (.present (fun _ hn => ?_) hparts)
        ⟨by omega, fun hl => ⟨trivial, by omega, by omega, trivial⟩⟩⟩
      exact Json.nullable_reads hn (by simp) (.of_eq (Json.text_reads "a string" hn))
  rw [hfields] at h
  have hr := Json.record_reads levels "Config" false hw (by simp [Layout.names]) h
  have hc : ReadsWithin (ofJson levels node) _ c := hr.map _
  exact hc.of_iff (by omega)

theorem toJson_fitsWords (c : Config) : c.toJson.FitsWords := by
  have htexts : ∀ texts : List String, (textsToJson texts).FitsWords := fun texts =>
    Json.itemsFitWords_map fun _ _ => trivial
  have hscanner : c.scanner.toJson.FitsWords := ⟨htexts _, htexts _, trivial⟩
  have hrules : c.rules.toJson.FitsWords := ⟨trivial, trivial, trivial, trivial⟩
  obtain ⟨_ | v, scanner, rules⟩ := c
  · exact ⟨hscanner, hrules, trivial⟩
  · exact ⟨trivial, hscanner, hrules, trivial⟩

/-- The JSON form of a configuration is read back. -/
theorem ofJsonText_jsonText (c : Config) : ofJsonText c.jsonText = .ok c := by
  have hblank : Json.Grammar.Blanks ['\n'] := by simp [Json.Grammar.Blanks, Json.isBlank]
  obtain ⟨node, after, hread, hshows, hafter⟩ := Json.ofText_pretty c.toJson_fitsWords hblank
  have htext : c.jsonText.toList = c.toJson.pretty 0 ++ ['\n'] := by
    simp [jsonText, Json.Value.toPrettyText]
  have hvalue := (c.ofJson_reads Json.depthLimit hshows).value (by decide)
  rw [ofJsonText, Json.decodeText, Json.decodeChars, htext, hread]
  simp only [hvalue, hafter]
  rfl

end Config

/-! ### TOML -/

open Toml (EntriesHold Extent Item KeyPart Line Setting Shows TableHolds)

/-- The settings of the file selection. -/
def ScannerConfig.settings (c : ScannerConfig) : List (String × Setting) :=
  [("extensions", .texts c.extensions), ("exclude", .texts c.exclude)]

/-- The settings of the rules. -/
def Rules.settings (r : Rules) : List (String × Setting) :=
  [("declaration_spacing", .bool r.declarationSpacing),
    ("statement_spacing", .bool r.statementSpacing),
    ("statement_policy", .text r.statementPolicy.name)]

namespace Config

/-- The settings outside of all tables. -/
def settings (c : Config) : List (String × Setting) :=
  c.version.toList.map fun v => ("version", .text v)

/-- The tables of a configuration. -/
def tables (c : Config) : List (String × List (String × Setting)) :=
  [("scanner", c.scanner.settings), ("rules", c.rules.settings)]

end Config

theorem ScannerConfig.shows_toToml (c : ScannerConfig) {doc : List Line} {text : List Char}
    (h : Shows doc text) :
    Shows (Toml.tableLines ("scanner", c.settings) ++ doc) (c.toToml ++ text) := by
  have hwrite : (Toml.tableLines ("scanner", c.settings)).flatMap Line.write = c.toToml := by
    simp [Toml.tableLines, Toml.pairLines, settings, toToml, Line.write, Setting.write]
  rw [← hwrite]
  refine .append ?_ h
  simp [Toml.tableLines, Toml.pairLines, settings, Line.name, Toml.IsBareName, Toml.isBare]

theorem Rules.shows_toToml (r : Rules) :
    Shows (Toml.tableLines ("rules", r.settings)) r.toToml := by
  have hwrite : (Toml.tableLines ("rules", r.settings)).flatMap Line.write = r.toToml := by
    simp [Toml.tableLines, Toml.pairLines, settings, toToml, Line.write, Setting.write]
  have hnames : ∀ line ∈ Toml.tableLines ("rules", r.settings), Toml.IsBareName line.name := by
    simp [Toml.tableLines, Toml.pairLines, settings, Line.name, Toml.IsBareName, Toml.isBare]
  have h := Shows.append hnames .nil
  rwa [hwrite, List.append_nil, List.append_nil] at h

namespace Config

theorem shows_toToml (c : Config) :
    Shows (Toml.pairLines c.settings ++ c.tables.flatMap Toml.tableLines) c.toToml := by
  have htables : Shows (c.tables.flatMap Toml.tableLines)
      (c.scanner.toToml ++ '\n' :: c.rules.toToml) := by
    have h := c.scanner.shows_toToml (.blank c.rules.shows_toToml)
    simpa [tables] using h
  obtain ⟨_ | v, scanner, rules⟩ := c
  · exact htables
  · have hnames : ∀ line ∈ Toml.pairLines [("version", .text v)], Toml.IsBareName line.name := by
      simp [Toml.pairLines, Line.name, Toml.IsBareName, Toml.isBare]
    have h := Shows.append hnames (.blank htables)
    simpa [toToml, settings, Toml.pairLines, Line.write, Setting.write] using h

/-- The TOML form of a configuration starts with a comment. -/
theorem exists_remark (c : Config) : ∃ remark : List Char, (∀ c ∈ remark, Toml.isPlain c = true) ∧
    c.tomlText.toList = '#' :: (remark ++ '\n' :: '\n' :: c.toToml) := by
  obtain ⟨remark, hplain, htext⟩ : ∃ remark : List Char, (∀ c ∈ remark, Toml.isPlain c = true) ∧
      "# Effective configuration\n\n".toList = '#' :: (remark ++ ['\n', '\n']) :=
    ⟨" Effective configuration".toList, List.all_eq_true.1 (by decide +kernel), by decide +kernel⟩
  refine ⟨remark, hplain, ?_⟩
  unfold tomlText
  rw [String.toList_append, htext, String.toList_ofList, List.cons_append, List.append_assoc]
  rfl

/-- The TOML form of a configuration shows its settings. -/
theorem shows_tomlText (c : Config) :
    Shows (Toml.pairLines c.settings ++ c.tables.flatMap Toml.tableLines) c.tomlText.toList := by
  obtain ⟨remark, hplain, htext⟩ := c.exists_remark
  rw [htext]
  exact .comment hplain (.blank c.shows_toToml)

end Config

/-- The settings of the file selection are read as it. -/
theorem ScannerConfig.record_eq (c : ScannerConfig) {entry : KeyPart × Item}
    (h : TableHolds entry ("scanner", c.settings)) (s : ScannerConfig) :
    Toml.record "ScannerConfig" parts s entry.2 = .ok c := by
  obtain ⟨-, extent, entries, hitem, hentries⟩ := h
  obtain ⟨extensions, _, ⟨hname, hextensions⟩, htail, rfl⟩ := List.forall₂_cons_right_iff.1 hentries
  obtain ⟨exclude, _, ⟨hname', hexclude⟩, hnil, rfl⟩ := List.forall₂_cons_right_iff.1 htail
  obtain rfl := List.forall₂_nil_right_iff.1 hnil
  simp only at hname hname'
  have hsorted : ([exclude, extensions].map (·.1.name)).Pairwise (· < ·) := by
    simp only [List.map_cons, List.map_nil, hname, hname']
    decide +kernel
  rw [hitem, Toml.record, Toml.recordEntries_of_perm (.swap _ _ _) hsorted]
  have hfirst : parts.read s exclude = .ok { s with exclude := c.exclude } := by
    rw [Toml.Parts.read_eq hname' rfl, hexclude.list_eq]
    rfl
  have hsecond : parts.read { s with exclude := c.exclude } extensions = .ok c := by
    rw [Toml.Parts.read_eq hname rfl, hextensions.list_eq]
    rfl
  rw [Toml.Parts.foldlM_read_cons hfirst, Toml.Parts.foldlM_read_cons hsecond]
  rfl

/-- The settings of the rules are read as them. -/
theorem Rules.record_eq (r : Rules) {entry : KeyPart × Item}
    (h : TableHolds entry ("rules", r.settings)) (s : Rules) :
    Toml.record "RuleConfig" parts s entry.2 = .ok r := by
  obtain ⟨-, extent, entries, hitem, hentries⟩ := h
  obtain ⟨ds, _, ⟨hd, hdecls⟩, htail, rfl⟩ := List.forall₂_cons_right_iff.1 hentries
  obtain ⟨ss, _, ⟨hs, hstmts⟩, hlast, rfl⟩ := List.forall₂_cons_right_iff.1 htail
  obtain ⟨ps, _, ⟨hp, hpolicy⟩, hnil, rfl⟩ := List.forall₂_cons_right_iff.1 hlast
  obtain rfl := List.forall₂_nil_right_iff.1 hnil
  simp only at hd hs hp
  have hsorted : ([ds, ps, ss].map (·.1.name)).Pairwise (· < ·) := by
    simp only [List.map_cons, List.map_nil, hd, hs, hp]
    decide +kernel
  rw [hitem, Toml.record, Toml.recordEntries_of_perm (.cons _ (.swap _ _ _)) hsorted]
  have hfirst : parts.read s ds = .ok { s with declarationSpacing := r.declarationSpacing } := by
    rw [Toml.Parts.read_eq hd rfl, hdecls.bool_eq]
    rfl
  have hsecond : parts.read { s with declarationSpacing := r.declarationSpacing } ps =
      .ok { r with statementSpacing := s.statementSpacing } := by
    rw [Toml.Parts.read_eq hp rfl, hpolicy.choice_eq r.statementPolicy.lookup_name]
    rfl
  have hthird : parts.read { r with statementSpacing := s.statementSpacing } ss = .ok r := by
    rw [Toml.Parts.read_eq hs rfl, hstmts.bool_eq]
    rfl
  rw [Toml.Parts.foldlM_read_cons hfirst, Toml.Parts.foldlM_read_cons hsecond,
    Toml.Parts.foldlM_read_cons hthird]
  rfl

namespace Config

/-- The table of a document that shows a configuration is read as it. -/
theorem recordEntries_eq (c : Config) {first more : Toml.Entries}
    (hfirst : EntriesHold first c.settings) (hmore : List.Forall₂ TableHolds more c.tables) :
    Toml.recordEntries parts {} (first ++ more) = .ok c := by
  obtain ⟨scanner, _, hscanner, htail, rfl⟩ := List.forall₂_cons_right_iff.1 hmore
  obtain ⟨rules, _, hrules, hnil, rfl⟩ := List.forall₂_cons_right_iff.1 htail
  obtain rfl := List.forall₂_nil_right_iff.1 hnil
  have hs : scanner.1.name = "scanner" := hscanner.1
  have hr : rules.1.name = "rules" := hrules.1
  have hrulesRead : parts.read {} rules = .ok { rules := c.rules } := by
    rw [Toml.Parts.read_eq hr rfl, c.rules.record_eq hrules]
    rfl
  have hscannerRead : parts.read { rules := c.rules } scanner = .ok { c with version := none } := by
    rw [Toml.Parts.read_eq hs rfl, c.scanner.record_eq hscanner]
    rfl
  obtain ⟨_ | v, cs, cr⟩ := c
  · obtain rfl := List.forall₂_nil_right_iff.1 hfirst
    have hsorted : ([rules, scanner].map (·.1.name)).Pairwise (· < ·) := by
      simp only [List.map_cons, List.map_nil, hs, hr]
      decide +kernel
    rw [List.nil_append, Toml.recordEntries_of_perm (.swap _ _ _) hsorted,
      Toml.Parts.foldlM_read_cons hrulesRead, Toml.Parts.foldlM_read_cons hscannerRead]
    rfl
  · obtain ⟨version, _, ⟨hv, hversion⟩, hnil, rfl⟩ := List.forall₂_cons_right_iff.1 hfirst
    obtain rfl := List.forall₂_nil_right_iff.1 hnil
    simp only at hv
    have hperm : ([version] ++ [scanner, rules]).Perm [rules, scanner, version] :=
      List.reverse_perm [rules, scanner, version]
    have hsorted : ([rules, scanner, version].map (·.1.name)).Pairwise (· < ·) := by
      simp only [List.map_cons, List.map_nil, hs, hr, hv]
      decide +kernel
    have hversionRead : parts.read ⟨none, cs, cr⟩ version = .ok ⟨some v, cs, cr⟩ := by
      rw [Toml.Parts.read_eq hv rfl, hversion.text_eq]
      rfl
    rw [Toml.recordEntries_of_perm hperm hsorted, Toml.Parts.foldlM_read_cons hrulesRead,
      Toml.Parts.foldlM_read_cons hscannerRead, Toml.Parts.foldlM_read_cons hversionRead]
    rfl

/-- The TOML form of a configuration is read back. -/
theorem ofTomlText_tomlText (c : Config) : ofTomlText c.tomlText = .ok c := by
  have hnames : (c.settings.map Prod.fst ++ c.tables.map Prod.fst).Nodup := by
    cases h : c.version <;> simp [settings, tables, h]
  have hpairs : ∀ table ∈ c.tables, (table.2.map Prod.fst).Nodup := by
    simp [tables, ScannerConfig.settings, Rules.settings]
  obtain ⟨first, more, hread, hfirst, hmore⟩ :=
    Toml.document_of_shows c.shows_tomlText hnames hpairs
  have hmark : Toml.withoutMark c.tomlText.toList = c.tomlText.toList := by
    obtain ⟨remark, -, htext⟩ := c.exists_remark
    rw [htext]
    rfl
  rw [ofTomlText, Toml.decodeText, hmark, hread]
  simp only [c.recordEntries_eq hfirst hmore]
  rfl

/-- **A shown configuration is read back** from either of its forms, whatever strings it holds. -/
theorem ofText_shown (c : Config) :
    ofTomlText c.tomlText = .ok c ∧ ofJsonText c.jsonText = .ok c :=
  ⟨c.ofTomlText_tomlText, c.ofJsonText_jsonText⟩

end Config

end BlankLines
