import BlankLines.Proofs.Check.Content
import BlankLines.Proofs.Tree.RoundTrip

/-!
# Proofs — Check — reported positions

Lines and columns count from one, but a tree may hold zeros, and reading it does not mind.  A zero
that a diagnostic takes over from the tree is reported.

* `OneIndexed`: a position that counts from one.
* `oneIndexed_of_mem_declarationPart`, `oneIndexed_of_mem_statementPart`: where the position of a
  diagnostic comes from, and what keeps it from being zero.
* `analyze_oneIndexed_iff`: the positions of a tree that have to count from one, so that all that is
  reported about it does.
* `ofFileText_zeroTree`: a tree that is read and reported with zeros.
-/

namespace BlankLines
open Text (Lines)

/-- A position counts from one. -/
def Position.OneIndexed (p : Position) : Prop :=
  1 ≤ p.line ∧ 1 ≤ p.column

/-- The position of a diagnostic. -/
def Diagnostic.position (x : Diagnostic) : Position :=
  ⟨x.line, x.column⟩

theorem one_le_of_toNat_pos {n : UInt64} (h : 0 < n.toNat) : 1 ≤ n :=
  UInt64.le_iff_toNat_le.2 h

/-- A gap is reported behind line zero: on the line after a statement, or on one that comes later
still. -/
theorem one_le_line_gapStart {policy : StatementPolicy} {p : Statement × Statement}
    (h : Apart p) : 1 ≤ (gapStart policy p).line := by
  apply one_le_of_toNat_pos
  cases policy with
  | commentAware =>
      rw [toNat_gapStart_commentAware h]
      exact Nat.succ_pos _
  | strict => exact Nat.lt_of_le_of_lt (Nat.zero_le _) (apart_iff.1 h)

/-! ### Where positions come from -/

namespace SourceTree

/-- Every declaration but the first starts at a position that counts from one. -/
def DeclarationsOneIndexed (t : SourceTree) : Prop :=
  ∀ d ∈ t.declarations.tail, d.span.start.OneIndexed

/-- In the blocks that are checked, every statement that comes after another with a line between
them starts in a column that counts from one. -/
def StatementsOneIndexed (t : SourceTree) : Prop :=
  ∀ p ∈ t.walkPairs, Apart p → 1 ≤ p.2.span.start.column

end SourceTree

namespace Rules

variable {rules : Rules} {t : SourceTree} {lines? : Option Lines} {path : Path} {x : Diagnostic}

theorem oneIndexed_of_mem_declarationPart (ht : t.DeclarationsOneIndexed)
    (hx : x ∈ rules.declarationPart t lines? path) : x.position.OneIndexed := by
  unfold declarationPart at hx
  split at hx
  · cases lines? with
    | none => cases hx
    | some lines =>
        obtain ⟨p, hp, rfl⟩ := List.mem_map.1 hx
        exact ht p.2 (List.of_mem_zip (List.mem_filter.1 hp).1).2
  · cases hx

/-- A gap is reported for a pair with a line between its statements. -/
theorem exists_apart_of_mem_statementPart (hx : x ∈ rules.statementPart t path) :
    ∃ p ∈ t.walkPairs, Apart p ∧ x = gapDiagnostic rules.statementPolicy path p := by
  by_cases hon : rules.statementSpacing = true
  · rw [statementPart_eq hon] at hx
    obtain ⟨p, hp, rfl⟩ := List.mem_map.1 hx
    obtain ⟨hwalk, hgap⟩ := List.mem_filter.1 hp
    exact ⟨p, hwalk, two_le_gap_iff_apart.1 (of_decide_eq_true hgap).1, rfl⟩
  · rw [statementPart, if_neg hon] at hx
    cases hx

/-- The comment-aware policy reports at the start of a line. -/
theorem oneIndexed_of_commentAware (hpolicy : rules.statementPolicy = .commentAware)
    (hx : x ∈ rules.statementPart t path) : x.position.OneIndexed := by
  obtain ⟨p, -, hapart, rfl⟩ := exists_apart_of_mem_statementPart hx
  rw [hpolicy]
  exact ⟨one_le_line_gapStart hapart, UInt64.le_refl 1⟩

theorem oneIndexed_of_mem_statementPart (ht : t.StatementsOneIndexed)
    (hx : x ∈ rules.statementPart t path) : x.position.OneIndexed := by
  cases hpolicy : rules.statementPolicy with
  | commentAware => exact oneIndexed_of_commentAware hpolicy hx
  | strict =>
      obtain ⟨p, hp, hapart, rfl⟩ := exists_apart_of_mem_statementPart hx
      rw [hpolicy]
      exact ⟨one_le_line_gapStart hapart, ht p hp hapart⟩

end Rules

/-! ### Trees that are reported with zeros -/

/-- With an empty text every declaration but the first is reported. -/
theorem exists_separationDiagnostic_mem {t : SourceTree} {d : Declaration}
    (hd : d ∈ t.declarations.tail) (path : Path) :
    ∃ a, separationDiagnostic path (a, d) ∈ Rules.analyze {} t (some (.ofText "")) path := by
  have hsecond : (neighbours t.declarations).map Prod.snd = t.declarations.tail :=
    List.map_snd_zip (by simp)
  obtain ⟨⟨a, d'⟩, hp, rfl⟩ := List.mem_map.1 (hsecond ▸ hd)
  have hbare : ¬ Separated (.ofText "") a d' := by
    rintro ⟨n, -, hn, hblank⟩
    rw [Lines.not_isBlank_of_size_lt (Nat.lt_of_le_of_lt (Nat.zero_le _) hn)] at hblank
    cases hblank
  refine ⟨a, ?_⟩
  rw [Rules.analyze_eq_append, Rules.declarationPart_of_on rfl]
  exact List.mem_append_left _ (List.mem_map.2 ⟨_, List.mem_filter.2 ⟨hp, by simpa⟩, rfl⟩)

/-- Under the strict policy every gap is reported. -/
theorem gapDiagnostic_strict_mem {t : SourceTree} {p : Statement × Statement}
    (hp : p ∈ t.walkPairs) (hapart : Apart p) (path : Path) :
    gapDiagnostic .strict path p ∈
      Rules.analyze { statementPolicy := .strict } t none path := by
  rw [Rules.analyze_eq_append, Rules.statementPart_eq rfl]
  refine List.mem_append_right _ (List.mem_map.2 ⟨p, List.mem_filter.2 ⟨hp, ?_⟩, rfl⟩)
  exact decide_eq_true (isGap_strict_iff.2 hapart)

/-- **When all that is reported counts from one.**  Whatever the text and the rules, each diagnostic
about a tree stands on a line and in a column that count from one, exactly if every declaration but
the first starts at such a position and every statement that comes after another with a line between
them starts in such a column.  The gaps that the comment-aware policy reports do so in every
tree. -/
theorem analyze_oneIndexed_iff (t : SourceTree) :
    ((∀ (rules : Rules) (lines? : Option Lines) (path : Path),
        ∀ x ∈ rules.analyze t lines? path, 1 ≤ x.line ∧ 1 ≤ x.column) ↔
      t.DeclarationsOneIndexed ∧ t.StatementsOneIndexed) ∧
    ∀ (rules : Rules) (lines? : Option Lines) (path : Path),
      rules.statementPolicy = .commentAware → ∀ x ∈ rules.analyze t lines? path,
        x.violation = .unnecessaryGap → 1 ≤ x.line ∧ 1 ≤ x.column := by
  refine ⟨⟨fun h => ⟨fun d hd => ?_, fun p hp hapart => ?_⟩, ?_⟩, ?_⟩
  · obtain ⟨a, hx⟩ := exists_separationDiagnostic_mem hd ⟨""⟩
    exact h _ _ _ _ hx
  · exact (h _ _ _ _ (gapDiagnostic_strict_mem hp hapart ⟨""⟩)).2
  · rintro ⟨hdeclarations, hstatements⟩ rules lines? path x hx
    rw [Rules.analyze_eq_append, List.mem_append] at hx
    rcases hx with hx | hx
    · exact Rules.oneIndexed_of_mem_declarationPart hdeclarations hx
    · exact Rules.oneIndexed_of_mem_statementPart hstatements hx
  · intro rules lines? path hpolicy x hx hgap
    have hx : x ∈ rules.statementPart t path := by
      rw [← Rules.filter_unnecessaryGap_analyze rules t lines?]
      exact List.mem_filter.2 ⟨hx, by simpa using hgap⟩
    exact Rules.oneIndexed_of_commentAware hpolicy hx

/-- Two declarations on line zero, in column zero. -/
def zeroTree : SourceTree where
  declarations :=
    [{ kind := .var, span := ⟨⟨0, 0⟩, ⟨0, 0⟩⟩ }, { kind := .var, span := ⟨⟨0, 0⟩, ⟨0, 0⟩⟩ }]

/-- **A zero is read and reported.** -/
theorem ofFileText_zeroTree :
    SourceTree.ofFileText ⟨"dump.json"⟩ zeroTree.toJson.toText = .ok zeroTree ∧
      Rules.analyze {} zeroTree (some (.ofText "")) ⟨"main.go"⟩ =
        [.new ⟨"main.go"⟩ ⟨0, 0⟩ .missingSeparation] := by
  refine ⟨SourceTree.ofFileText_of_fitsIn (fun d hd block hb => ?_) _, by decide +kernel⟩
  have hnone : ∀ d ∈ zeroTree.declarations, d.body = none := by decide
  rw [hnone d hd] at hb
  cases hb

end BlankLines
