import BlankLines.Proofs.Check.Analysis
import BlankLines.Proofs.Check.Gaps

/-!
# Proofs — Check — what a gap holds

The statement rule never looks at the text: it takes a gap for blank lines and comment lines.  Here
its verdicts are held against a text in which every line of a gap is one or the other.

* `statementPart_eq`: the reported pairs, by the lines that lie strictly between their statements.
* `analyze_commentAware_content`: a gap is reported if all of it is blank, and its first line is
  the one that is named.
* `analyze_strict_content`: the strict policy reports every gap, also one that holds only comments;
  `strict_reports_comments` is such a gap.
-/

namespace BlankLines
open Text (Lines)

/-! ### The lines of a gap -/

/-- Line `n` lies strictly between two statements. -/
def Between (p : Statement × Statement) (n : Nat) : Prop :=
  p.1.span.lastLine.toNat < n ∧ n < p.2.span.firstLine.toNat

instance (p : Statement × Statement) (n : Nat) : Decidable (Between p n) :=
  inferInstanceAs (Decidable (_ ∧ _))

/-- A line lies strictly between two statements. -/
def Apart (p : Statement × Statement) : Prop :=
  ∃ n, Between p n

theorem apart_iff {p : Statement × Statement} :
    Apart p ↔ p.1.span.lastLine.toNat + 1 < p.2.span.firstLine.toNat := by
  constructor
  · rintro ⟨n, hlast, hfirst⟩
    omega
  · intro h
    exact ⟨p.1.span.lastLine.toNat + 1, by omega, h⟩

instance (p : Statement × Statement) : Decidable (Apart p) :=
  decidable_of_iff _ apart_iff.symm

/-- What holds of every line strictly between two statements. -/
theorem forall_between_iff {p : Statement × Statement} {q : Nat → Prop} :
    (∀ n, n < p.2.span.firstLine.toNat → p.1.span.lastLine.toNat < n → q n) ↔
      ∀ n, Between p n → q n :=
  ⟨fun h n hn => h n hn.2 hn.1, fun h n hfirst hlast => h n ⟨hlast, hfirst⟩⟩

/-- A comment starts on line `n`. -/
def CommentOn (comments : List Comment) (n : Nat) : Prop :=
  ∃ c ∈ comments, c.line.toNat = n

instance (comments : List Comment) (n : Nat) : Decidable (CommentOn comments n) :=
  inferInstanceAs (Decidable (∃ c ∈ comments, _))

/-- Every line strictly between two statements is there, and is blank or starts a comment. -/
def Accounted (lines : Lines) (comments : List Comment) (p : Statement × Statement) : Prop :=
  ∀ n, Between p n →
    (lines.line? n).isSome = true ∧ (lines.isBlank n = true ∨ CommentOn comments n)

instance (lines : Lines) (comments : List Comment) (p : Statement × Statement) :
    Decidable (Accounted lines comments p) :=
  decidable_of_iff _ forall_between_iff

/-- A blank line lies strictly between two statements. -/
def BlankBetween (lines : Lines) (p : Statement × Statement) : Prop :=
  ∃ n, Between p n ∧ lines.isBlank n = true

instance (lines : Lines) (p : Statement × Statement) : Decidable (BlankBetween lines p) :=
  decidable_of_iff
    (∃ n, n < p.2.span.firstLine.toNat ∧ p.1.span.lastLine.toNat < n ∧ lines.isBlank n = true)
    ⟨fun ⟨n, hfirst, hlast, h⟩ => ⟨n, ⟨hlast, hfirst⟩, h⟩,
      fun ⟨n, ⟨hlast, hfirst⟩, h⟩ => ⟨n, hfirst, hlast, h⟩⟩

/-- There are lines strictly between two statements, and all of them are blank. -/
def BlankGap (lines : Lines) (p : Statement × Statement) : Prop :=
  Apart p ∧ ∀ n, Between p n → lines.isBlank n = true

instance (lines : Lines) (p : Statement × Statement) : Decidable (BlankGap lines p) :=
  decidable_of_iff (Apart p ∧ _) (and_congr_right fun _ => forall_between_iff)

/-- There are lines strictly between two statements, and each starts a comment and is not blank. -/
def CommentGap (lines : Lines) (comments : List Comment) (p : Statement × Statement) : Prop :=
  Apart p ∧ ∀ n, Between p n → lines.isBlank n = false ∧ CommentOn comments n

/-! ### The reported pairs -/

theorem two_le_gap_iff_apart {p : Statement × Statement} : 2 ≤ gap p.1 p.2 ↔ Apart p := by
  rw [apart_iff, gap]
  omega

theorem commentWithin_iff {comments : List Comment} {p : Statement × Statement} :
    CommentWithin comments (p.1.span.lastLine.toNat + 1) (p.2.span.firstLine.toNat - 1) ↔
      ∃ n, Between p n ∧ CommentOn comments n := by
  constructor
  · rintro ⟨c, hc, hlast, hfirst⟩
    exact ⟨c.line.toNat, ⟨by omega, by omega⟩, c, hc, rfl⟩
  · rintro ⟨n, ⟨hlast, hfirst⟩, c, hc, rfl⟩
    exact ⟨c, hc, by omega, by omega⟩

theorem isGap_strict_iff {comments : List Comment} {p : Statement × Statement} :
    IsGap .strict comments p ↔ Apart p := by
  simp [IsGap, two_le_gap_iff_apart]

theorem isGap_commentAware_iff {comments : List Comment} {p : Statement × Statement} :
    IsGap .commentAware comments p ↔
      Apart p ∧ ∀ n, Between p n → ¬ CommentOn comments n := by
  simp [IsGap, two_le_gap_iff_apart, commentWithin_iff]

/-- The words at which a gap is reported. -/
def gapStart (policy : StatementPolicy) (p : Statement × Statement) : Position :=
  match policy with
  | .commentAware => { line := p.1.span.lastLine + 1 }
  | .strict       => p.2.span.start

theorem gapPosition?_eq (policy : StatementPolicy) (comments : List Comment)
    (p : Statement × Statement) :
    gapPosition? policy (.ofComments comments) p.1 p.2 =
      if IsGap policy comments p then some (gapStart policy p) else none := by
  have h := toInts_gapPosition? policy comments p
  by_cases hg : IsGap policy comments p
  · rw [if_pos hg] at h ⊢
    obtain ⟨position, hp, -⟩ := Option.map_eq_some_iff.1 h
    rw [hp]
    -- whatever is reported is reported at the place of the policy
    unfold gapPosition? at hp
    split at hp
    · cases hp
    · cases policy with
      | strict => exact hp.symm
      | commentAware =>
          dsimp only at hp
          split at hp
          · cases hp
          · exact hp.symm
  · rw [if_neg hg] at h ⊢
    exact Option.map_eq_none_iff.1 h

/-- What is said about a gap. -/
def gapDiagnostic (policy : StatementPolicy) (file : Path) (p : Statement × Statement) :
    Diagnostic :=
  .new file (gapStart policy p) .unnecessaryGap

/-- **The reported pairs of a file** are the gaps among the pairs that its walks meet. -/
theorem Rules.statementPart_eq {rules : Rules} (hon : rules.statementSpacing = true)
    (t : SourceTree) (path : Path) :
    rules.statementPart t path =
      (t.walkPairs.filter fun p => IsGap rules.statementPolicy t.comments p).map
        (gapDiagnostic rules.statementPolicy path) := by
  rw [statementPart, if_pos hon]
  induction t.walkPairs with
  | nil => rfl
  | cons p ps ih =>
      rw [List.filterMap_cons, List.filter_cons, pairDiagnostic?, gapPosition?_eq, ih]
      by_cases h : IsGap rules.statementPolicy t.comments p <;> simp [h, gapDiagnostic]

/-! ### The comment-aware policy -/

/-- Where no comment starts on a blank line, a gap without comments is a blank one. -/
theorem isGap_commentAware_iff_blankGap {lines : Lines} {comments : List Comment}
    {p : Statement × Statement} (hp : Accounted lines comments p)
    (hcomments : ∀ c ∈ comments, lines.isBlank c.line.toNat = false) :
    IsGap .commentAware comments p ↔ BlankGap lines p := by
  rw [isGap_commentAware_iff, BlankGap]
  refine and_congr_right fun _ => forall_congr' fun n => forall_congr' fun hn => ⟨?_, ?_⟩
  · exact fun hc => (hp n hn).2.resolve_right hc
  · rintro hblank ⟨c, hc, rfl⟩
    simp [hcomments c hc] at hblank

/-- The line after the first statement of a gap is the first line of the gap. -/
theorem toNat_gapStart_commentAware {p : Statement × Statement} (h : Apart p) :
    (gapStart .commentAware p).line.toNat = p.1.span.lastLine.toNat + 1 := by
  have hfirst := (words_exact p.1 p.2).first (two_le_gap_iff_apart.2 h)
  simp only [gapStart]
  omega

/-- **The comment-aware policy and the text.**  Let every line of a gap be there and be blank or
start a comment, and let no comment start on a blank line.  Then the pairs that are reported are
those with a line strictly between their statements and nothing but blank lines there, each at the
line after its first statement, which is the first line of its gap and is blank. -/
theorem analyze_commentAware_content (rules : Rules) (t : SourceTree) (lines : Lines) (path : Path)
    (hon : rules.statementSpacing = true) (hpolicy : rules.statementPolicy = .commentAware)
    (hgaps : ∀ p ∈ t.walkPairs, Accounted lines t.comments p)
    (hcomments : ∀ c ∈ t.comments, lines.isBlank c.line.toNat = false) :
    (rules.analyze t (some lines) path).filter (·.violation = .unnecessaryGap) =
      (t.walkPairs.filter fun p => BlankGap lines p).map
        (fun p => .new path ⟨p.1.span.lastLine + 1, 1⟩ .unnecessaryGap) ∧
    ∀ d ∈ rules.analyze t (some lines) path, d.violation = .unnecessaryGap →
      lines.isBlank d.line.toNat = true ∧
        ∃ p ∈ t.walkPairs, BlankGap lines p ∧ Between p d.line.toNat ∧
          ∀ n, Between p n → d.line.toNat ≤ n := by
  have hfound : (rules.analyze t (some lines) path).filter (·.violation = .unnecessaryGap) =
      (t.walkPairs.filter fun p => BlankGap lines p).map (gapDiagnostic .commentAware path) := by
    rw [Rules.filter_unnecessaryGap_analyze, Rules.statementPart_eq hon, hpolicy]
    congr 1
    refine List.filter_congr fun p hp => decide_eq_decide.2 ?_
    exact isGap_commentAware_iff_blankGap (hgaps p hp) hcomments
  refine ⟨hfound, fun d hd hv => ?_⟩
  have hmem : d ∈ (t.walkPairs.filter fun p => BlankGap lines p).map
      (gapDiagnostic .commentAware path) :=
    hfound ▸ List.mem_filter.2 ⟨hd, decide_eq_true hv⟩
  obtain ⟨p, hp, rfl⟩ := List.mem_map.1 hmem
  obtain ⟨hwalk, hblank⟩ := List.mem_filter.1 hp
  have hblank : BlankGap lines p := of_decide_eq_true hblank
  have hline : (gapDiagnostic .commentAware path p).line.toNat = p.1.span.lastLine.toNat + 1 :=
    toNat_gapStart_commentAware hblank.1
  have hbetween : Between p (p.1.span.lastLine.toNat + 1) := ⟨by omega, apart_iff.1 hblank.1⟩
  rw [hline]
  exact ⟨hblank.2 _ hbetween, p, hwalk, hblank, hbetween, fun n hn => hn.1⟩

/-- A file with a comment right after a statement, a blank line with a comment after it, and a blank
line alone in a block below: the third is reported. -/
def commentedTree : SourceTree where
  declarations :=
    [{ kind := .function
       span := .lines 1 12
       body := some
        [{ kind := .simple, span := .lines 2 2 },
          { kind := .branch
            span := .lines 4 8
            body := some
              [{ kind := .simple, span := .lines 5 5 }, { kind := .simple, span := .lines 7 7 }] },
          { kind := .simple, span := .lines 11 11 }] }]
  comments := [{ line := 3 }, { line := 10 }]

/-- The lines of that file. -/
def commentedLines : Lines :=
  .ofText
    "f()\n  a()\n  // explains b\n  if b\n    c()\n\n    d()\n  end\n\n  // explains e\n  e()\nend\n"

theorem analyze_commentAware_content_nested :
    (∀ p ∈ commentedTree.walkPairs, Accounted commentedLines commentedTree.comments p) ∧
      (∀ c ∈ commentedTree.comments, commentedLines.isBlank c.line.toNat = false) ∧
      (Rules.analyze {} commentedTree (some commentedLines) ⟨"main.go"⟩).filter
          (·.violation = .unnecessaryGap) =
        [.new ⟨"main.go"⟩ ⟨6, 1⟩ .unnecessaryGap] := by
  have hgaps : ∀ p ∈ commentedTree.walkPairs,
      Accounted commentedLines commentedTree.comments p := by
    decide +kernel
  have hcomments : ∀ c ∈ commentedTree.comments,
      commentedLines.isBlank c.line.toNat = false := by
    decide +kernel
  have h := analyze_commentAware_content {} commentedTree commentedLines ⟨"main.go"⟩ rfl rfl
    hgaps hcomments
  refine ⟨hgaps, hcomments, h.1.trans ?_⟩
  decide +kernel

/-! ### The strict policy -/

/-- A gap whose lines are accounted for has a blank line, or only comments. -/
theorem apart_iff_blank_or_commentGap {lines : Lines} {comments : List Comment}
    {p : Statement × Statement} (hp : Accounted lines comments p) :
    Apart p ↔ BlankBetween lines p ∨ CommentGap lines comments p := by
  constructor
  · intro h
    by_cases hb : BlankBetween lines p
    · exact .inl hb
    · refine .inr ⟨h, fun n hn => ?_⟩
      have hnot : ¬ lines.isBlank n = true := fun hblank => hb ⟨n, hn, hblank⟩
      exact ⟨Bool.eq_false_iff.2 hnot, (hp n hn).2.resolve_left hnot⟩
  · rintro (⟨n, hn, -⟩ | h)
    · exact ⟨n, hn⟩
    · exact h.1

/-- **The strict policy and the text.**  The pairs that are reported are those with a line strictly
between their statements, whatever it holds, each where its second statement starts.  Where every
line of the gap is there and is blank or starts a comment, that is a gap with a blank line in it, or
one in which every line starts a comment and none is blank. -/
theorem analyze_strict_content (rules : Rules) (t : SourceTree) (lines : Lines) (path : Path)
    (hon : rules.statementSpacing = true) (hpolicy : rules.statementPolicy = .strict) :
    (rules.analyze t (some lines) path).filter (·.violation = .unnecessaryGap) =
      (t.walkPairs.filter fun p => Apart p).map
        (fun p => .new path p.2.span.start .unnecessaryGap) ∧
    ∀ p ∈ t.walkPairs, Accounted lines t.comments p →
      (Apart p ↔ BlankBetween lines p ∨ CommentGap lines t.comments p) := by
  refine ⟨?_, fun p _ hp => apart_iff_blank_or_commentGap hp⟩
  rw [Rules.filter_unnecessaryGap_analyze, Rules.statementPart_eq hon, hpolicy]
  have hfilter : (t.walkPairs.filter fun p => IsGap .strict t.comments p) =
      t.walkPairs.filter fun p => Apart p :=
    List.filter_congr fun p _ => decide_eq_decide.2 isGap_strict_iff
  rw [hfilter]
  rfl

/-- In the file above the strict policy reports all three gaps, also the one that holds a comment
and nothing else. -/
theorem analyze_strict_content_nested :
    (∀ p ∈ commentedTree.walkPairs, Accounted commentedLines commentedTree.comments p) ∧
      (Rules.analyze { statementPolicy := .strict } commentedTree (some commentedLines)
          ⟨"main.go"⟩).filter (·.violation = .unnecessaryGap) =
        [.new ⟨"main.go"⟩ ⟨4, 1⟩ .unnecessaryGap, .new ⟨"main.go"⟩ ⟨11, 1⟩ .unnecessaryGap,
          .new ⟨"main.go"⟩ ⟨7, 1⟩ .unnecessaryGap] ∧
      ∀ p ∈ commentedTree.walkPairs,
        BlankBetween commentedLines p ∨ CommentGap commentedLines commentedTree.comments p := by
  have hgaps : ∀ p ∈ commentedTree.walkPairs,
      Accounted commentedLines commentedTree.comments p := by
    decide +kernel
  have h := analyze_strict_content { statementPolicy := .strict } commentedTree commentedLines
    ⟨"main.go"⟩ rfl rfl
  have hapart : ∀ p ∈ commentedTree.walkPairs, Apart p := by
    decide +kernel
  refine ⟨hgaps, h.1.trans ?_, fun p hp => (h.2 p hp (hgaps p hp)).1 (hapart p hp)⟩
  decide +kernel

/-- **A gap without a blank line is reported**: one comment stands between two statements, no line
of the text is blank, and the strict policy complains. -/
theorem strict_reports_comments :
    let t : SourceTree :=
      { declarations :=
          [{ kind := .function
             span := .lines 1 5
             body := some
              [{ kind := .simple, span := .lines 2 2 }, { kind := .simple, span := .lines 4 4 }] }]
        comments := [{ line := 3 }] }
    let lines : Lines := .ofText "f()\n  a()\n  // explains b\n  b()\nend\n"
    (∀ p ∈ t.walkPairs, Accounted lines t.comments p) ∧
      Rules.analyze { statementPolicy := .strict } t (some lines) ⟨"main.go"⟩ =
        [.new ⟨"main.go"⟩ ⟨4, 1⟩ .unnecessaryGap] ∧
      lines.blanks = [] ∧
      ¬ ∀ p ∈ t.walkPairs,
        (gapPosition? .strict (.ofComments t.comments) p.1 p.2).isSome = true ↔
          BlankBetween lines p := by
  decide +kernel

end BlankLines
