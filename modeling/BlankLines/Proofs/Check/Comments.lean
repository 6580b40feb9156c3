import Mathlib.Data.List.Basic
import BlankLines.Proofs.Check.Content
import BlankLines.Proofs.Check.Independence

/-!
# Proofs — Check — what comments and the policy change

Of the comments the analysis uses only the lines they start on, and of these only to excuse gaps.
So more comments leave fewer diagnostics, and the comment-aware policy reports fewer pairs than the
strict one, which looks at no comment.

* `SourceTree.reported`: the pairs that a policy reports; `statementPart_eq_reported` ties them to
  the diagnostics.
* `reported_withComments_sublist`, `reported_sublist_strict`: comments and the comment-aware policy
  only take pairs away.
* `analyze_withComments`: all that comments and the policy can change.
-/

namespace BlankLines
open Text (Lines)

/-! ### Comments only excuse -/

section

variable {policy : StatementPolicy} {p : Statement × Statement}

/-- A gap that nothing excuses among more lines of comments is one among fewer. -/
theorem isGap_of_subset {comments more : List Comment}
    (h : comments.map Comment.line ⊆ more.map Comment.line) (hp : IsGap policy more p) :
    IsGap policy comments p := by
  obtain ⟨hgap, hexcused⟩ := hp
  refine ⟨hgap, hexcused.imp_right fun hnone hwithin => hnone ?_⟩
  obtain ⟨c, hc, hfirst, hlast⟩ := hwithin
  obtain ⟨c', hc', hline⟩ := List.mem_map.1 (h (List.mem_map.2 ⟨c, hc, rfl⟩))
  exact ⟨c', hc', hline ▸ hfirst, hline ▸ hlast⟩

/-- What any policy reports among some comments, the strict one reports among any others. -/
theorem isGap_strict_of_isGap {comments : List Comment} (hp : IsGap policy comments p)
    (others : List Comment) : IsGap .strict others p :=
  isGap_strict_iff.2 (two_le_gap_iff_apart.1 hp.1)

/-- With no comment to excuse it, a gap of the strict policy is one of any policy. -/
theorem isGap_nil_of_isGap_strict {comments : List Comment} (hp : IsGap .strict comments p) :
    IsGap policy [] p :=
  ⟨hp.1, .inr fun ⟨_, hc, _⟩ => List.not_mem_nil hc⟩

end

/-! ### The reported pairs -/

namespace SourceTree

/-- A file with other comments. -/
def withComments (t : SourceTree) (comments : List Comment) : SourceTree :=
  { t with comments }

/-- The pairs of statements of a file that a policy reports, in the order of the walk. -/
def reported (policy : StatementPolicy) (t : SourceTree) : List (Statement × Statement) :=
  t.walkPairs.filter fun p => IsGap policy t.comments p

theorem reported_sublist {policy policy' : StatementPolicy} {t : SourceTree}
    {comments comments' : List Comment}
    (h : ∀ p, IsGap policy' comments' p → IsGap policy comments p) :
    ((t.withComments comments').reported policy').Sublist
      ((t.withComments comments).reported policy) :=
  List.monotone_filter_right t.walkPairs fun p hp =>
    decide_eq_true (h p (of_decide_eq_true hp))

/-- More comments take reported pairs away. -/
theorem reported_withComments_sublist (policy : StatementPolicy) (t : SourceTree)
    {comments more : List Comment} (h : comments.map Comment.line ⊆ more.map Comment.line) :
    ((t.withComments more).reported policy).Sublist ((t.withComments comments).reported policy) :=
  reported_sublist fun _ => isGap_of_subset h

/-- The comment-aware policy takes reported pairs away. -/
theorem reported_sublist_strict (policy : StatementPolicy) (t : SourceTree)
    (comments : List Comment) :
    ((t.withComments comments).reported policy).Sublist
      ((t.withComments comments).reported .strict) :=
  reported_sublist fun _ hp => isGap_strict_of_isGap hp comments

theorem reported_withComments_nil (policy : StatementPolicy) (t : SourceTree) :
    (t.withComments []).reported policy = (t.withComments []).reported .strict :=
  (reported_sublist_strict policy t []).antisymm
    (reported_sublist fun _ => isGap_nil_of_isGap_strict)

theorem reported_withComments_strict (t : SourceTree) (comments comments' : List Comment) :
    (t.withComments comments').reported .strict = (t.withComments comments).reported .strict :=
  (reported_sublist fun _ hp => isGap_strict_of_isGap hp comments).antisymm
    (reported_sublist fun _ hp => isGap_strict_of_isGap hp comments')

theorem reported_withComments_congr (policy : StatementPolicy) (t : SourceTree)
    {comments comments' : List Comment}
    (h : ∀ line, line ∈ comments'.map Comment.line ↔ line ∈ comments.map Comment.line) :
    (t.withComments comments').reported policy = (t.withComments comments).reported policy :=
  (t.reported_withComments_sublist policy fun line => (h line).2).antisymm
    (t.reported_withComments_sublist policy fun line => (h line).1)

end SourceTree

namespace Rules

/-- What is said about statements is said about the reported pairs, one by one. -/
theorem statementPart_eq_reported (rules : Rules) (t : SourceTree) (path : Path) :
    rules.statementPart t path =
      if rules.statementSpacing then
        (t.reported rules.statementPolicy).map (gapDiagnostic rules.statementPolicy path)
      else [] := by
  split
  next hon => exact statementPart_eq hon t path
  next hoff => rw [statementPart, if_neg hoff]

/-- An analysis with other comments, by the pairs that are reported with them. -/
theorem analyze_withComments_eq (rules : Rules) (t : SourceTree) (lines? : Option Lines)
    (path : Path) (comments : List Comment) :
    rules.analyze (t.withComments comments) lines? path =
      rules.declarationPart t lines? path ++
        if rules.statementSpacing then
          ((t.withComments comments).reported rules.statementPolicy).map
            (gapDiagnostic rules.statementPolicy path)
        else [] := by
  have hpart : rules.declarationPart (t.withComments comments) lines? path =
      rules.declarationPart t lines? path := declarationPart_congr rfl rfl lines? path
  rw [analyze_eq_append, hpart, statementPart_eq_reported]

/-- **What comments and the policy change.**
* Comments that start on the same lines leave the same diagnostics: their order, repetitions and
  columns do not count.
* Comments that start on more lines leave some of the diagnostics, in their order.
* Under the strict policy no comment counts.
* What is said about statements is said about the pairs the policy reports, one by one and in their
  order.  Without comments the two policies report the same pairs, so their diagnostics are as many;
  with any comments, the comment-aware policy reports some of the pairs that the strict one does, in
  their order. -/
theorem analyze_withComments (rules : Rules) (t : SourceTree) (lines? : Option Lines)
    (path : Path) (comments comments' : List Comment) :
    ((∀ line, line ∈ comments'.map Comment.line ↔ line ∈ comments.map Comment.line) →
      rules.analyze (t.withComments comments') lines? path =
        rules.analyze (t.withComments comments) lines? path) ∧
    (comments.map Comment.line ⊆ comments'.map Comment.line →
      (rules.analyze (t.withComments comments') lines? path).Sublist
        (rules.analyze (t.withComments comments) lines? path)) ∧
    (rules.statementPolicy = .strict →
      rules.analyze (t.withComments comments') lines? path =
        rules.analyze (t.withComments comments) lines? path) ∧
    (∀ policy cs,
      { rules with statementSpacing := true, statementPolicy := policy }.found
          (t.withComments cs) lines? path .unnecessaryGap =
        ((t.withComments cs).reported policy).map (gapDiagnostic policy path)) ∧
    (t.withComments []).reported .commentAware = (t.withComments []).reported .strict ∧
    ((t.withComments comments).reported .commentAware).Sublist
      ((t.withComments comments).reported .strict) := by
  simp only [analyze_withComments_eq]
  refine ⟨fun h => ?_, fun h => ?_, fun h => ?_, fun policy cs => ?_,
    t.reported_withComments_nil _, t.reported_sublist_strict _ _⟩
  · rw [t.reported_withComments_congr _ h]
  · refine (List.Sublist.refl _).append ?_
    split
    · exact (t.reported_withComments_sublist _ h).map _
    · exact List.Sublist.refl _
  · rw [h, t.reported_withComments_strict comments comments']
  · rw [found_unnecessaryGap, statementPart_eq_reported, if_pos rfl]

/-- In the file with three gaps, two of them with a comment: its comments in another order, one
twice and one in another column, then no comments, then no comments under the strict policy. -/
theorem analyze_withComments_commented :
    let shuffled : List Comment := [{ line := 10 }, { line := 3, column := 9 }, { line := 10 }]
    (Rules.analyze {} (commentedTree.withComments shuffled) (some commentedLines) ⟨"main.go"⟩ =
        [.new ⟨"main.go"⟩ ⟨6, 1⟩ .unnecessaryGap]) ∧
      [.new ⟨"main.go"⟩ ⟨6, 1⟩ .unnecessaryGap].Sublist
        (Rules.analyze {} (commentedTree.withComments []) (some commentedLines) ⟨"main.go"⟩) ∧
      Rules.analyze { statementPolicy := .strict } (commentedTree.withComments [])
          (some commentedLines) ⟨"main.go"⟩ =
        [.new ⟨"main.go"⟩ ⟨4, 1⟩ .unnecessaryGap, .new ⟨"main.go"⟩ ⟨11, 1⟩ .unnecessaryGap,
          .new ⟨"main.go"⟩ ⟨7, 1⟩ .unnecessaryGap] := by
  intro shuffled
  have hfound : Rules.analyze {} (commentedTree.withComments commentedTree.comments)
      (some commentedLines) ⟨"main.go"⟩ = [.new ⟨"main.go"⟩ ⟨6, 1⟩ .unnecessaryGap] := by
    decide +kernel
  have hsame : ∀ line, line ∈ shuffled.map Comment.line ↔
      line ∈ commentedTree.comments.map Comment.line := by
    simp [shuffled, commentedTree, or_comm, or_left_comm]
  have hlines := (analyze_withComments {} commentedTree (some commentedLines) ⟨"main.go"⟩
    commentedTree.comments shuffled).1 hsame
  have hmore := (analyze_withComments {} commentedTree (some commentedLines) ⟨"main.go"⟩
    [] commentedTree.comments).2.1 (by simp)
  have hstrict := (analyze_withComments { statementPolicy := .strict } commentedTree
    (some commentedLines) ⟨"main.go"⟩ commentedTree.comments []).2.2.1 rfl
  refine ⟨hlines.trans hfound, hfound ▸ hmore, hstrict.trans ?_⟩
  decide +kernel

end Rules

end BlankLines
