import BlankLines.Proofs.Check.Walk

/-!
# Proofs — Check — gaps over the integers

The statement rule computes with 64-bit words.  Here is the same rule over the integers, where no
sum or difference goes round, and the proof that the words never show.

* `IsGap`, `gapPlace`: which pairs of statements are reported, and where.
* `words_exact`: the words that `gapPosition?` computes are the integers they stand for, and the
  range of lines that is searched for comments is never empty or inverted.
* `checkBlock_exact`: the diagnostics of a block are the gaps among its pairs, in order.
-/

namespace BlankLines

/-! ### The rule over the integers -/

/-- How many lines after the end of `s` its successor starts; below zero if the spans overlap. -/
def gap (s next : Statement) : Int :=
  next.span.firstLine.toNat - s.span.lastLine.toNat

/-- A comment starts on one of the lines from `first` to `last`. -/
def CommentWithin (comments : List Comment) (first last : Int) : Prop :=
  ∃ c ∈ comments, first ≤ c.line.toNat ∧ c.line.toNat ≤ last

instance (comments : List Comment) (first last : Int) :
    Decidable (CommentWithin comments first last) :=
  inferInstanceAs (Decidable (∃ c ∈ comments, first ≤ c.line.toNat ∧ c.line.toNat ≤ last))

/-- Between the two statements there is a line, and nothing excuses it: the policy is strict, or no
comment starts strictly between them. -/
def IsGap (policy : StatementPolicy) (comments : List Comment) (p : Statement × Statement) : Prop :=
  2 ≤ gap p.1 p.2 ∧
    (policy = .strict ∨
      ¬ CommentWithin comments (p.1.span.lastLine.toNat + 1) (p.2.span.firstLine.toNat - 1))

instance (policy : StatementPolicy) (comments : List Comment) (p : Statement × Statement) :
    Decidable (IsGap policy comments p) :=
  inferInstanceAs (Decidable (_ ∧ _))

/-- The line and the column at which a gap is reported. -/
def gapPlace (policy : StatementPolicy) (p : Statement × Statement) : Int × Int :=
  match policy with
  | .commentAware => (p.1.span.lastLine.toNat + 1, 1)
  | .strict       => (p.2.span.start.line.toNat, p.2.span.start.column.toNat)

/-- A position as a pair of integers. -/
def Position.toInts (p : Position) : Int × Int :=
  (p.line.toNat, p.column.toNat)

/-- A diagnostic with its line and column as integers. -/
def Diagnostic.toInts (d : Diagnostic) : Path × Violation × (Int × Int) :=
  (d.file, d.violation, (d.line.toNat, d.column.toNat))

/-! ### The words stand for integers -/

/-- What the rule computes about a pair is exact: the distance stops at zero instead of going
round, and where a gap is left to judge, so are the first and the last line of it, in this order. -/
structure WordsExact (s next : Statement) : Prop where
  distance : ((LineNumber.distance s.span.lastLine next.span.firstLine).toNat : Int) =
    max 0 (gap s next)
  first : 2 ≤ gap s next →
    ((s.span.lastLine + 1).toNat : Int) = s.span.lastLine.toNat + 1
  last : 2 ≤ gap s next →
    ((next.span.firstLine - 1).toNat : Int) = next.span.firstLine.toNat - 1
  ordered : 2 ≤ gap s next → s.span.lastLine + 1 ≤ next.span.firstLine - 1

theorem words_exact (s next : Statement) : WordsExact s next := by
  have hlast := s.span.lastLine.toNat_lt
  have hfirst := next.span.firstLine.toNat_lt
  -- a gap of two leaves a line in between, so both words move by one within their range
  have first : 2 ≤ gap s next → (s.span.lastLine + 1).toNat = s.span.lastLine.toNat + 1 := by
    intro h
    rw [UInt64.toNat_add]
    simp only [gap, UInt64.reduceToNat] at *
    omega
  have last : 2 ≤ gap s next →
      (next.span.firstLine - 1).toNat = next.span.firstLine.toNat - 1 := by
    intro h
    rw [UInt64.toNat_sub_of_le]
    · rfl
    · rw [UInt64.le_iff_toNat_le]
      simp only [gap, UInt64.reduceToNat] at *
      omega
  refine ⟨?_, fun h => ?_, fun h => ?_, fun h => ?_⟩
  · rw [LineNumber.toNat_distance, gap]
    omega
  · rw [first h]
    rfl
  · rw [last h]
    simp only [gap] at h
    omega
  · rw [UInt64.le_iff_toNat_le, first h, last h]
    simp only [gap] at h
    omega

/-- No gap is left to judge exactly when the distance is at most one. -/
theorem distance_le_one_iff (s next : Statement) :
    LineNumber.distance s.span.lastLine next.span.firstLine ≤ 1 ↔ ¬ 2 ≤ gap s next := by
  have h := (words_exact s next).distance
  rw [UInt64.le_iff_toNat_le]
  simp only [UInt64.reduceToNat]
  omega

/-- Where there is a gap, looking for a comment among words is looking for one among integers. -/
theorem startsWithin_gap {comments : List Comment} {s next : Statement} (h : 2 ≤ gap s next) :
    (CommentLines.ofComments comments).startsWithin (s.span.lastLine + 1)
        (next.span.firstLine - 1) = true ↔
      CommentWithin comments (s.span.lastLine.toNat + 1) (next.span.firstLine.toNat - 1) := by
  rw [CommentLines.startsWithin_iff, CommentWithin, ← (words_exact s next).first h,
    ← (words_exact s next).last h]
  simp only [CommentLines.ofComments, UInt64.le_iff_toNat_le, Int.ofNat_le]
  constructor
  · rintro ⟨line, hm, hf, hl⟩
    obtain ⟨c, hc, rfl⟩ := List.mem_map.1 hm
    exact ⟨c, hc, hf, hl⟩
  · rintro ⟨c, hc, hf, hl⟩
    exact ⟨c.line, List.mem_map.2 ⟨c, hc, rfl⟩, hf, hl⟩

theorem toInts_gapPosition? (policy : StatementPolicy) (comments : List Comment)
    (p : Statement × Statement) :
    (gapPosition? policy (.ofComments comments) p.1 p.2).map Position.toInts =
      if IsGap policy comments p then some (gapPlace policy p) else none := by
  simp only [gapPosition?]
  by_cases h : 2 ≤ gap p.1 p.2
  · rw [if_neg fun hd => (distance_le_one_iff p.1 p.2).1 hd h]
    cases policy with
    | strict => simp [IsGap, gapPlace, Position.toInts, h]
    | commentAware =>
        have hf := (words_exact p.1 p.2).first h
        by_cases hc : CommentWithin comments (p.1.span.lastLine.toNat + 1)
            (p.2.span.firstLine.toNat - 1)
        · have hn : ¬ IsGap .commentAware comments p := by
            rintro ⟨-, hs | hn⟩
            · cases hs
            · exact hn hc
          rw [if_pos ((startsWithin_gap h).2 hc), if_neg hn]
          rfl
        · rw [if_neg fun hs => hc ((startsWithin_gap h).1 hs), if_pos ⟨h, .inr hc⟩]
          simp only [Option.map_some, Position.toInts, gapPlace, hf]
          rfl
  · rw [if_pos ((distance_le_one_iff p.1 p.2).2 h), if_neg fun hg => h hg.1]
    rfl

/-! ### A whole block -/

theorem toInts_pairDiagnostic? (policy : StatementPolicy) (comments : List Comment) (file : Path)
    (p : Statement × Statement) :
    (pairDiagnostic? policy (.ofComments comments) file p).map Diagnostic.toInts =
      if IsGap policy comments p then some (file, .unnecessaryGap, gapPlace policy p)
      else none := by
  have h := congrArg (Option.map fun place => (file, Violation.unnecessaryGap, place))
    (toInts_gapPosition? policy comments p)
  rw [Option.map_map] at h
  rw [pairDiagnostic?, Option.map_map]
  refine Eq.trans h ?_
  split <;> rfl

/-- The diagnostics of a list of pairs, as integers. -/
theorem toInts_pairDiagnostics (policy : StatementPolicy) (comments : List Comment) (file : Path)
    (ps : List (Statement × Statement)) :
    (ps.filterMap (pairDiagnostic? policy (.ofComments comments) file)).map Diagnostic.toInts =
      (ps.filter fun p => IsGap policy comments p).map fun p =>
        (file, .unnecessaryGap, gapPlace policy p) := by
  rw [List.map_filterMap]
  induction ps with
  | nil => rfl
  | cons p ps ih =>
      rw [List.filterMap_cons, List.filter_cons, toInts_pairDiagnostic?, ih]
      by_cases h : IsGap policy comments p <;> simp [h]

/-- **A block is checked exactly.**  The walk meets, for `i` from zero on, the statement at `i` with
the one at `i + 1` and then the pairs of the block that the statement at `i` owns, which takes one
of the owning kinds and a block that is there.  What it adds to a reporter is one diagnostic for
each gap among these pairs, in their order and at the gap's place, as computed over the integers;
no word it computes on the way has gone round. -/
theorem checkBlock_exact (policy : StatementPolicy) (comments : List Comment) (block : Block)
    (r : Reporter) :
    (pairs block = (List.range block.length).flatMap fun i =>
      (block[i]?.elim [] fun s => withNext s block[i + 1]?) ++
        (block[i]?.bind Statement.owned?).elim [] pairs) ∧
    (∀ (s : Statement) (inner : Block),
      s.owned? = some inner ↔ s.kind ∈ StatementKind.owning ∧ s.body = some inner) ∧
    (∃ added : List Diagnostic,
      (checkBlock policy (.ofComments comments) block r).file = r.file ∧
      (checkBlock policy (.ofComments comments) block r).toList = r.toList ++ added ∧
      added.map Diagnostic.toInts =
        ((pairs block).filter fun p => IsGap policy comments p).map fun p =>
          (r.file, .unnecessaryGap, gapPlace policy p)) ∧
    ∀ p ∈ pairs block, WordsExact p.1 p.2 := by
  refine ⟨pairs_eq_flatMap_range block, fun _ _ => Statement.owned?_eq_some_iff,
    ⟨(pairs block).filterMap (pairDiagnostic? policy (.ofComments comments) r.file), ?_, ?_, ?_⟩,
    fun p _ => words_exact p.1 p.2⟩
  · rw [checkBlock_eq_append, Reporter.file_append]
  · rw [checkBlock_eq_append, Reporter.toList_append]
  · exact toInts_pairDiagnostics policy comments r.file (pairs block)

end BlankLines
