import BlankLines.Proofs.Check.Nesting

/-!
# Proofs — Check — moved lines

An edit of the text moves the lines of a tree.  Here is when an analysis moves along: the
diagnostics are those it found before, on the lines their places have moved to.

* `SourceTree.mapLines`: a tree with every line number replaced.
* `MovesBy`: a pair's two ends and the lines between them move by one number of lines, and no
  comment crosses them.
* `statementPart_mapLines`, `declarationPart_mapLines`: where every pair of statements is moved as
  one, and every two neighbours with the text between them, the diagnostics are moved.
* `Spreads.movesBy`: if lines keep their order and never come closer to each other, then a pair
  whose ends move by one number is moved as one.
* `SourceTree.lineNumbers`: the line numbers of a tree; no diagnostic stands on a later line than
  all of them (`exists_lineNumber_of_mem_analyze`).
-/

namespace BlankLines
open Text (Lines)

/-! ### Replacing line numbers -/

section

variable (f : UInt64 → UInt64)

def Position.mapLine (p : Position) : Position :=
  { p with line := f p.line }

def Span.mapLines (s : Span) : Span :=
  ⟨s.start.mapLine f, s.stop.mapLine f⟩

namespace Statement

mutual

/-- A statement with every line number replaced, also in the block it holds. -/
def mapLines : Statement → Statement
  | ⟨kind, span, body⟩ => ⟨kind, span.mapLines f, mapLinesBody body⟩

/-- A block, if there is one, with every line number replaced. -/
def mapLinesBody : Option (List Statement) → Option (List Statement)
  | none       => none
  | some block => some (mapLinesBlock block)

/-- A block with every line number replaced. -/
def mapLinesBlock : List Statement → List Statement
  | []        => []
  | s :: rest => mapLines s :: mapLinesBlock rest

end

end Statement

/-- A declaration with every line number replaced, also in the block it holds. -/
def Declaration.mapLines (d : Declaration) : Declaration :=
  ⟨d.kind, d.span.mapLines f, d.body.map (List.map (Statement.mapLines f))⟩

def Comment.mapLine (c : Comment) : Comment :=
  { c with line := f c.line }

/-- A tree with every line number replaced, whatever the analysis looks at. -/
def SourceTree.mapLines (t : SourceTree) : SourceTree :=
  { t with
    declarations := t.declarations.map (Declaration.mapLines f)
    comments := t.comments.map (Comment.mapLine f) }

def Diagnostic.mapLine (d : Diagnostic) : Diagnostic :=
  { d with line := f d.line }

/-- Two statements with every line number replaced. -/
def mapPair (p : Statement × Statement) : Statement × Statement :=
  (p.1.mapLines f, p.2.mapLines f)

end

variable {f : UInt64 → UInt64}

@[simp] theorem Statement.span_mapLines (s : Statement) :
    (s.mapLines f).span = s.span.mapLines f := by
  cases s
  rfl

@[simp] theorem Span.firstLine_mapLines (s : Span) :
    (s.mapLines f).firstLine = f s.firstLine := rfl

@[simp] theorem Span.lastLine_mapLines (s : Span) :
    (s.mapLines f).lastLine = f s.lastLine := rfl

@[simp] theorem lastLine_mapPair (p : Statement × Statement) :
    (mapPair f p).1.span.lastLine = f p.1.span.lastLine := by
  simp [mapPair]

@[simp] theorem firstLine_mapPair (p : Statement × Statement) :
    (mapPair f p).2.span.firstLine = f p.2.span.firstLine := by
  simp [mapPair]

theorem Statement.mapLinesBlock_eq_map (block : Block) :
    mapLinesBlock f block = block.map (mapLines f) := by
  induction block with
  | nil => rfl
  | cons s rest ih => rw [mapLinesBlock, ih, List.map_cons]

theorem Statement.owned?_mapLines (s : Statement) :
    (s.mapLines f).owned? = s.owned?.map (List.map (mapLines f)) := by
  obtain ⟨kind, span, body⟩ := s
  cases h : kind.ownsBlock <;> cases body <;>
    simp [mapLines, mapLinesBody, owned?, mapLinesBlock_eq_map, h]

/-! ### The pairs of a moved walk -/

theorem withNext_map (s : Statement) (next? : Option Statement) :
    withNext (s.mapLines f) (next?.map (Statement.mapLines f)) =
      (withNext s next?).map (mapPair f) := by
  cases next? <;> rfl

theorem pairs_map {block : Block}
    (h : ∀ s ∈ block, ownedPairs (s.mapLines f) = (ownedPairs s).map (mapPair f)) :
    pairs (block.map (Statement.mapLines f)) = (pairs block).map (mapPair f) := by
  induction block with
  | nil => rfl
  | cons s rest ih =>
      rw [List.map_cons, pairs, pairs, List.head?_map, withNext_map, h s (.head _),
        ih fun a ha => h a (.tail _ ha), List.map_append, List.map_append]

theorem ownedPairs_mapLines (s : Statement) :
    ownedPairs (s.mapLines f) = (ownedPairs s).map (mapPair f) := by
  induction s using Statement.induct with
  | h s ih =>
  rw [ownedPairs_eq_bodyPairs, ownedPairs_eq_bodyPairs, Statement.owned?_mapLines]
  cases howned : s.owned? with
  | none => rfl
  | some block => exact pairs_map (ih block (Statement.owned?_eq_some_iff.1 howned).2)

theorem Declaration.walkPairs_mapLines (d : Declaration) :
    (d.mapLines f).walkPairs = d.walkPairs.map (mapPair f) := by
  obtain ⟨kind, span, body⟩ := d
  cases kind <;> cases body <;> try rfl
  exact pairs_map fun s _ => ownedPairs_mapLines s

theorem SourceTree.walkPairs_mapLines (t : SourceTree) :
    (t.mapLines f).walkPairs = t.walkPairs.map (mapPair f) := by
  simp only [walkPairs_eq_flatMap, mapLines, List.flatMap_map, List.map_flatMap,
    Declaration.walkPairs_mapLines]

/-! ### Moving a pair of statements -/

/-- The ends of a pair and the lines between them move by `k` lines, and a comment that is not
between them does not get there. -/
structure MovesBy (f : UInt64 → UInt64) (comments : List Comment) (k : Nat)
    (p : Statement × Statement) : Prop where
  last : (f p.1.span.lastLine).toNat = p.1.span.lastLine.toNat + k
  first : (f p.2.span.firstLine).toNat = p.2.span.firstLine.toNat + k
  between : ∀ line : UInt64, Between p line.toNat → (f line).toNat = line.toNat + k
  outside : ∀ c ∈ comments, ¬ Between p c.line.toNat → ¬ Between (mapPair f p) (f c.line).toNat

theorem isGap_iff {policy : StatementPolicy} {comments : List Comment}
    {p : Statement × Statement} :
    IsGap policy comments p ↔
      Apart p ∧ (policy = .strict ∨ ∀ c ∈ comments, ¬ Between p c.line.toNat) := by
  rw [IsGap, two_le_gap_iff_apart, commentWithin_iff]
  have hcomment : (∃ n, Between p n ∧ CommentOn comments n) ↔
      ∃ c ∈ comments, Between p c.line.toNat := by
    constructor
    · rintro ⟨_, hn, c, hc, rfl⟩
      exact ⟨c, hc, hn⟩
    · rintro ⟨c, hc, hn⟩
      exact ⟨_, hn, c, hc, rfl⟩
  simp [hcomment]

namespace MovesBy

variable {comments : List Comment} {k : Nat} {p : Statement × Statement}

theorem apart_iff (h : MovesBy f comments k p) : Apart (mapPair f p) ↔ Apart p := by
  have hlast := h.last
  have hfirst := h.first
  rw [BlankLines.apart_iff, BlankLines.apart_iff, lastLine_mapPair, firstLine_mapPair]
  omega

theorem between_iff (h : MovesBy f comments k p) {c : Comment} (hc : c ∈ comments) :
    Between (mapPair f p) (f c.line).toNat ↔ Between p c.line.toNat := by
  refine ⟨fun hb => ?_, fun hb => ?_⟩
  · by_contra hn
    exact h.outside c hc hn hb
  · have hlast := h.last
    have hfirst := h.first
    have hline := h.between c.line hb
    rw [Between, lastLine_mapPair, firstLine_mapPair]
    simp only [Between] at hb
    omega

theorem isGap_iff (h : MovesBy f comments k p) (policy : StatementPolicy) :
    IsGap policy (comments.map (Comment.mapLine f)) (mapPair f p) ↔ IsGap policy comments p := by
  rw [BlankLines.isGap_iff, BlankLines.isGap_iff, h.apart_iff, List.forall_mem_map]
  refine and_congr_right fun _ => or_congr_right (forall₂_congr fun c hc => ?_)
  exact not_congr (h.between_iff hc)

theorem gapStart_eq (h : MovesBy f comments k p) (hapart : Apart p) (policy : StatementPolicy) :
    gapStart policy (mapPair f p) = (gapStart policy p).mapLine f := by
  cases policy with
  | strict =>
      obtain ⟨_, _⟩ := p
      simp [gapStart, mapPair, Span.mapLines]
  | commentAware =>
      have hstart := toNat_gapStart_commentAware hapart
      have hmoved := toNat_gapStart_commentAware (h.apart_iff.2 hapart)
      have hbetween := h.between (gapStart .commentAware p).line
        ⟨by omega, by rw [hstart]; exact BlankLines.apart_iff.1 hapart⟩
      have hlast := h.last
      have hline : (gapStart .commentAware (mapPair f p)).line =
          f (gapStart .commentAware p).line := by
        refine UInt64.toNat_inj.1 ?_
        rw [lastLine_mapPair] at hmoved
        omega
      exact congrArg (fun line => ({ line } : Position)) hline

theorem pairDiagnostic?_eq (h : MovesBy f comments k p) (policy : StatementPolicy) (file : Path) :
    pairDiagnostic? policy (.ofComments (comments.map (Comment.mapLine f))) file (mapPair f p) =
      (pairDiagnostic? policy (.ofComments comments) file p).map (Diagnostic.mapLine f) := by
  rw [pairDiagnostic?, pairDiagnostic?, gapPosition?_eq, gapPosition?_eq]
  by_cases hg : IsGap policy comments p
  · rw [if_pos hg, if_pos ((h.isGap_iff policy).2 hg),
      h.gapStart_eq (two_le_gap_iff_apart.1 hg.1)]
    rfl
  · rw [if_neg hg, if_neg fun hg' => hg ((h.isGap_iff policy).1 hg')]
    rfl

end MovesBy

/-- **Moved statements.**  If every pair of a walk is moved as one, then so are the diagnostics on
statements. -/
theorem Rules.statementPart_mapLines {t : SourceTree}
    (h : ∀ p ∈ t.walkPairs, ∃ k, MovesBy f t.comments k p) (rules : Rules) (path : Path) :
    rules.statementPart (t.mapLines f) path =
      (rules.statementPart t path).map (Diagnostic.mapLine f) := by
  unfold statementPart
  split
  · rw [SourceTree.walkPairs_mapLines, List.filterMap_map, List.map_filterMap]
    refine List.filterMap_congr fun p hp => ?_
    obtain ⟨k, hk⟩ := h p hp
    exact hk.pairDiagnostic?_eq rules.statementPolicy path
  · rfl

/-! ### Moving neighbouring declarations -/

/-- Two declarations with every line number replaced. -/
def mapNeighbours (f : UInt64 → UInt64) (p : Declaration × Declaration) :
    Declaration × Declaration :=
  (p.1.mapLines f, p.2.mapLines f)

theorem neighbours_map (ds : List Declaration) :
    neighbours (ds.map (Declaration.mapLines f)) = (neighbours ds).map (mapNeighbours f) := by
  rw [neighbours, ← List.map_tail, List.zip_map]
  rfl

/-- Neighbours that are moved as one, with the lines of text between them, are separated as
before. -/
theorem separated_mapLines {lines lines' : Lines} {d next : Declaration} {k : Nat}
    (hlast : (f d.span.lastLine).toNat = d.span.lastLine.toNat + k)
    (hfirst : (f next.span.firstLine).toNat = next.span.firstLine.toNat + k)
    (hblank : ∀ n, d.span.lastLine.toNat < n → n < next.span.firstLine.toNat →
      lines'.isBlank (n + k) = lines.isBlank n) :
    Separated lines' (d.mapLines f) (next.mapLines f) ↔ Separated lines d next := by
  simp only [Separated, Declaration.mapLines, Span.firstLine_mapLines, Span.lastLine_mapLines,
    hlast, hfirst]
  constructor
  · rintro ⟨n, hn, hn', hb⟩
    refine ⟨n - k, by omega, by omega, ?_⟩
    rw [← hblank (n - k) (by omega) (by omega), Nat.sub_add_cancel (by omega)]
    exact hb
  · rintro ⟨n, hn, hn', hb⟩
    exact ⟨n + k, by omega, by omega, (hblank n hn' hn).trans hb⟩

theorem unseparated_mapLines {lines lines' : Lines} {ds : List Declaration}
    (h : ∀ p ∈ neighbours ds, Separated lines' (p.1.mapLines f) (p.2.mapLines f) ↔
      Separated lines p.1 p.2) :
    unseparated lines' (ds.map (Declaration.mapLines f)) =
      (unseparated lines ds).map (mapNeighbours f) := by
  rw [unseparated, neighbours_map, List.filter_map, unseparated]
  refine congrArg _ (List.filter_congr fun p hp => decide_eq_decide.2 ?_)
  exact not_congr (h p hp)

/-- What is said about moved neighbours is what is said about them, moved. -/
theorem map_separationDiagnostic (file : Path) (ps : List (Declaration × Declaration)) :
    (ps.map (mapNeighbours f)).map (separationDiagnostic file) =
      (ps.map (separationDiagnostic file)).map (Diagnostic.mapLine f) := by
  rw [List.map_map, List.map_map]
  rfl

/-- **Moved declarations.**  If every two neighbours are separated when moved as they were before,
then the diagnostics on declarations are moved. -/
theorem Rules.declarationPart_mapLines {t : SourceTree} {lines lines' : Lines}
    (h : ∀ p ∈ neighbours t.declarations,
      Separated lines' (p.1.mapLines f) (p.2.mapLines f) ↔ Separated lines p.1 p.2)
    (rules : Rules) (path : Path) :
    rules.declarationPart (t.mapLines f) (some lines') path =
      (rules.declarationPart t (some lines) path).map (Diagnostic.mapLine f) := by
  unfold declarationPart
  split
  · exact (congrArg _ (unseparated_mapLines h)).trans (map_separationDiagnostic path _)
  · rfl

/-! ### The line numbers of a tree -/

namespace Statement

mutual

/-- The line numbers of a statement and of the block it holds. -/
def lineNumbers : Statement → List UInt64
  | ⟨_, span, body⟩ => span.firstLine :: span.lastLine :: bodyLineNumbers body

/-- The line numbers of a block if there is one. -/
def bodyLineNumbers : Option (List Statement) → List UInt64
  | none       => []
  | some block => blockLineNumbers block

/-- The line numbers of a block. -/
def blockLineNumbers : List Statement → List UInt64
  | []        => []
  | s :: rest => lineNumbers s ++ blockLineNumbers rest

end

theorem mem_blockLineNumbers {block : Block} {line : UInt64} :
    line ∈ blockLineNumbers block ↔ ∃ s ∈ block, line ∈ s.lineNumbers := by
  induction block with
  | nil => simp [blockLineNumbers]
  | cons s rest ih => simp [blockLineNumbers, ih]

theorem firstLine_mem_lineNumbers (s : Statement) : s.span.firstLine ∈ s.lineNumbers := by
  cases s
  exact .head _

theorem lastLine_mem_lineNumbers (s : Statement) : s.span.lastLine ∈ s.lineNumbers := by
  cases s
  exact .tail _ (.head _)

theorem blockLineNumbers_subset {s : Statement} {block : Block} (h : s.body = some block) :
    blockLineNumbers block ⊆ s.lineNumbers := by
  obtain ⟨kind, span, body⟩ := s
  obtain rfl : body = some block := h
  exact fun _ hline => .tail _ (.tail _ hline)

end Statement

open Statement (blockLineNumbers bodyLineNumbers mem_blockLineNumbers)

/-- The statements of the blocks below an owner write no other line numbers than its own block,
given this of the statements in that block. -/
theorem lineNumbers_subset_of_mem_bodyBlocks {owner : Span} {body : Option Block}
    (howned : ∀ block, body = some block →
      ∀ s ∈ block, ∀ b ∈ ownedBlocks s, ∀ a ∈ b.2, a.lineNumbers ⊆ s.lineNumbers)
    {b : Span × Block} (hb : b ∈ bodyBlocks owner body) {a : Statement} (ha : a ∈ b.2) :
    a.lineNumbers ⊆ bodyLineNumbers body := by
  intro line hline
  cases body with
  | none => cases hb
  | some block =>
      rw [bodyLineNumbers, mem_blockLineNumbers]
      rcases List.mem_cons.1 hb with rfl | hb
      · exact ⟨a, ha, hline⟩
      · obtain ⟨s, hs, hb⟩ := mem_innerBlocks.1 hb
        exact ⟨s, hs, howned block rfl s hs b hb a ha hline⟩

theorem lineNumbers_subset_of_mem_ownedBlocks (s : Statement) :
    ∀ b ∈ ownedBlocks s, ∀ a ∈ b.2, a.lineNumbers ⊆ s.lineNumbers := by
  induction s using Statement.induct with
  | h s ih =>
  rw [ownedBlocks_eq]
  intro b hb a ha line hline
  have hsub := lineNumbers_subset_of_mem_bodyBlocks (fun block howned =>
    ih block (Statement.owned?_eq_some_iff.1 howned).2) hb ha hline
  cases howned : s.owned? with
  | none => simp [howned, bodyLineNumbers] at hsub
  | some block =>
      rw [howned, bodyLineNumbers] at hsub
      exact Statement.blockLineNumbers_subset (Statement.owned?_eq_some_iff.1 howned).2 hsub

/-- The line numbers of a declaration and of the block it holds. -/
def Declaration.lineNumbers (d : Declaration) : List UInt64 :=
  d.span.firstLine :: d.span.lastLine :: bodyLineNumbers d.body

theorem Declaration.lineNumbers_subset_of_mem_blocks {d : Declaration} {b : Span × Block}
    (hb : b ∈ d.blocks) {s : Statement} (hs : s ∈ b.2) : s.lineNumbers ⊆ d.lineNumbers := by
  intro line hline
  have hsub := lineNumbers_subset_of_mem_bodyBlocks
    (fun _ _ s _ => lineNumbers_subset_of_mem_ownedBlocks s) hb hs hline
  obtain ⟨kind, span, body⟩ := d
  cases kind with
  | function => exact .tail _ (.tail _ hsub)
  | type | var | const | imports => simp [functionBody?, bodyLineNumbers] at hsub

namespace SourceTree

/-- Every line number of a tree and its comments, whatever the analysis looks at. -/
def lineNumbers (t : SourceTree) : List UInt64 :=
  t.declarations.flatMap Declaration.lineNumbers ++ t.comments.map Comment.line

theorem lineNumbers_subset {t : SourceTree} {d : Declaration} (hd : d ∈ t.declarations) :
    d.lineNumbers ⊆ t.lineNumbers :=
  fun _ hline => List.mem_append_left _ (List.mem_flatMap.2 ⟨d, hd, hline⟩)

theorem line_mem_lineNumbers {t : SourceTree} {c : Comment} (hc : c ∈ t.comments) :
    c.line ∈ t.lineNumbers :=
  List.mem_append_right _ (List.mem_map.2 ⟨c, hc, rfl⟩)

/-- The ends of the pairs of a walk are line numbers of the tree. -/
theorem ends_mem_lineNumbers {t : SourceTree} {p : Statement × Statement} (hp : p ∈ t.walkPairs) :
    p.1.span.lastLine ∈ t.lineNumbers ∧ p.2.span.firstLine ∈ t.lineNumbers := by
  rw [walkPairs_eq_flatMap] at hp
  obtain ⟨d, hd, hp⟩ := List.mem_flatMap.1 hp
  obtain ⟨b, hb, h₁, h₂⟩ := Declaration.exists_block_of_mem_walkPairs hp
  exact ⟨lineNumbers_subset hd
      (Declaration.lineNumbers_subset_of_mem_blocks hb h₁ p.1.lastLine_mem_lineNumbers),
    lineNumbers_subset hd
      (Declaration.lineNumbers_subset_of_mem_blocks hb h₂ p.2.firstLine_mem_lineNumbers)⟩

/-- The ends of neighbouring declarations are line numbers of the tree. -/
theorem neighbours_mem_lineNumbers {t : SourceTree} {p : Declaration × Declaration}
    (hp : p ∈ neighbours t.declarations) :
    p.1.span.lastLine ∈ t.lineNumbers ∧ p.2.span.firstLine ∈ t.lineNumbers := by
  have h₁ : p.1 ∈ t.declarations := (List.of_mem_zip hp).1
  have h₂ : p.2 ∈ t.declarations := List.mem_of_mem_tail (List.of_mem_zip hp).2
  exact ⟨lineNumbers_subset h₁ (.tail _ (.head _)), lineNumbers_subset h₂ (.head _)⟩

end SourceTree

/-- Up to a limit, `f` keeps lines in order and brings none closer to another. -/
def Spreads (f : UInt64 → UInt64) (limit : Nat) : Prop :=
  ∀ line later : UInt64, line.toNat ≤ later.toNat → later.toNat < limit →
    (f line).toNat + (later.toNat - line.toNat) ≤ (f later).toNat

/-- If the ends of a pair move by one number, then what lies between them has no room to do
otherwise, and what lies outside stays there. -/
theorem Spreads.movesBy {t : SourceTree} {limit k : Nat} (hf : Spreads f limit)
    (hfits : ∀ line ∈ t.lineNumbers, line.toNat < limit) {p : Statement × Statement}
    (hp : p ∈ t.walkPairs) (hlast : (f p.1.span.lastLine).toNat = p.1.span.lastLine.toNat + k)
    (hfirst : (f p.2.span.firstLine).toNat = p.2.span.firstLine.toNat + k) :
    MovesBy f t.comments k p := by
  have hlimit := hfits _ (SourceTree.ends_mem_lineNumbers hp).1
  have hlimit' := hfits _ (SourceTree.ends_mem_lineNumbers hp).2
  refine ⟨hlast, hfirst, fun line hline => ?_, fun c hc hout hin => ?_⟩
  · obtain ⟨hafter, hbefore⟩ := hline
    have := hf _ line (Nat.le_of_lt hafter) (by omega)
    have := hf line _ (Nat.le_of_lt hbefore) hlimit'
    omega
  · have hcomment := hfits _ (SourceTree.line_mem_lineNumbers hc)
    rw [Between, lastLine_mapPair, firstLine_mapPair] at hin
    rcases Nat.lt_or_ge p.1.span.lastLine.toNat c.line.toNat with hafter | hle
    · have hge : p.2.span.firstLine.toNat ≤ c.line.toNat :=
        Nat.not_lt.1 fun hbefore => hout ⟨hafter, hbefore⟩
      have := hf _ c.line hge hcomment
      omega
    · have := hf c.line _ hle hlimit
      omega

/-- No diagnostic stands behind all line numbers of the tree. -/
theorem Rules.exists_lineNumber_of_mem_analyze {rules : Rules} {t : SourceTree}
    {lines? : Option Lines} {path : Path} {x : Diagnostic}
    (hx : x ∈ rules.analyze t lines? path) :
    ∃ line ∈ t.lineNumbers, x.line.toNat ≤ line.toNat := by
  rw [analyze_eq_append, List.mem_append] at hx
  rcases hx with hx | hx
  · unfold declarationPart at hx
    split at hx
    · cases lines? with
      | none => cases hx
      | some lines =>
          obtain ⟨p, hp, rfl⟩ := List.mem_map.1 hx
          have hp : p ∈ neighbours t.declarations := (List.mem_filter.1 hp).1
          exact ⟨_, (SourceTree.neighbours_mem_lineNumbers hp).2, Nat.le_refl _⟩
    · cases hx
  · unfold statementPart at hx
    split at hx
    · obtain ⟨p, hp, hd⟩ := List.mem_filterMap.1 hx
      exact ⟨_, (SourceTree.ends_mem_lineNumbers hp).2, (reaches_of_pairDiagnostic? hd).2⟩
    · cases hx

end BlankLines
