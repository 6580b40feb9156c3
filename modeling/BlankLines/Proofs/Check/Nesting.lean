import BlankLines.Proofs.Check.Content
import Mathlib.Data.List.Chain

/-!
# Proofs — Check — nested spans

A parser hands over spans that run forward, follow each other and lie inside the span of what owns
them.  Nothing in the types says so.  Here is what such spans give the statement rule: no line is
reported twice.

* `Declaration.blocks`: the blocks that the walk over a function checks, each with the span of the
  function or statement that owns it.
* `SourceTree.WellFormed`: every span runs forward, follows the one before it and lies inside its
  owner.
* `pairs_reach`, `pairs_disjoint`: a pair *reaches* from the line after its first statement to the
  line on which its second starts; this stays inside the owner, and no two pairs of a walk reach
  the same line.
* `analyze_lines_distinct`: a gap is reported on a line its pair reaches, so the reported lines
  differ from each other.
-/

namespace BlankLines
open Text (Lines)

/-! ### The blocks of a walk -/

mutual

/-- The blocks checked below a statement, each with the span of its owner. -/
def ownedBlocks : Statement → List (Span × List Statement)
  | ⟨kind, span, body⟩ => if kind ∈ StatementKind.owning then bodyBlocks span body else []

/-- A block if there is one, with the span of its owner, and the blocks below it. -/
def bodyBlocks (owner : Span) : Option (List Statement) → List (Span × List Statement)
  | none       => []
  | some block => (owner, block) :: innerBlocks block

/-- The blocks checked below the statements of a block. -/
def innerBlocks : List Statement → List (Span × List Statement)
  | []        => []
  | s :: rest => ownedBlocks s ++ innerBlocks rest

end

theorem ownedBlocks_eq (s : Statement) : ownedBlocks s = bodyBlocks s.span s.owned? := by
  obtain ⟨kind, span, body⟩ := s
  by_cases h : kind ∈ StatementKind.owning
  · have h' := (StatementKind.ownsBlock_iff_mem_owning kind).2 h
    simp [ownedBlocks, Statement.owned?, h, h']
  · have h' : ¬ kind.ownsBlock = true := mt (StatementKind.ownsBlock_iff_mem_owning kind).1 h
    simp [ownedBlocks, bodyBlocks, Statement.owned?, h, h']

theorem ownedPairs_eq_bodyPairs (s : Statement) : ownedPairs s = bodyPairs s.owned? := by
  rw [ownedPairs_eq]
  cases s.owned? <;> rfl

theorem mem_innerBlocks {block : Block} {b : Span × Block} :
    b ∈ innerBlocks block ↔ ∃ s ∈ block, b ∈ ownedBlocks s := by
  induction block with
  | nil => simp [innerBlocks]
  | cons s rest ih => simp [innerBlocks, ih]

/-- The blocks that the walk over a function checks, each with the span of its owner. -/
def Declaration.blocks (d : Declaration) : List (Span × Block) :=
  bodyBlocks d.span d.functionBody?

/-- The pairs that the walk over a function meets. -/
def Declaration.walkPairs (d : Declaration) : List (Statement × Statement) :=
  bodyPairs d.functionBody?

/-- A pair of a block is met in one of the blocks that are checked. -/
theorem exists_block_of_mem_pairs {block : Block}
    (howned : ∀ s ∈ block, ∀ p ∈ ownedPairs s, ∃ b ∈ ownedBlocks s, p.1 ∈ b.2 ∧ p.2 ∈ b.2)
    {p : Statement × Statement} (hp : p ∈ pairs block) :
    (p.1 ∈ block ∧ p.2 ∈ block) ∨ ∃ b ∈ innerBlocks block, p.1 ∈ b.2 ∧ p.2 ∈ b.2 := by
  induction block with
  | nil => simp [pairs] at hp
  | cons s rest ih =>
      rw [pairs, List.mem_append, List.mem_append] at hp
      rcases hp with hp | hp | hp
      · cases rest with
        | nil => simp [withNext] at hp
        | cons next rest =>
            obtain rfl : p = (s, next) := by simpa [withNext] using hp
            simp
      · obtain ⟨b, hb, hmem⟩ := howned s (by simp) p hp
        exact .inr ⟨b, mem_innerBlocks.2 ⟨s, by simp, hb⟩, hmem⟩
      · rcases ih (fun a ha => howned a (.tail _ ha)) hp with ⟨h₁, h₂⟩ | ⟨b, hb, hmem⟩
        · exact .inl ⟨.tail _ h₁, .tail _ h₂⟩
        · rw [innerBlocks]
          exact .inr ⟨b, List.mem_append_right _ hb, hmem⟩

theorem exists_block_of_mem_bodyPairs {owner : Span} {body : Option Block}
    (howned : ∀ block, body = some block →
      ∀ s ∈ block, ∀ p ∈ ownedPairs s, ∃ b ∈ ownedBlocks s, p.1 ∈ b.2 ∧ p.2 ∈ b.2)
    {p : Statement × Statement} (hp : p ∈ bodyPairs body) :
    ∃ b ∈ bodyBlocks owner body, p.1 ∈ b.2 ∧ p.2 ∈ b.2 := by
  cases body with
  | none => simp [bodyPairs] at hp
  | some block =>
      rw [bodyPairs] at hp
      rw [bodyBlocks]
      rcases exists_block_of_mem_pairs (howned block rfl) hp with hmem | ⟨b, hb, hmem⟩
      · exact ⟨_, .head _, hmem⟩
      · exact ⟨b, .tail _ hb, hmem⟩

theorem exists_block_of_mem_ownedPairs (s : Statement) :
    ∀ p ∈ ownedPairs s, ∃ b ∈ ownedBlocks s, p.1 ∈ b.2 ∧ p.2 ∈ b.2 := by
  induction s using Statement.induct with
  | h s ih =>
  rw [ownedPairs_eq_bodyPairs, ownedBlocks_eq]
  exact fun p => exists_block_of_mem_bodyPairs fun block howned =>
    ih block (Statement.owned?_eq_some_iff.1 howned).2

theorem Declaration.exists_block_of_mem_walkPairs {d : Declaration} {p : Statement × Statement}
    (hp : p ∈ d.walkPairs) : ∃ b ∈ d.blocks, p.1 ∈ b.2 ∧ p.2 ∈ b.2 :=
  exists_block_of_mem_bodyPairs (fun _ _ s _ => exists_block_of_mem_ownedPairs s) hp

theorem SourceTree.walkPairs_eq_flatMap (t : SourceTree) :
    t.walkPairs = t.declarations.flatMap Declaration.walkPairs := by
  rw [walkPairs, functionBodies]
  induction t.declarations with
  | nil => rfl
  | cons d ds ih =>
      rw [List.flatMap_cons, ← ih, List.filterMap_cons]
      cases h : d.functionBody? <;> simp [Declaration.walkPairs, bodyPairs, h]

/-! ### Spans in order -/

namespace Span

/-- A line is one of the lines of a span. -/
def Covers (s : Span) (line : UInt64) : Prop :=
  s.firstLine.toNat ≤ line.toNat ∧ line.toNat ≤ s.lastLine.toNat

instance (s : Span) (line : UInt64) : Decidable (s.Covers line) :=
  inferInstanceAs (Decidable (_ ∧ _))

/-- A span ends no earlier than it starts. -/
def Forward (s : Span) : Prop :=
  s.firstLine.toNat ≤ s.lastLine.toNat

instance (s : Span) : Decidable s.Forward :=
  inferInstanceAs (Decidable (_ ≤ _))

/-- A span starts and ends on lines of another. -/
def Within (s owner : Span) : Prop :=
  owner.Covers s.firstLine ∧ owner.Covers s.lastLine

instance (s owner : Span) : Decidable (s.Within owner) :=
  inferInstanceAs (Decidable (_ ∧ _))

/-- A span starts no earlier than another ends; the two may share a line. -/
def Follows (next s : Span) : Prop :=
  s.lastLine.toNat ≤ next.firstLine.toNat

instance (next s : Span) : Decidable (next.Follows s) :=
  inferInstanceAs (Decidable (_ ≤ _))

end Span

/-- What holds from each member of a list to the next, and passes over what lies between, holds from
each to all that come later. -/
theorem pairwise_of_isChain {α : Type} {R : α → α → Prop} {as : List α}
    (htrans : ∀ a, ∀ b ∈ as, ∀ c, R a b → R b c → R a c) (hchain : as.IsChain R) :
    as.Pairwise R := by
  induction as with
  | nil => exact .nil
  | cons a rest ih =>
      have hrest := ih (fun b c hc => htrans b c (.tail _ hc)) hchain.tail
      refine List.pairwise_cons.2 ⟨fun b hb => ?_, hrest⟩
      cases rest with
      | nil => cases hb
      | cons next rest =>
          have hnext : R a next := hchain.rel_head? rfl
          rcases List.mem_cons.1 hb with rfl | hb
          · exact hnext
          · exact htrans a next (by simp) b hnext ((List.pairwise_cons.1 hrest).1 b hb)

/-- Where spans run forward, one that follows the next follows all that come before. -/
theorem Span.pairwise_follows {α : Type} (span : α → Span) {as : List α}
    (hforward : ∀ a ∈ as, (span a).Forward)
    (hchain : as.IsChain fun a next => (span next).Follows (span a)) :
    as.Pairwise fun a next => (span next).Follows (span a) := by
  refine pairwise_of_isChain (fun a b hb c hab hbc => ?_) hchain
  exact Nat.le_trans hab (Nat.le_trans (hforward b hb) hbc)

/-- The statements of a block run forward, follow each other and lie inside the owner. -/
structure InOrder (owner : Span) (block : Block) : Prop where
  forward : ∀ s ∈ block, s.span.Forward
  follows : block.IsChain fun s next => next.span.Follows s.span
  within : ∀ s ∈ block, s.span.Within owner

instance (owner : Span) (block : Block) : Decidable (InOrder owner block) :=
  decidable_of_iff
    ((∀ s ∈ block, s.span.Forward) ∧ (block.IsChain fun s next => next.span.Follows s.span) ∧
      ∀ s ∈ block, s.span.Within owner)
    ⟨fun ⟨hf, hc, hw⟩ => ⟨hf, hc, hw⟩, fun h => ⟨h.forward, h.follows, h.within⟩⟩

/-- Declarations and statements run forward and follow each other, the statements of a function
inside the function and those of an owned block inside the statement that owns it.  Blocks that the
walk leaves out are free. -/
structure SourceTree.WellFormed (t : SourceTree) : Prop where
  forward : ∀ d ∈ t.declarations, d.span.Forward
  follows : t.declarations.IsChain fun d next => next.span.Follows d.span
  inOrder : ∀ d ∈ t.declarations, ∀ b ∈ d.blocks, InOrder b.1 b.2

instance (t : SourceTree) : Decidable t.WellFormed :=
  decidable_of_iff
    ((∀ d ∈ t.declarations, d.span.Forward) ∧
      (t.declarations.IsChain fun d next => next.span.Follows d.span) ∧
      ∀ d ∈ t.declarations, ∀ b ∈ d.blocks, InOrder b.1 b.2)
    ⟨fun ⟨hf, hc, hi⟩ => ⟨hf, hc, hi⟩, fun h => ⟨h.forward, h.follows, h.inOrder⟩⟩

/-! ### The lines that pairs reach -/

/-- A line comes after the end of a pair's first statement and no later than its second starts. -/
def Reaches (p : Statement × Statement) (n : Nat) : Prop :=
  p.1.span.lastLine.toNat < n ∧ n ≤ p.2.span.firstLine.toNat

/-- Every pair stays inside the span `owner`. -/
def ReachInside (owner : Span) (ps : List (Statement × Statement)) : Prop :=
  ∀ p ∈ ps, ∀ n, Reaches p n → owner.firstLine.toNat < n ∧ n ≤ owner.lastLine.toNat

/-- No two pairs reach the same line. -/
def ReachApart (ps : List (Statement × Statement)) : Prop :=
  ps.Pairwise fun p q => ∀ n, Reaches p n → ¬ Reaches q n

/-- The pairs below a statement lie apart and inside it. -/
def Tidy (s : Statement) : Prop :=
  ReachInside s.span (ownedPairs s) ∧ ReachApart (ownedPairs s)

/-- What the pairs of a block reach comes after the start of one of its statements and no later than
the end of one. -/
theorem pairs_reach {block : Block} (hforward : ∀ s ∈ block, s.span.Forward)
    (htidy : ∀ s ∈ block, Tidy s) {p : Statement × Statement} (hp : p ∈ pairs block) {n : Nat}
    (hn : Reaches p n) :
    (∃ s ∈ block, s.span.firstLine.toNat < n) ∧ ∃ s ∈ block, n ≤ s.span.lastLine.toNat := by
  induction block with
  | nil => simp [pairs] at hp
  | cons s rest ih =>
      rw [pairs, List.mem_append, List.mem_append] at hp
      rcases hp with hp | hp | hp
      · -- the pair of `s` and the statement after it
        cases rest with
        | nil => simp [withNext] at hp
        | cons next rest =>
            obtain rfl : p = (s, next) := by simpa [withNext] using hp
            have hs := hforward s (by simp)
            have hnext := hforward next (by simp)
            simp only [Reaches, Span.Forward] at *
            exact ⟨⟨s, by simp, by omega⟩, next, by simp, by omega⟩
      · obtain ⟨hfirst, hlast⟩ := (htidy s (by simp)).1 p hp n hn
        exact ⟨⟨s, by simp, hfirst⟩, s, by simp, hlast⟩
      · obtain ⟨⟨a, ha, hfirst⟩, b, hb, hlast⟩ :=
          ih (fun a ha => hforward a (.tail _ ha)) (fun a ha => htidy a (.tail _ ha)) hp
        exact ⟨⟨a, .tail _ ha, hfirst⟩, b, .tail _ hb, hlast⟩

/-- What `s` owns lies before its end, the pair of `s` and the next statement from there to the
start of the next, and everything else of the block after that start. -/
theorem pairs_disjoint {block : Block} (hforward : ∀ s ∈ block, s.span.Forward)
    (hfollows : block.Pairwise fun s next => next.span.Follows s.span)
    (htidy : ∀ s ∈ block, Tidy s) : ReachApart (pairs block) := by
  induction block with
  | nil => simp [ReachApart, pairs]
  | cons s rest ih =>
      have hf : ∀ a ∈ rest, a.span.Forward := fun a ha => hforward a (.tail _ ha)
      have ht : ∀ a ∈ rest, Tidy a := fun a ha => htidy a (.tail _ ha)
      obtain ⟨hafter, hrest⟩ := List.pairwise_cons.1 hfollows
      obtain ⟨hinside, hapart⟩ := htidy s (by simp)
      have hlater : ∀ q ∈ pairs rest, ∀ n, Reaches q n → s.span.lastLine.toNat < n := by
        intro q hq n hn
        obtain ⟨⟨a, ha, hfirst⟩, -⟩ := pairs_reach hf ht hq hn
        exact Nat.lt_of_le_of_lt (hafter a ha) hfirst
      have howned : ReachApart (ownedPairs s ++ pairs rest) := by
        refine List.pairwise_append.2 ⟨hapart, ih hf hrest ht, fun p hp q hq n hpn hqn => ?_⟩
        have := (hinside p hp n hpn).2
        have := hlater q hq n hqn
        omega
      rw [pairs]
      cases rest with
      | nil => simpa [withNext] using howned
      | cons next rest =>
          show ReachApart ((s, next) :: (ownedPairs s ++ pairs (next :: rest)))
          refine List.pairwise_cons.2 ⟨fun q hq n hn hqn => ?_, howned⟩
          rcases List.mem_append.1 hq with hq | hq
          · exact Nat.not_lt.2 (hinside q hq n hqn).2 hn.1
          · obtain ⟨⟨a, ha, hfirst⟩, -⟩ := pairs_reach hf ht hq hqn
            have hnext : next.span.firstLine.toNat ≤ a.span.firstLine.toNat := by
              rcases List.mem_cons.1 ha with rfl | ha
              · exact Nat.le_refl _
              · exact Nat.le_trans (hf next (by simp)) ((List.pairwise_cons.1 hrest).1 a ha)
            have hle := hn.2
            simp only at hle
            omega

/-- If the blocks below an owner are in order, then the pairs of its own block lie apart and inside
it, given this of the statements in that block. -/
theorem bodyPairs_reach {owner : Span} {body : Option Block}
    (h : ∀ b ∈ bodyBlocks owner body, InOrder b.1 b.2)
    (htidy : ∀ block, body = some block →
      ∀ s ∈ block, (∀ b ∈ ownedBlocks s, InOrder b.1 b.2) → Tidy s) :
    ReachInside owner (bodyPairs body) ∧ ReachApart (bodyPairs body) := by
  cases body with
  | none => simp [bodyPairs, ReachInside, ReachApart]
  | some block =>
      rw [bodyBlocks] at h
      rw [bodyPairs]
      have hblock : InOrder owner block := h (owner, block) (.head _)
      have hall : ∀ s ∈ block, Tidy s := fun s hs => htidy block rfl s hs fun b hb =>
        h b (.tail _ (mem_innerBlocks.2 ⟨s, hs, hb⟩))
      refine ⟨fun p hp n hn => ?_,
        pairs_disjoint hblock.forward (Span.pairwise_follows _ hblock.forward hblock.follows) hall⟩
      obtain ⟨⟨a, ha, hfirst⟩, c, hc, hlast⟩ := pairs_reach hblock.forward hall hp hn
      exact ⟨Nat.lt_of_le_of_lt (hblock.within a ha).1.1 hfirst,
        Nat.le_trans hlast (hblock.within c hc).2.2⟩

/-- **Blocks in order, at any depth.**  If the blocks checked below a statement are in order, then
its pairs lie apart and inside it. -/
theorem tidy_of_inOrder (s : Statement) : (∀ b ∈ ownedBlocks s, InOrder b.1 b.2) → Tidy s := by
  induction s using Statement.induct with
  | h s ih =>
  rw [ownedBlocks_eq, Tidy, ownedPairs_eq_bodyPairs]
  exact fun h => bodyPairs_reach h fun block howned =>
    ih block (Statement.owned?_eq_some_iff.1 howned).2

theorem Declaration.walkPairs_reach {d : Declaration} (h : ∀ b ∈ d.blocks, InOrder b.1 b.2) :
    ReachInside d.span d.walkPairs ∧ ReachApart d.walkPairs :=
  bodyPairs_reach h fun _ _ s _ => tidy_of_inOrder s

namespace SourceTree

/-- Functions that follow each other keep their pairs apart, and each keeps its own inside. -/
theorem WellFormed.reachApart {t : SourceTree} (h : t.WellFormed) : ReachApart t.walkPairs := by
  rw [walkPairs_eq_flatMap, ReachApart, List.pairwise_flatMap]
  refine ⟨fun d hd => (Declaration.walkPairs_reach (h.inOrder d hd)).2, ?_⟩
  have hfollows := Span.pairwise_follows Declaration.span h.forward h.follows
  refine hfollows.imp_of_mem fun {d next} hd hnext hlater p hp q hq n hpn hqn => ?_
  have := ((Declaration.walkPairs_reach (h.inOrder d hd)).1 p hp n hpn).2
  have := ((Declaration.walkPairs_reach (h.inOrder next hnext)).1 q hq n hqn).1
  simp only [Span.Follows] at hlater
  omega

end SourceTree

/-! ### The reported lines -/

/-- What is said about a pair names a line that the pair reaches. -/
theorem reaches_of_pairDiagnostic? {policy : StatementPolicy} {comments : List Comment}
    {file : Path} {p : Statement × Statement} {d : Diagnostic}
    (h : pairDiagnostic? policy (.ofComments comments) file p = some d) :
    Reaches p d.line.toNat := by
  rw [pairDiagnostic?, gapPosition?_eq] at h
  obtain ⟨position, hposition, rfl⟩ := Option.map_eq_some_iff.1 h
  obtain ⟨hgap, hstart⟩ := Option.ite_none_right_eq_some.1 hposition
  obtain rfl := Option.some.inj hstart
  have hapart : Apart p := two_le_gap_iff_apart.1 hgap.1
  have hlines := apart_iff.1 hapart
  cases policy with
  | commentAware =>
      show Reaches p (gapStart .commentAware p).line.toNat
      rw [toNat_gapStart_commentAware hapart]
      exact ⟨by omega, by omega⟩
  | strict => exact ⟨Nat.lt_of_succ_lt hlines, Nat.le_refl _⟩

/-- **No line is reported twice.**  In a well-formed file the diagnostics on statements are those
of its functions one after the other; they stand on different lines, and what is said about a pair
of a function's body stands on a line of that function. -/
theorem analyze_lines_distinct (rules : Rules) (t : SourceTree) (lines? : Option Lines)
    (path : Path) (h : t.WellFormed) :
    ((rules.analyze t lines? path).filter (·.violation = .unnecessaryGap) =
      if rules.statementSpacing then
        t.declarations.flatMap fun f => f.walkPairs.filterMap
          (pairDiagnostic? rules.statementPolicy (.ofComments t.comments) path)
      else []) ∧
    (((rules.analyze t lines? path).filter (·.violation = .unnecessaryGap)).map
      Diagnostic.line).Nodup ∧
    ∀ f ∈ t.declarations, ∀ p ∈ f.walkPairs, ∀ d,
      pairDiagnostic? rules.statementPolicy (.ofComments t.comments) path p = some d →
        f.span.Covers d.line := by
  refine ⟨?_, ?_, fun f hf p hp d hd => ?_⟩
  · rw [Rules.filter_unnecessaryGap_analyze, Rules.statementPart, t.walkPairs_eq_flatMap,
      List.filterMap_flatMap]
  · rw [Rules.filter_unnecessaryGap_analyze, Rules.statementPart]
    split
    · rw [List.Nodup, List.pairwise_map, List.pairwise_filterMap]
      refine h.reachApart.imp fun {p q} hapart d hd e he heq => ?_
      exact hapart _ (reaches_of_pairDiagnostic? hd) (heq ▸ reaches_of_pairDiagnostic? he)
    · exact .nil
  · have hinside := (Declaration.walkPairs_reach (h.inOrder f hf)).1
    obtain ⟨hfirst, hlast⟩ := hinside p hp _ (reaches_of_pairDiagnostic? hd)
    exact ⟨Nat.le_of_lt hfirst, hlast⟩

/-- Two functions of which the second starts on the line that ends the first, and in the first a
loop that starts on the line of the statement before it.  The gap after the loop is met before those
inside it, and a comment excuses one of these. -/
def sharedLinesTree : SourceTree where
  declarations :=
    [{ kind := .function
       span := .lines 1 11
       body := some
        [{ kind := .simple, span := .lines 2 2 },
          { kind := .loop
            span := .lines 2 8
            body := some
              [{ kind := .simple, span := .lines 3 3 }, { kind := .simple, span := .lines 5 5 },
                { kind := .simple, span := .lines 8 8 }] },
          { kind := .simple, span := .lines 11 11 }] },
      { kind := .function
        span := .lines 11 15
        body := some
          [{ kind := .simple, span := .lines 11 11 }, { kind := .simple, span := .lines 14 14 }] }]
  comments := [{ line := 4 }]

theorem analyze_lines_distinct_shared :
    sharedLinesTree.WellFormed ∧
      (([9, 6, 12] : List UInt64).Nodup ∧
        ((Rules.analyze {} sharedLinesTree none ⟨"main.go"⟩).filter
          (·.violation = .unnecessaryGap)).map Diagnostic.line = [9, 6, 12]) := by
  have hwell : sharedLinesTree.WellFormed := by decide +kernel
  have h := analyze_lines_distinct {} sharedLinesTree none ⟨"main.go"⟩ hwell
  have hlines : ((Rules.analyze {} sharedLinesTree none ⟨"main.go"⟩).filter
      (·.violation = .unnecessaryGap)).map Diagnostic.line = [9, 6, 12] := by
    rw [h.1]
    decide +kernel
  exact ⟨hwell, hlines ▸ h.2.1, hlines⟩

end BlankLines
