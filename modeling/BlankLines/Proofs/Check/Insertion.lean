import BlankLines.Proofs.Check.Moving
import BlankLines.Proofs.Text.Lines

/-!
# Proofs — Check — one empty line put in

A declaration that is reported asks for an empty line before it.  Here the line is put in, the tree
is moved along, and the two analyses are compared: one diagnostic is gone.

* `LineNumber.opened`: where a line goes when an empty one is put in before it.
* `SourceTree.Ordered`: declarations come one after the other and functions hold their statements.
* `OpensBetween`: the new line comes right before a declaration; what is in the declarations before
  it stays, and what is in those behind it moves by one.
* `analyze_insertEmpty`: the diagnostic that asked for the line is gone, and every other one is
  still there, on the line its place has moved to.
-/

namespace BlankLines
open Text (Lines)

/-! ### Opening a line -/

/-- Where a line goes when an empty one is put in as line `n`. -/
def LineNumber.opened (n line : UInt64) : UInt64 :=
  if n ≤ line then line + 1 else line

theorem LineNumber.toNat_opened {n line : UInt64} (h : line.toNat + 1 < UInt64.size) :
    (opened n line).toNat = if n.toNat ≤ line.toNat then line.toNat + 1 else line.toNat := by
  unfold opened
  simp only [UInt64.le_iff_toNat_le]
  split
  · rw [UInt64.toNat_add]
    simp only [UInt64.reduceToNat, UInt64.size] at *
    omega
  · rfl

theorem LineNumber.toNat_opened_of_lt {n line : UInt64} (h : line.toNat < n.toNat) :
    (opened n line).toNat = line.toNat := by
  rw [opened, if_neg fun hle => Nat.not_le.2 h (UInt64.le_iff_toNat_le.1 hle)]

theorem LineNumber.toNat_opened_of_le {n line : UInt64} (h : n.toNat ≤ line.toNat)
    (hfits : line.toNat + 1 < UInt64.size) : (opened n line).toNat = line.toNat + 1 := by
  rw [toNat_opened hfits, if_pos h]

theorem spreads_opened (n : UInt64) : Spreads (LineNumber.opened n) (UInt64.size - 1) := by
  intro line later hle hlimit
  rw [LineNumber.toNat_opened (by omega), LineNumber.toNat_opened (by omega)]
  split <;> split <;> omega

/-! ### Declarations before and behind the new line -/

/-- Declarations run forward, each starts on a later line than the one before it ends on, and what
the walk over a function meets lies within its lines. -/
structure SourceTree.Ordered (t : SourceTree) : Prop where
  forward : ∀ d ∈ t.declarations, d.span.Forward
  later : t.declarations.IsChain fun d next => d.span.lastLine.toNat < next.span.firstLine.toNat
  within : ∀ d ∈ t.declarations, ∀ b ∈ d.blocks, ∀ s ∈ b.2, s.span.Within d.span

instance (t : SourceTree) : Decidable t.Ordered :=
  decidable_of_iff
    ((∀ d ∈ t.declarations, d.span.Forward) ∧
      (t.declarations.IsChain fun d next => d.span.lastLine.toNat < next.span.firstLine.toNat) ∧
      ∀ d ∈ t.declarations, ∀ b ∈ d.blocks, ∀ s ∈ b.2, s.span.Within d.span)
    ⟨fun ⟨hf, hl, hw⟩ => ⟨hf, hl, hw⟩, fun h => ⟨h.forward, h.later, h.within⟩⟩

theorem SourceTree.Ordered.pairwise {t : SourceTree} (h : t.Ordered) :
    t.declarations.Pairwise fun d next => d.span.lastLine.toNat < next.span.firstLine.toNat :=
  pairwise_of_isChain
    (fun _ b hb _ hab hbc => Nat.lt_trans (Nat.lt_of_lt_of_le hab (h.forward b hb)) hbc) h.later

/-- A declaration ends before line `n`. -/
def EndsBefore (n : Nat) (d : Declaration) : Prop :=
  d.span.firstLine.toNat < n ∧ d.span.lastLine.toNat < n

/-- A declaration starts on line `n` or later. -/
def StartsFrom (n : Nat) (d : Declaration) : Prop :=
  n ≤ d.span.firstLine.toNat ∧ n ≤ d.span.lastLine.toNat

theorem neighbours_append (before : List Declaration) (d next : Declaration)
    (after : List Declaration) :
    neighbours (before ++ d :: next :: after) =
      neighbours (before ++ [d]) ++ (d, next) :: neighbours (next :: after) := by
  induction before with
  | nil => rfl
  | cons a before ih =>
      cases before with
      | nil => rfl
      | cons b before =>
          simp only [List.cons_append, neighbours_cons] at ih ⊢
          rw [ih]

theorem unseparated_append (lines : Lines) (before : List Declaration) (d next : Declaration)
    (after : List Declaration) :
    unseparated lines (before ++ d :: next :: after) =
      unseparated lines (before ++ [d]) ++
        ((if Separated lines d next then [] else [(d, next)]) ++
          unseparated lines (next :: after)) := by
  rw [unseparated, neighbours_append, List.filter_append, List.filter_cons, unseparated,
    unseparated]
  by_cases h : Separated lines d next <;> simp [h]

/-- A declaration is reported only if one behind the first starts on its line. -/
theorem exists_firstLine_eq_of_mem_unseparated {lines : Lines} {ds : List Declaration}
    {path : Path} {p : Declaration × Declaration}
    (h : separationDiagnostic path p ∈ (unseparated lines ds).map (separationDiagnostic path)) :
    ∃ a ∈ ds.tail, a.span.firstLine = p.2.span.firstLine := by
  obtain ⟨q, hq, heq⟩ := List.mem_map.1 h
  have hq' : q ∈ neighbours ds := (List.mem_filter.1 hq).1
  exact ⟨q.2, (List.of_mem_zip hq').2, congrArg Diagnostic.line heq⟩

section

variable {lines : Lines} {n : UInt64} {ds : List Declaration}

theorem unseparated_opened_of_endsBefore (hsize : n.toNat - 1 ≤ lines.size)
    (h : ∀ d ∈ ds, EndsBefore n.toNat d) :
    unseparated (lines.insertEmpty n.toNat) (ds.map (Declaration.mapLines (LineNumber.opened n))) =
      (unseparated lines ds).map (mapNeighbours (LineNumber.opened n)) := by
  refine unseparated_mapLines fun p hp => ?_
  have hd := h p.1 (List.of_mem_zip hp).1
  have hnext := h p.2 (List.mem_of_mem_tail (List.of_mem_zip hp).2)
  refine separated_mapLines (k := 0) (LineNumber.toNat_opened_of_lt hd.2)
    (LineNumber.toNat_opened_of_lt hnext.1) fun m _ hm => ?_
  exact Lines.isBlank_insertEmpty_of_lt hsize (Nat.lt_trans hm hnext.1)

theorem unseparated_opened_of_startsFrom (hn : 0 < n.toNat) (hsize : n.toNat - 1 ≤ lines.size)
    (hfits : ∀ d ∈ ds, ∀ line ∈ d.lineNumbers, line.toNat + 1 < UInt64.size)
    (h : ∀ d ∈ ds, StartsFrom n.toNat d) :
    unseparated (lines.insertEmpty n.toNat) (ds.map (Declaration.mapLines (LineNumber.opened n))) =
      (unseparated lines ds).map (mapNeighbours (LineNumber.opened n)) := by
  refine unseparated_mapLines fun p hp => ?_
  have h₁ : p.1 ∈ ds := (List.of_mem_zip hp).1
  have h₂ : p.2 ∈ ds := List.mem_of_mem_tail (List.of_mem_zip hp).2
  refine separated_mapLines (k := 1)
    (LineNumber.toNat_opened_of_le (h p.1 h₁).2 (hfits p.1 h₁ _ (.tail _ (.head _))))
    (LineNumber.toNat_opened_of_le (h p.2 h₂).1 (hfits p.2 h₂ _ (.head _))) fun m hm _ => ?_
  exact Lines.isBlank_insertEmpty_succ hn hsize (Nat.le_trans (h p.1 h₁).2 (Nat.le_of_lt hm))

end

/-- Line `n` is the first of the declaration `next`, which comes right after `d`; everything up to
`d` ends before it, and everything from `next` on starts there or later. -/
structure OpensBetween (t : SourceTree) (n : UInt64) (before : List Declaration)
    (d next : Declaration) (after : List Declaration) : Prop where
  declarations : t.declarations = before ++ d :: next :: after
  firstLine : next.span.firstLine = n
  endsBefore : ∀ a ∈ before ++ [d], EndsBefore n.toNat a
  startsFrom : ∀ a ∈ next :: after, StartsFrom n.toNat a
  startsLater : ∀ a ∈ after, n.toNat < a.span.firstLine.toNat

theorem SourceTree.Ordered.opensBetween {t : SourceTree} (h : t.Ordered)
    {before after : List Declaration} {d next : Declaration}
    (hdeclarations : t.declarations = before ++ d :: next :: after) :
    OpensBetween t next.span.firstLine before d next after := by
  have hforward := h.forward
  have hlater := h.pairwise
  rw [hdeclarations] at hforward hlater
  have hsplit : before ++ d :: next :: after = (before ++ [d]) ++ next :: after := by simp
  rw [hsplit] at hforward hlater
  obtain ⟨-, hafter, hacross⟩ := List.pairwise_append.1 hlater
  have hnext : ∀ a ∈ after, next.span.firstLine.toNat < a.span.firstLine.toNat := fun a ha =>
    Nat.lt_of_le_of_lt (hforward next (by simp)) ((List.pairwise_cons.1 hafter).1 a ha)
  refine ⟨hdeclarations, rfl, fun a ha => ?_, fun a ha => ?_, hnext⟩
  · have hlast := hacross a ha next (.head _)
    exact ⟨Nat.lt_of_le_of_lt (hforward a (List.mem_append_left _ ha)) hlast, hlast⟩
  · have hfirst : next.span.firstLine.toNat ≤ a.span.firstLine.toNat := by
      rcases List.mem_cons.1 ha with rfl | ha
      · exact Nat.le_refl _
      · exact Nat.le_of_lt (hnext a ha)
    exact ⟨hfirst, Nat.le_trans hfirst (hforward a (List.mem_append_right _ ha))⟩

namespace OpensBetween

variable {t : SourceTree} {n : UInt64} {before after : List Declaration} {d next : Declaration}
  {lines : Lines}

/-- Every declaration ends before the new line or starts no earlier. -/
theorem endsBefore_or_startsFrom (h : OpensBetween t n before d next after) {a : Declaration}
    (ha : a ∈ t.declarations) : EndsBefore n.toNat a ∨ StartsFrom n.toNat a := by
  rw [h.declarations, List.append_cons, List.mem_append] at ha
  rcases ha with ha | ha
  · exact .inl (h.endsBefore a ha)
  · exact .inr (h.startsFrom a ha)

theorem pos (h : OpensBetween t n before d next after) : 0 < n.toNat :=
  Nat.zero_lt_of_lt (h.endsBefore d (by simp)).2

/-- The new line separates the two declarations. -/
theorem separated (h : OpensBetween t n before d next after) (hsize : n.toNat - 1 ≤ lines.size)
    (hfits : ∀ line ∈ t.lineNumbers, line.toNat + 1 < UInt64.size) :
    Separated (lines.insertEmpty n.toNat) (d.mapLines (LineNumber.opened n))
      (next.mapLines (LineNumber.opened n)) := by
  have hnext : next ∈ t.declarations := by rw [h.declarations]; simp
  have hfirst := LineNumber.toNat_opened_of_le (h.startsFrom next (.head _)).1
    (hfits _ (SourceTree.lineNumbers_subset hnext (.head _)))
  have hlast := LineNumber.toNat_opened_of_lt (h.endsBefore d (by simp)).2
  have hbefore := (h.endsBefore d (by simp)).2
  rw [h.firstLine] at hfirst
  refine ⟨n.toNat, ?_, ?_, Lines.isBlank_insertEmpty_self h.pos hsize⟩
  · show n.toNat < (LineNumber.opened n next.span.firstLine).toNat
    rw [h.firstLine, hfirst]
    exact Nat.lt_succ_self _
  · show (LineNumber.opened n d.span.lastLine).toNat < n.toNat
    rwa [hlast]

/-- What is said about declarations once the line is there. -/
theorem unseparated_opened (h : OpensBetween t n before d next after)
    (hsize : n.toNat - 1 ≤ lines.size)
    (hfits : ∀ line ∈ t.lineNumbers, line.toNat + 1 < UInt64.size) :
    unseparated (lines.insertEmpty n.toNat) (t.mapLines (LineNumber.opened n)).declarations =
      (unseparated lines (before ++ [d]) ++ unseparated lines (next :: after)).map
        (mapNeighbours (LineNumber.opened n)) := by
  have hmap : (t.mapLines (LineNumber.opened n)).declarations =
      before.map (Declaration.mapLines (LineNumber.opened n)) ++
        d.mapLines (LineNumber.opened n) :: next.mapLines (LineNumber.opened n) ::
          after.map (Declaration.mapLines (LineNumber.opened n)) := by
    simp [SourceTree.mapLines, h.declarations]
  have hbefore := unseparated_opened_of_endsBefore hsize h.endsBefore
  have hafter := unseparated_opened_of_startsFrom h.pos hsize
    (fun a ha line hline => hfits line (SourceTree.lineNumbers_subset
      (by rw [h.declarations, List.append_cons]; exact List.mem_append_right _ ha) hline))
    h.startsFrom
  rw [hmap, unseparated_append, if_pos (h.separated hsize hfits), List.nil_append, List.map_append,
    ← hbefore, ← hafter]
  simp

/-- A pair of a function is moved as one: the new line is not inside the function. -/
theorem exists_movesBy (h : OpensBetween t n before d next after) (hordered : t.Ordered)
    (hfits : ∀ line ∈ t.lineNumbers, line.toNat + 1 < UInt64.size) {p : Statement × Statement}
    (hp : p ∈ t.walkPairs) : ∃ k, MovesBy (LineNumber.opened n) t.comments k p := by
  have hlimit : ∀ line ∈ t.lineNumbers, line.toNat < UInt64.size - 1 :=
    fun line hline => Nat.lt_sub_of_add_lt (hfits line hline)
  have hmem := SourceTree.ends_mem_lineNumbers hp
  have hp' := hp
  rw [SourceTree.walkPairs_eq_flatMap] at hp'
  obtain ⟨a, ha, hpa⟩ := List.mem_flatMap.1 hp'
  obtain ⟨b, hb, h₁, h₂⟩ := Declaration.exists_block_of_mem_walkPairs hpa
  obtain ⟨-, hlast₁, hlast₂⟩ := hordered.within a ha b hb p.1 h₁
  obtain ⟨⟨hfirst₁, hfirst₂⟩, -⟩ := hordered.within a ha b hb p.2 h₂
  rcases h.endsBefore_or_startsFrom ha with hbefore | hfrom
  · exact ⟨0, (spreads_opened n).movesBy hlimit hp
      (LineNumber.toNat_opened_of_lt (Nat.lt_of_le_of_lt hlast₂ hbefore.2))
      (LineNumber.toNat_opened_of_lt (Nat.lt_of_le_of_lt hfirst₂ hbefore.2))⟩
  · exact ⟨1, (spreads_opened n).movesBy hlimit hp
      (LineNumber.toNat_opened_of_le (Nat.le_trans hfrom.1 hlast₁) (hfits _ hmem.1))
      (LineNumber.toNat_opened_of_le (Nat.le_trans hfrom.1 hfirst₁) (hfits _ hmem.2))⟩

/-- Before the new line, nothing is said about the declaration behind it. -/
theorem separationDiagnostic_not_mem (h : OpensBetween t n before d next after) (path : Path) :
    separationDiagnostic path (d, next) ∉
      (unseparated lines (before ++ [d])).map (separationDiagnostic path) := by
  intro hmem
  obtain ⟨a, ha, hline⟩ := exists_firstLine_eq_of_mem_unseparated hmem
  have hbefore := (h.endsBefore a (List.mem_of_mem_tail ha)).1
  rw [hline, h.firstLine] at hbefore
  exact Nat.lt_irrefl _ hbefore

/-- If the declaration behind the new line is reported, then nothing separates it from the one
before: no other declaration starts on its line. -/
theorem not_separated (h : OpensBetween t n before d next after) {path : Path}
    (hmem : separationDiagnostic path (d, next) ∈
      (unseparated lines t.declarations).map (separationDiagnostic path)) :
    ¬ Separated lines d next := by
  intro hsep
  rw [h.declarations, unseparated_append, if_pos hsep, List.nil_append, List.map_append,
    List.mem_append] at hmem
  obtain ⟨a, ha, hline⟩ := exists_firstLine_eq_of_mem_unseparated
    (hmem.resolve_left (h.separationDiagnostic_not_mem path))
  have hlater := h.startsLater a ha
  rw [hline, h.firstLine] at hlater
  exact Nat.lt_irrefl _ hlater

/-- Before the line is put in, the diagnostic that asks for it stands between what is said about the
declarations on its two sides. -/
theorem analyze_eq (h : OpensBetween t n before d next after) {rules : Rules}
    (hon : rules.declarationSpacing = true) (hsep : ¬ Separated lines d next) (path : Path) :
    rules.analyze t (some lines) path =
      (unseparated lines (before ++ [d])).map (separationDiagnostic path) ++
        separationDiagnostic path (d, next) ::
          ((unseparated lines (next :: after)).map (separationDiagnostic path) ++
            rules.statementPart t path) := by
  rw [Rules.analyze_eq_append, Rules.declarationPart_of_on hon, h.declarations, unseparated_append,
    if_neg hsep]
  simp

end OpensBetween

theorem exists_append_of_getElem? {α : Type} {as : List α} {i : Nat} {a next : α}
    (ha : as[i]? = some a) (hnext : as[i + 1]? = some next) :
    ∃ before after, as = before ++ a :: next :: after := by
  obtain ⟨hi, rfl⟩ := List.getElem?_eq_some_iff.1 ha
  obtain ⟨hi', rfl⟩ := List.getElem?_eq_some_iff.1 hnext
  refine ⟨as.take i, as.drop (i + 2), ?_⟩
  rw [← List.drop_eq_getElem_cons, ← List.drop_eq_getElem_cons, List.take_append_drop]

/-! ### The two analyses -/

/-- **Following the advice clears one violation.**  Take a file with its declarations in order and
the statements of its functions inside them, and a text that reaches up to a declaration that is
reported for its separation from the one before it.  Put an empty line before that declaration and
move every line number from there on by one.  The analysis then finds what it found before, in the
same order, without that diagnostic and with every line from there on moved by one. -/
theorem analyze_insertEmpty (rules : Rules) (t : SourceTree) (lines : Lines) (path : Path)
    (hordered : t.Ordered) (hfits : ∀ line ∈ t.lineNumbers, line.toNat + 1 < UInt64.size)
    {i : Nat} {d next : Declaration} (hd : t.declarations[i]? = some d)
    (hnext : t.declarations[i + 1]? = some next)
    (hreported : separationDiagnostic path (d, next) ∈ rules.analyze t (some lines) path)
    (hsize : next.span.firstLine.toNat - 1 ≤ lines.size) :
    (rules.analyze (t.mapLines (LineNumber.opened next.span.firstLine))
        (some (lines.insertEmpty next.span.firstLine.toNat)) path =
      ((rules.analyze t (some lines) path).erase (separationDiagnostic path (d, next))).map
        (Diagnostic.mapLine (LineNumber.opened next.span.firstLine))) ∧
    ∀ x ∈ rules.analyze t (some lines) path,
      (LineNumber.opened next.span.firstLine x.line).toNat =
        if next.span.firstLine.toNat ≤ x.line.toNat then x.line.toNat + 1 else x.line.toNat := by
  obtain ⟨before, after, hdeclarations⟩ := exists_append_of_getElem? hd hnext
  have hopens := hordered.opensBetween hdeclarations
  refine ⟨?_, fun x hx => ?_⟩
  · have hmem : separationDiagnostic path (d, next) ∈
        rules.declarationPart t (some lines) path := by
      rw [← Rules.filter_missingSeparation_analyze]
      exact List.mem_filter.2 ⟨hreported, by simp [separationDiagnostic]⟩
    have hon := Rules.declarationSpacing_of_mem_declarationPart hmem
    rw [Rules.declarationPart_of_on hon] at hmem
    have hstatements := Rules.statementPart_mapLines
      (fun p hp => hopens.exists_movesBy hordered hfits hp) rules path
    rw [hopens.analyze_eq hon (hopens.not_separated hmem) path,
      List.erase_append_right _ (hopens.separationDiagnostic_not_mem path), List.erase_cons_head,
      Rules.analyze_eq_append, hstatements, Rules.declarationPart_of_on hon,
      hopens.unseparated_opened hsize hfits, map_separationDiagnostic]
    simp
  · obtain ⟨line, hline, hle⟩ := Rules.exists_lineNumber_of_mem_analyze hx
    have := hfits line hline
    exact LineNumber.toNat_opened (by omega)

/-- A variable, two functions with a gap each and a comment in the second, and another variable,
with no room between any two of them. -/
def crowdedTree : SourceTree where
  declarations :=
    [{ kind := .var, span := .lines 1 1 },
      { kind := .function
        span := .lines 2 6
        body := some
          [{ kind := .simple, span := .lines 3 3 }, { kind := .simple, span := .lines 5 5 }] },
      { kind := .function
        span := .lines 7 14
        body := some
          [{ kind := .simple, span := .lines 8 8 }, { kind := .simple, span := .lines 10 10 },
            { kind := .simple, span := .lines 13 13 }] },
      { kind := .var, span := .lines 15 15 }]
  comments := [{ line := 9 }]

/-- Its text, up to the second function. -/
def crowdedLines : Lines :=
  .ofText "x = 1\nf()\n  a()\n\n  b()\nend\n"

theorem analyze_insertEmpty_crowded :
    crowdedTree.Ordered ∧
      Rules.analyze {} crowdedTree (some crowdedLines) ⟨"main.go"⟩ =
        [.new ⟨"main.go"⟩ ⟨2, 1⟩ .missingSeparation, .new ⟨"main.go"⟩ ⟨7, 1⟩ .missingSeparation,
          .new ⟨"main.go"⟩ ⟨15, 1⟩ .missingSeparation, .new ⟨"main.go"⟩ ⟨4, 1⟩ .unnecessaryGap,
          .new ⟨"main.go"⟩ ⟨11, 1⟩ .unnecessaryGap] ∧
      Rules.analyze {} (crowdedTree.mapLines (LineNumber.opened 7))
          (some (crowdedLines.insertEmpty 7)) ⟨"main.go"⟩ =
        [.new ⟨"main.go"⟩ ⟨2, 1⟩ .missingSeparation, .new ⟨"main.go"⟩ ⟨16, 1⟩ .missingSeparation,
          .new ⟨"main.go"⟩ ⟨4, 1⟩ .unnecessaryGap, .new ⟨"main.go"⟩ ⟨12, 1⟩ .unnecessaryGap] := by
  have hordered : crowdedTree.Ordered := by decide +kernel
  -- decided along the list: the statement itself would be tried at every number there is
  have hall : crowdedTree.lineNumbers.all (fun line => line.toNat + 1 < UInt64.size) = true := by
    decide +kernel
  have hfits : ∀ line ∈ crowdedTree.lineNumbers, line.toNat + 1 < UInt64.size :=
    fun line hline => of_decide_eq_true (List.all_eq_true.1 hall line hline)
  have hfound : Rules.analyze {} crowdedTree (some crowdedLines) ⟨"main.go"⟩ =
      [.new ⟨"main.go"⟩ ⟨2, 1⟩ .missingSeparation, .new ⟨"main.go"⟩ ⟨7, 1⟩ .missingSeparation,
        .new ⟨"main.go"⟩ ⟨15, 1⟩ .missingSeparation, .new ⟨"main.go"⟩ ⟨4, 1⟩ .unnecessaryGap,
        .new ⟨"main.go"⟩ ⟨11, 1⟩ .unnecessaryGap] := by
    decide +kernel
  have h := analyze_insertEmpty {} crowdedTree crowdedLines ⟨"main.go"⟩ hordered hfits
    (i := 1) rfl rfl (hfound ▸ .tail _ (.head _)) (by decide +kernel)
  refine ⟨hordered, hfound, h.1.trans ?_⟩
  rw [hfound]
  decide +kernel

end BlankLines
