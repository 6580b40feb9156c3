import BlankLines.Proofs.Check.Moving
import BlankLines.Proofs.Text.Lines

/-!
# Proofs — Check — a file behind other lines

Whole lines put before a text move everything in it by their number.

* `analyze_later`: the analysis of a tree that is moved along finds what it found before, moved by
  that number, whatever the new lines hold and however the spans of the tree lie.
-/

namespace BlankLines
open Text (Lines ended)

/-- The line that comes `k` lines later, where there is one. -/
def LineNumber.later (k : Nat) (line : UInt64) : UInt64 :=
  .ofNat (line.toNat + k)

theorem LineNumber.toNat_later {k : Nat} {line : UInt64} (h : line.toNat + k < UInt64.size) :
    (later k line).toNat = line.toNat + k :=
  UInt64.toNat_ofNat_of_lt h

variable {t : SourceTree} {k : Nat}

theorem spreads_later (k : Nat) : Spreads (LineNumber.later k) (UInt64.size - k) := by
  intro line later hle hlimit
  rw [LineNumber.toNat_later (by omega), LineNumber.toNat_later (by omega)]
  omega

theorem movesBy_later (hfits : ∀ line ∈ t.lineNumbers, line.toNat + k < UInt64.size)
    {p : Statement × Statement} (hp : p ∈ t.walkPairs) :
    MovesBy (LineNumber.later k) t.comments k p := by
  obtain ⟨hlast, hfirst⟩ := SourceTree.ends_mem_lineNumbers hp
  exact (spreads_later k).movesBy (fun line hline => Nat.lt_sub_of_add_lt (hfits line hline)) hp
    (LineNumber.toNat_later (hfits _ hlast)) (LineNumber.toNat_later (hfits _ hfirst))

theorem separated_later (hfits : ∀ line ∈ t.lineNumbers, line.toNat + k < UInt64.size)
    {lines lines' : Lines} (hblank : ∀ n, 0 < n → lines'.isBlank (n + k) = lines.isBlank n)
    {p : Declaration × Declaration} (hp : p ∈ neighbours t.declarations) :
    Separated lines' (p.1.mapLines (LineNumber.later k)) (p.2.mapLines (LineNumber.later k)) ↔
      Separated lines p.1 p.2 := by
  obtain ⟨hlast, hfirst⟩ := SourceTree.neighbours_mem_lineNumbers hp
  refine separated_mapLines (LineNumber.toNat_later (hfits _ hlast))
    (LineNumber.toNat_later (hfits _ hfirst)) fun n hn _ => hblank n (by omega)

/-- **A text behind other lines.**  Put lines before a text, each with its newline and with anything
else in it, and move a tree by their number, where every line number can move that far.  The
analysis then finds the same in the same order, moved by that number; without a text, so it does
too.  No line of a diagnostic is too late to move. -/
theorem analyze_later (rules : Rules) (t : SourceTree) (path : Path) (head : List String)
    (hhead : ∀ line ∈ head, '\n' ∉ line.toList)
    (hfits : ∀ line ∈ t.lineNumbers, line.toNat + head.length < UInt64.size) :
    (∀ text : String,
      rules.analyze (t.mapLines (LineNumber.later head.length))
          (some (.ofText (ended head ++ text))) path =
        (rules.analyze t (some (.ofText text)) path).map
          (Diagnostic.mapLine (LineNumber.later head.length))) ∧
    (rules.analyze (t.mapLines (LineNumber.later head.length)) none path =
      (rules.analyze t none path).map (Diagnostic.mapLine (LineNumber.later head.length))) ∧
    ∀ (lines? : Option Lines), ∀ x ∈ rules.analyze t lines? path,
      (LineNumber.later head.length x.line).toNat = x.line.toNat + head.length := by
  have hstatements := Rules.statementPart_mapLines
    (fun p hp => ⟨_, movesBy_later hfits hp⟩) rules path
  refine ⟨fun text => ?_, ?_, fun lines? x hx => ?_⟩
  · have hdeclarations := Rules.declarationPart_mapLines (fun p hp => separated_later hfits
      (fun n hn => Lines.isBlank_ofText_append hhead text hn) hp) rules path
    rw [Rules.analyze_eq_append, Rules.analyze_eq_append, hdeclarations, hstatements,
      List.map_append]
  · rw [Rules.analyze_eq_statementPart (.inr rfl), Rules.analyze_eq_statementPart (.inr rfl),
      hstatements]
  · obtain ⟨line, hline, hle⟩ := Rules.exists_lineNumber_of_mem_analyze hx
    have := hfits line hline
    exact LineNumber.toNat_later (by omega)

/-- A declaration on line zero, a function with a gap in its body right after it, and a comment
three lines before the last line there can be. -/
def edgeTree : SourceTree where
  declarations :=
    [{ kind := .var, span := .lines 0 0 },
      { kind := .function
        span := .lines 1 5
        body := some
          [{ kind := .simple, span := .lines 2 2 }, { kind := .simple, span := .lines 4 4 }] }]
  comments := [{ line := 0xFFFFFFFFFFFFFFFC }]

theorem analyze_later_edge :
    (∀ line ∈ edgeTree.lineNumbers, line.toNat + 3 < UInt64.size) ∧
      Rules.analyze {} (edgeTree.mapLines (LineNumber.later 3))
          (some (.ofText (ended ["// head", "", "\r"] ++ "f()\n  a()\n\n  b()\nend"))) ⟨"main.go"⟩ =
        [.new ⟨"main.go"⟩ ⟨4, 1⟩ .missingSeparation, .new ⟨"main.go"⟩ ⟨6, 1⟩ .unnecessaryGap] := by
  -- decided along the list: the statement itself would be tried at every number there is
  have hall : edgeTree.lineNumbers.all (fun line => line.toNat + 3 < UInt64.size) = true := by
    decide +kernel
  have hfits : ∀ line ∈ edgeTree.lineNumbers, line.toNat + 3 < UInt64.size :=
    fun line hline => of_decide_eq_true (List.all_eq_true.1 hall line hline)
  have h := analyze_later {} edgeTree ⟨"main.go"⟩ ["// head", "", "\r"] (by decide) hfits
  refine ⟨hfits, (h.1 "f()\n  a()\n\n  b()\nend").trans ?_⟩
  decide +kernel

end BlankLines
