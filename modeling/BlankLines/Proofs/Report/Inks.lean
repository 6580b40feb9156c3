import BlankLines.Command.Plan
import BlankLines.Proofs.Report.Text

/-!
# Proofs — Report — inks are presentation

A terminal takes a text apart into characters and sequences: an escape, a bracket, digits and an
`m`.  What the report for people shows in colors is what it shows without them, and sequences around
it.

* `tokens`, `withoutSequences`: a text taken apart, and put together again without its sequences.
* `Balanced`: every color is taken off once before the next one and before its line ends.
* `textReport_inks`: without its sequences a report in colors is the report without colors, and its
  sequences are balanced.

Both need names of files that hold no sequences themselves.
-/

namespace BlankLines

/-! ### A text as a terminal sees it -/

/-- A character to show, or a sequence with the digits of its code. -/
inductive Token where
  | char (c : Char)
  | sequence (code : List Char)
deriving DecidableEq, Repr

/-- The code of the sequence that a text starts with, and what follows the sequence. -/
def sequence? : List Char → Option (List Char × List Char)
  | '\x1b' :: '[' :: rest =>
    match rest.takeWhile Char.isDigit, rest.dropWhile Char.isDigit with
    | d :: code, 'm' :: after => some (d :: code, after)
    | _, _                    => none
  | _ => none

theorem length_sequence? {text code after : List Char} (h : sequence? text = some (code, after)) :
    after.length < text.length := by
  unfold sequence? at h
  split at h
  next rest =>
    split at h
    next hdrop =>
      cases h
      have hle := (List.dropWhile_suffix Char.isDigit (l := rest)).length_le
      rw [hdrop, List.length_cons] at hle
      exact Nat.lt_succ_of_lt (Nat.lt_succ_of_lt hle)
    next => cases h
  next => cases h

/-- A text taken apart, from its start. -/
def tokens : List Char → List Token
  | [] => []
  | c :: rest =>
    match _h : sequence? (c :: rest) with
    | some (code, after) => .sequence code :: tokens after
    | none               => .char c :: tokens rest
termination_by text => text.length
decreasing_by
  · exact length_sequence? _h
  · exact Nat.lt_succ_self _

/-- The character that a token shows. -/
def Token.char? : Token → Option Char
  | .char c     => some c
  | .sequence _ => none

@[simp] theorem Token.char?_sequence (code : List Char) : (Token.sequence code).char? = none := rfl

@[simp] theorem Token.filterMap_map_char (text : List Char) :
    (text.map Token.char).filterMap Token.char? = text := by
  have hshow : Token.char? ∘ Token.char = some := rfl
  rw [List.filterMap_map, hshow, List.filterMap_some]

/-- A text with every sequence deleted. -/
def withoutSequences (text : String) : String :=
  String.ofList ((tokens text.toList).filterMap Token.char?)

/-! ### Taking apart what was put together -/

theorem tokens_of_some {text code after : List Char} (h : sequence? text = some (code, after)) :
    tokens text = .sequence code :: tokens after := by
  cases text with
  | nil => cases h
  | cons c rest =>
      rw [tokens]
      split
      next h' =>
        cases h.symm.trans h'
        rfl
      next h' => cases h.symm.trans h'

theorem tokens_of_none {c : Char} {rest : List Char} (h : sequence? (c :: rest) = none) :
    tokens (c :: rest) = .char c :: tokens rest := by
  rw [tokens]
  split
  next h' => cases h.symm.trans h'
  next => rfl

/-- Text without an escape is characters to show, whatever follows it. -/
theorem tokens_append {text : List Char} (h : '\x1b' ∉ text) (rest : List Char) :
    tokens (text ++ rest) = text.map .char ++ tokens rest := by
  induction text with
  | nil => rfl
  | cons c text ih =>
      rw [List.mem_cons, not_or] at h
      have hnone : sequence? (c :: (text ++ rest)) = none := by
        rw [sequence?]
        exact fun _ hc => h.1 (List.cons.inj hc).1.symm
      rw [List.cons_append, tokens_of_none hnone, ih h.2]
      rfl

theorem tokens_sequence {code : List Char} (hne : code ≠ []) (h : ∀ c ∈ code, c.isDigit = true)
    (rest : List Char) :
    tokens ('\x1b' :: '[' :: (code ++ 'm' :: rest)) = .sequence code :: tokens rest := by
  have htake : (code ++ 'm' :: rest).takeWhile Char.isDigit = code := by
    rw [List.takeWhile_append_of_pos h]
    simp
  have hdrop : (code ++ 'm' :: rest).dropWhile Char.isDigit = 'm' :: rest := by
    rw [List.dropWhile_append_of_pos h]
    rfl
  obtain ⟨d, ds, rfl⟩ := List.exists_cons_of_ne_nil hne
  refine tokens_of_some ?_
  rw [sequence?, htake, hdrop]
  rfl

/-! ### The tokens of a report -/

namespace Ink

/-- The digits that stand for an ink. -/
def code : Ink → List Char
  | .red    => ['3', '1']
  | .green  => ['3', '2']
  | .yellow => ['3', '3']
  | .dim    => ['2']

/-- The digits that take any ink off. -/
def noInk : List Char :=
  ['0']

theorem isDigit_of_mem_code (ink : Ink) : ∀ c ∈ ink.code, c.isDigit = true :=
  List.all_eq_true.1 (by cases ink <;> rfl)

theorem code_ne_noInk (ink : Ink) : ink.code ≠ noInk := by
  cases ink <;> decide

theorem tokens_start (ink : Ink) (rest : List Char) :
    tokens (ink.start.toList ++ rest) = .sequence ink.code :: tokens rest := by
  have hstart : ink.start.toList ++ rest = '\x1b' :: '[' :: (ink.code ++ 'm' :: rest) := by
    cases ink <;> rfl
  rw [hstart]
  exact tokens_sequence (by cases ink <;> decide) ink.isDigit_of_mem_code rest

theorem tokens_stop (rest : List Char) :
    tokens (stop.toList ++ rest) = .sequence noInk :: tokens rest := by
  have hstop : stop.toList ++ rest = '\x1b' :: '[' :: (noInk ++ 'm' :: rest) := rfl
  rw [hstop]
  exact tokens_sequence (by decide) (List.all_eq_true.1 rfl) rest

end Ink

/-- The tokens of a piece of a line in colors. -/
def Fragment.tokens (f : Fragment) : List Token :=
  match f.ink with
  | some ink => .sequence ink.code :: f.text.toList.map .char ++ [.sequence Ink.noInk]
  | none     => f.text.toList.map .char

theorem Fragment.tokens_render {f : Fragment} (h : '\x1b' ∉ f.text.toList) (rest : List Char) :
    BlankLines.tokens ((f.render true).toList ++ rest) = f.tokens ++ BlankLines.tokens rest := by
  rw [render, tokens]
  cases f.ink with
  | none => exact tokens_append h rest
  | some ink =>
      simp only [if_true, String.toList_append, List.append_assoc, Ink.tokens_start,
        tokens_append h, Ink.tokens_stop, List.cons_append, List.nil_append]

theorem Fragment.filterMap_tokens (f : Fragment) :
    f.tokens.filterMap Token.char? = (f.render false).toList := by
  rw [render, tokens]
  cases f.ink with
  | none => exact Token.filterMap_map_char _
  | some ink =>
      simp only [List.cons_append, List.filterMap_cons, Token.char?_sequence,
        List.filterMap_append, Token.filterMap_map_char, List.filterMap_nil, List.append_nil]
      rfl

/-- The tokens of a line in colors, its end included. -/
def lineTokens (line : ReportLine) : List Token :=
  line.flatMap Fragment.tokens ++ [.char '\n']

theorem tokens_renderLine {line : ReportLine} (h : Lacks '\x1b' line) (rest : List Char) :
    tokens ((renderLine true line).toList ++ rest) = lineTokens line ++ tokens rest := by
  have hnewline : ∀ rest, tokens ('\n' :: rest) = .char '\n' :: tokens rest :=
    fun rest => @tokens_append ['\n'] (by decide) rest
  rw [renderLine, lineTokens]
  induction line with
  | nil => simpa using hnewline rest
  | cons f line ih =>
      have ih := ih fun g hg => h g (.tail _ hg)
      simp only [String.toList_append, List.append_assoc] at ih
      simp only [List.map_cons, String.join_cons, String.toList_append, List.append_assoc,
        Fragment.tokens_render (h f (.head _)), ih, List.flatMap_cons]

theorem filterMap_lineTokens (line : ReportLine) :
    (lineTokens line).filterMap Token.char? = (renderLine false line).toList := by
  have hnewline : Token.char? (.char '\n') = some '\n' := rfl
  simp [renderLine, lineTokens, List.filterMap_flatMap, Fragment.filterMap_tokens, hnewline,
    String.toList_join, List.flatMap_map]

theorem tokens_renderLines {lines : List ReportLine} (h : ∀ line ∈ lines, Lacks '\x1b' line) :
    tokens (renderLines true lines).toList = lines.flatMap lineTokens := by
  rw [renderLines]
  induction lines with
  | nil => rw [tokens.eq_def]; rfl
  | cons line lines ih =>
      rw [List.map_cons, String.join_cons, String.toList_append, tokens_renderLine (h _ (.head _)),
        ih fun l hl => h l (.tail _ hl), List.flatMap_cons]

/-- Lines in colors show what lines without them are. -/
theorem withoutSequences_renderLines {lines : List ReportLine}
    (h : ∀ line ∈ lines, Lacks '\x1b' line) :
    withoutSequences (renderLines true lines) = renderLines false lines := by
  rw [withoutSequences, tokens_renderLines h, List.filterMap_flatMap, funext filterMap_lineTokens,
    ← String.toList_inj, renderLines]
  simp [String.toList_join, List.flatMap_map]

/-! ### Balance -/

/-- Whether a token puts an ink on. -/
def Token.isColor : Token → Bool
  | .char _        => false
  | .sequence code => code ≠ Ink.noInk

/-- The tokens up to the next color or the end of the line. -/
def reach (ts : List Token) : List Token :=
  ts.takeWhile fun t => !t.isColor && t ≠ .char '\n'

/-- Behind each color, any ink is taken off exactly once up to the next color or the end of the
line. -/
def Balanced (ts : List Token) : Prop :=
  ∀ color after, color :: after <:+ ts → color.isColor = true →
    (reach after).count (.sequence Ink.noInk) = 1

/-- Balanced tokens that take no ink off before they put one on. -/
structure Settled (ts : List Token) : Prop where
  balanced : Balanced ts
  free : .sequence Ink.noInk ∉ reach ts

theorem balanced_cons {t : Token} {ts : List Token} :
    Balanced (t :: ts) ↔
      (t.isColor = true → (reach ts).count (.sequence Ink.noInk) = 1) ∧ Balanced ts := by
  simp only [Balanced, List.suffix_cons_iff]
  constructor
  · intro h
    exact ⟨fun ht => h t ts (.inl rfl) ht, fun color after hs hc => h color after (.inr hs) hc⟩
  · rintro ⟨ht, h⟩ color after (heq | hs) hc
    · cases heq
      exact ht hc
    · exact h color after hs hc

theorem Balanced.chars {ts : List Token} (h : Balanced ts) (text : List Char) :
    Balanced (text.map .char ++ ts) := by
  induction text with
  | nil => exact h
  | cons c text ih => exact balanced_cons.2 ⟨nofun, ih⟩

theorem settled_nil : Settled [] where
  balanced := fun color after hs => by simp at hs
  free := by simp [reach]

/-- An end of a line settles what stands before it. -/
theorem Settled.newLine {ts : List Token} (h : Settled ts) : Settled (.char '\n' :: ts) where
  balanced := balanced_cons.2 ⟨nofun, h.balanced⟩
  free := by simp [reach]

theorem Settled.chars {ts : List Token} (h : Settled ts) (text : List Char) :
    Settled (text.map .char ++ ts) where
  balanced := h.balanced.chars text
  free := by
    induction text with
    | nil => exact h.free
    | cons c text ih =>
        by_cases hc : c = '\n'
        · simp [reach, hc]
        · simpa [reach, hc, Token.isColor] using ih

/-- A piece in an ink is settled if it stays on its line. -/
theorem Settled.inked {ts : List Token} (h : Settled ts) (ink : Ink) {text : List Char}
    (htext : '\n' ∉ text) :
    Settled (.sequence ink.code :: (text.map .char ++ .sequence Ink.noInk :: ts)) where
  balanced := by
    have hstop : (Token.sequence Ink.noInk).isColor = false := by decide
    have hreach : reach (text.map .char ++ .sequence Ink.noInk :: ts) =
        text.map .char ++ .sequence Ink.noInk :: reach ts := by
      rw [reach, List.takeWhile_append_of_pos]
      · simp [hstop, reach]
      · intro t ht
        obtain ⟨c, hc, rfl⟩ := List.mem_map.1 ht
        have hne : c ≠ '\n' := fun heq => htext (heq ▸ hc)
        simp [Token.isColor, hne]
    refine balanced_cons.2 ⟨fun _ => ?_, (balanced_cons.2 ⟨?_, h.balanced⟩).chars text⟩
    · have hchars : .sequence Ink.noInk ∉ text.map Token.char := by simp
      rw [hreach, List.count_append, List.count_cons_self, List.count_eq_zero_of_not_mem hchars,
        List.count_eq_zero_of_not_mem h.free]
    · rw [hstop]
      exact nofun
  free := by
    have hcolor : (Token.sequence ink.code).isColor = true := by
      simp [Token.isColor, ink.code_ne_noInk]
    simp [reach, hcolor]

theorem Settled.fragment {ts : List Token} (h : Settled ts) {f : Fragment}
    (hf : '\n' ∉ f.text.toList) : Settled (f.tokens ++ ts) := by
  rw [Fragment.tokens]
  cases f.ink with
  | none => exact h.chars _
  | some ink => simpa using h.inked ink hf

theorem Settled.line {ts : List Token} (h : Settled ts) {line : ReportLine}
    (hline : Lacks '\n' line) : Settled (lineTokens line ++ ts) := by
  rw [lineTokens]
  induction line with
  | nil => exact h.newLine
  | cons f line ih =>
      have ih := ih fun g hg => hline g (.tail _ hg)
      simpa using ih.fragment (hline f (.head _))

theorem settled_lines {lines : List ReportLine} (h : ∀ line ∈ lines, Lacks '\n' line) :
    Settled (lines.flatMap lineTokens) := by
  induction lines with
  | nil => exact settled_nil
  | cons line lines ih => exact (ih fun l hl => h l (.tail _ hl)).line (h _ (.head _))

/-! ### What the lines of a report hold -/

/-- Every path that a report names. -/
def FileReport.paths (r : FileReport) : List Path :=
  r.tree :: (r.source.toList ++ r.diagnostics.map Diagnostic.file)

theorem FileReport.displayPath_mem_paths (r : FileReport) : r.displayPath ∈ r.paths := by
  rw [displayPath, paths]
  cases r.source <;> simp

section
variable {c : Char}

theorem FileReport.lacks_notes (hc : c.toNat < 0x20) {r : FileReport}
    (h : ∀ p ∈ r.paths, c ∉ p.text.toList) : ∀ line ∈ r.notes, Lacks c line := by
  have hne : ∀ e : Char, 0x20 ≤ e.toNat → ¬ c = e := fun _ => ne_of_control hc
  have htree : c ∉ r.tree.text.toList := h _ (.head _)
  have hdisplay : c ∉ r.displayPath.text.toList := h _ r.displayPath_mem_paths
  intro line hline
  rw [notes, List.mem_append] at hline
  rcases hline with hline | hline
  · split at hline
    · obtain rfl := List.mem_singleton.1 hline
      simp [Lacks, inked, htree, hne]
    · cases hline
  · split at hline
    · obtain rfl := List.mem_singleton.1 hline
      simp [Lacks, inked, hdisplay, hne]
    · cases hline

/-- **The lines of a report** hold a control character only where a path does. -/
theorem lacks_of_mem_textLines (hc : c.toNat < 0x20) {rs : List FileReport}
    (h : ∀ r ∈ rs, ∀ p ∈ r.paths, c ∉ p.text.toList) (verbose : Bool) :
    ∀ line ∈ textLines verbose rs, Lacks c line := by
  have hbody : ∀ line ∈ rs.flatMap (FileReport.lines verbose), Lacks c line := by
    intro line hline
    obtain ⟨r, hr, hline⟩ := List.mem_flatMap.1 hline
    rw [FileReport.lines, List.mem_append] at hline
    rcases hline with hline | hline
    · obtain ⟨d, hd, rfl⟩ := List.mem_map.1 hline
      refine Diagnostic.lacks_reportLine hc (h r hr _ ?_)
      exact .tail _ (List.mem_append_right _ (List.mem_map_of_mem hd))
    · split at hline
      · exact FileReport.lacks_notes hc (h r hr) line hline
      · cases hline
  intro line hline
  rw [textLines, List.mem_append, List.mem_singleton] at hline
  rcases hline with hline | rfl
  · split at hline
    · cases hline
    · rcases List.mem_append.1 hline with hline | hline
      · exact hbody line hline
      · obtain rfl := List.mem_singleton.1 hline
        simp [Lacks]
  · exact Summary.lacks_line hc _

end

/-! ### Reports in colors -/

/-- **Inks are presentation.**  If no path holds an escape, a report that is always colored is,
without its sequences, the report that never is, be there notes or not.  If no path holds a newline
either, every color in it is taken off exactly once before the next one and before its line ends. -/
theorem textReport_inks {rs : List FileReport}
    (h : ∀ r ∈ rs, ∀ p ∈ r.paths, '\x1b' ∉ p.text.toList) (terminal verbose : Bool) :
    withoutSequences (textReport (ColorChoice.always.colors terminal) verbose rs) =
      textReport (ColorChoice.never.colors terminal) verbose rs ∧
    ((∀ r ∈ rs, ∀ p ∈ r.paths, '\n' ∉ p.text.toList) →
      Balanced (tokens (textReport (ColorChoice.always.colors terminal) verbose rs).toList)) := by
  have hescape := lacks_of_mem_textLines (by decide) h verbose
  refine ⟨withoutSequences_renderLines hescape, fun hnewline => ?_⟩
  rw [textReport, ColorChoice.colors, tokens_renderLines hescape]
  exact (settled_lines (lacks_of_mem_textLines (by decide) hnewline verbose)).balanced

/-- A run over a file that is called like the rest of a sequence, and over a clean one whose source
is unavailable. -/
def inkedRun : List FileReport :=
  let odd : Path := ⟨"[31m/0m.go"⟩
  [{ tree := ⟨"a.json"⟩
     source := some odd
     diagnostics := [.new odd ⟨3, 1⟩ .missingSeparation, .new odd ⟨9, 2⟩ .unnecessaryGap] },
    { tree := ⟨"b.json"⟩, source := some ⟨"b.go"⟩, diagnostics := [], sourceUnavailable := true }]

theorem textReport_inks_inkedRun :
    ((∀ r ∈ inkedRun, ∀ p ∈ r.paths, '\x1b' ∉ p.text.toList) ∧
      ∀ r ∈ inkedRun, ∀ p ∈ r.paths, '\n' ∉ p.text.toList) ∧
    withoutSequences (textReport true true inkedRun) = textReport false true inkedRun ∧
      Balanced (tokens (textReport true true inkedRun).toList) := by
  have hescape : ∀ r ∈ inkedRun, ∀ p ∈ r.paths, '\x1b' ∉ p.text.toList := by decide
  have hnewline : ∀ r ∈ inkedRun, ∀ p ∈ r.paths, '\n' ∉ p.text.toList := by decide
  obtain ⟨hplain, hbalanced⟩ := textReport_inks hescape false true
  exact ⟨⟨hescape, hnewline⟩, hplain, hbalanced hnewline⟩

end BlankLines
