import BlankLines.Proofs.Report.Summary
import BlankLines.Proofs.Text.Lines
import BlankLines.Report.Text

/-!
# Proofs — Report — the report for people, read back

A report for people gives a line to each diagnostic.  The name of a file may hold anything but a
newline, the whole of another diagnostic's line included, so a line is read from its end: the
complaint is told by how it ends, and before it stand two numbers, in which there is no colon.

* `textReport_eq_ended`: the lines of a report without colors and notes.
* `Diagnostic.lacks_reportLine`, `Summary.lacks_line`: a line holds a control character only where
  the name of a file does.
* `Diagnostic.shown_inj`: a line tells its diagnostic.
* `textReport_decodable`: a report tells all of its diagnostics, in order.

What a report does not tell is how the diagnostics are spread over the files, and which trees had
none.
-/

namespace BlankLines

/-! ### The lines of a report -/

/-- A line without inks. -/
def plainText (line : ReportLine) : String :=
  String.join (line.map Fragment.text)

theorem renderLine_plain (line : ReportLine) : renderLine false line = plainText line ++ "\n" := by
  have hrender : Fragment.render false = Fragment.text := by
    funext f
    rw [Fragment.render]
    cases f.ink <;> rfl
  rw [renderLine, hrender, plainText]

theorem renderLines_plain (lines : List ReportLine) :
    renderLines false lines = Text.ended (lines.map plainText) := by
  rw [renderLines, Text.ended, List.map_map, funext renderLine_plain]
  rfl

namespace Diagnostic

/-- The line for a diagnostic. -/
def shown (d : Diagnostic) : String :=
  d.file.text ++ ":" ++ toString d.line.toNat ++ ":" ++ toString d.column.toNat ++ ": " ++
    d.message ++ " [" ++ d.violation.ruleId ++ "]"

theorem plainText_reportLine (d : Diagnostic) : plainText d.reportLine = d.shown := by
  rw [← String.toList_inj]
  simp [plainText, reportLine, shown, location]

end Diagnostic

/-- The lines of a report without colors and notes: one for each diagnostic, an empty one if there
is any, and the sum. -/
def plainLines (rs : List FileReport) : List String :=
  (allDiagnostics rs).map Diagnostic.shown ++ (if allDiagnostics rs = [] then [] else [""]) ++
    [plainText (Summary.ofReports rs).line]

theorem textReport_eq_ended (rs : List FileReport) :
    textReport false false rs = Text.ended (plainLines rs) := by
  have hlines : FileReport.lines false = fun r => r.diagnostics.map Diagnostic.reportLine := by
    funext r
    simp [FileReport.lines]
  have hbody : rs.flatMap (FileReport.lines false) =
      (allDiagnostics rs).map Diagnostic.reportLine := by
    rw [hlines, allDiagnostics, List.map_flatMap]
  have hshown : plainText ∘ Diagnostic.reportLine = Diagnostic.shown :=
    funext Diagnostic.plainText_reportLine
  rw [textReport, renderLines_plain, textLines, hbody, plainLines]
  by_cases h : allDiagnostics rs = []
  · simp [h]
  · simp [h, hshown, plainText]

/-! ### What a line holds -/

/-- No piece of a line has a character. -/
def Lacks (c : Char) (line : ReportLine) : Prop :=
  ∀ f ∈ line, c ∉ f.text.toList

/-- Without inks a line holds what its pieces hold. -/
theorem Lacks.plainText {c : Char} {line : ReportLine} (h : Lacks c line) :
    c ∉ (plainText line).toList := by
  rw [BlankLines.plainText, String.toList_join, List.flatMap_map, List.mem_flatMap]
  rintro ⟨f, hf, hc⟩
  exact h f hf hc

theorem notMem_toDigits {c : Char} (hc : c.isDigit = false) (n : Nat) : c ∉ Nat.toDigits 10 n := by
  intro h
  rw [Nat.isDigit_of_mem_toDigits (by decide) (by decide) h] at hc
  contradiction

section
variable {c : Char}

/-- A control character is none of those that wording is made of. -/
theorem ne_of_control (hc : c.toNat < 0x20) {d : Char} (hd : 0x20 ≤ d.toNat) : c ≠ d := by
  rintro rfl
  omega

theorem notMem_number (hc : c.toNat < 0x20) (n : Nat) : c ∉ Nat.toDigits 10 n := by
  refine notMem_toDigits (Bool.eq_false_iff.2 fun hdigit => ?_) n
  have hle : 0x30 ≤ c.toNat := (Char.isDigit_iff_toNat.1 hdigit).1
  omega

theorem Diagnostic.lacks_reportLine (hc : c.toNat < 0x20) {d : Diagnostic}
    (h : c ∉ d.file.text.toList) : Lacks c d.reportLine := by
  have hne : ∀ e : Char, 0x20 ≤ e.toNat → ¬ c = e := fun _ => ne_of_control hc
  have hviolation : c ∉ d.message.toList ∧ c ∉ d.violation.ruleId.toList := by
    rw [d.stamped]
    cases d.violation <;> simp [Violation.message, Violation.ruleId, hne]
  simp [Lacks, reportLine, location, h, hne, hviolation, notMem_number hc]

theorem Summary.lacks_line (hc : c.toNat < 0x20) (s : Summary) : Lacks c s.line := by
  have hne : ∀ e : Char, 0x20 ≤ e.toNat → ¬ c = e := fun _ => ne_of_control hc
  rw [line]
  split <;> simp [Lacks, inked, hne, notMem_number hc]

end

theorem toDigits_inj {m n : Nat} : Nat.toDigits 10 m = Nat.toDigits 10 n ↔ m = n := by
  refine ⟨fun h => ?_, congrArg _⟩
  have hread := congrArg (Nat.ofDigitChars 10 · 0) h
  simpa using hread

/-- How the line for a violation ends. -/
def Violation.ending (v : Violation) : List Char :=
  (": " ++ v.message ++ " [" ++ v.ruleId ++ "]").toList

/-- No ending is how another one ends. -/
theorem Violation.ending_suffix_iff {v w : Violation} : v.ending <:+ w.ending ↔ v = w := by
  cases v <;> cases w <;> decide +kernel

namespace Diagnostic

theorem toList_shown (d : Diagnostic) :
    d.shown.toList = d.file.text.toList ++ ':' :: Nat.toDigits 10 d.line.toNat ++
      ':' :: Nat.toDigits 10 d.column.toNat ++ d.violation.ending := by
  simp [shown, Violation.ending, d.stamped]

theorem newline_notMem_shown {d : Diagnostic} (h : '\n' ∉ d.file.text.toList) :
    '\n' ∉ d.shown.toList := by
  rw [← plainText_reportLine]
  exact (lacks_reportLine (by decide) h).plainText

/-- **One line.**  The line for a diagnostic tells it, whatever its file is called. -/
theorem shown_inj {d e : Diagnostic} : d.shown = e.shown ↔ d = e := by
  refine ⟨fun h => ?_, congrArg shown⟩
  rw [← String.toList_inj, toList_shown, toList_shown] at h
  have hviolation : d.violation = e.violation := by
    rcases List.suffix_or_suffix_of_suffix ⟨_, h⟩ (List.suffix_append _ e.violation.ending)
      with hde | hed
    · exact Violation.ending_suffix_iff.1 hde
    · exact (Violation.ending_suffix_iff.1 hed).symm
  have hcolon := notMem_toDigits (c := ':') rfl
  rw [hviolation, List.append_cancel_right_eq,
    Text.append_cons_inj_of_notMem_right (hcolon _) (hcolon _),
    Text.append_cons_inj_of_notMem_right (hcolon _) (hcolon _), toDigits_inj, toDigits_inj,
    UInt64.toNat_inj, UInt64.toNat_inj, String.toList_inj] at h
  obtain ⟨⟨htext, hline⟩, hcolumn⟩ := h
  have hfile : d.file = e.file := congrArg Path.mk htext
  rw [d.eq_new, e.eq_new, hfile, hline, hcolumn, hviolation]

end Diagnostic

theorem newline_notMem_plainLines {rs : List FileReport}
    (h : ∀ d ∈ allDiagnostics rs, '\n' ∉ d.file.text.toList) :
    ∀ line ∈ plainLines rs, '\n' ∉ line.toList := by
  intro line hline
  rw [plainLines, List.mem_append, List.mem_append, List.mem_map, List.mem_singleton] at hline
  rcases hline with (⟨d, hd, rfl⟩ | hempty) | rfl
  · exact Diagnostic.newline_notMem_shown (h d hd)
  · split at hempty
    · contradiction
    · simp [List.mem_singleton.1 hempty]
  · exact (Summary.lacks_line (by decide) _).plainText

/-! ### Reading the report -/

/-- As many lines come from as many diagnostics: an empty line more stands for any of them. -/
theorem allDiagnostics_eq_of_plainLines {rs rs' : List FileReport}
    (h : plainLines rs = plainLines rs') : allDiagnostics rs = allDiagnostics rs' := by
  have hlength : (allDiagnostics rs).length = (allDiagnostics rs').length := by
    have := congrArg List.length h
    simp only [plainLines, List.length_append, List.length_map] at this
    split at this <;> split at this <;> simp_all
  rw [plainLines, plainLines, List.append_assoc, List.append_assoc] at h
  obtain ⟨hshown, -⟩ := List.append_inj h (by rw [List.length_map, List.length_map, hlength])
  exact (List.map_inj_right fun _ _ => Diagnostic.shown_inj.1).1 hshown

/-- **The report for people is decodable.**  Without colors and notes it has exactly one line for
each diagnostic, an empty line behind them if there are any, and one line that sums up; and two
runs with the same report found the same diagnostics in the same order.  The files may be called
anything without a newline. -/
theorem textReport_decodable {rs rs' : List FileReport}
    (h : ∀ d ∈ allDiagnostics rs, '\n' ∉ d.file.text.toList)
    (h' : ∀ d ∈ allDiagnostics rs', '\n' ∉ d.file.text.toList) :
    (textReport false false rs = textReport false false rs' →
      allDiagnostics rs = allDiagnostics rs') ∧
    textReport false false rs = Text.ended (plainLines rs) ∧
    ∀ line ∈ plainLines rs, '\n' ∉ line.toList := by
  refine ⟨fun heq => ?_, textReport_eq_ended rs, newline_notMem_plainLines h⟩
  rw [textReport_eq_ended, textReport_eq_ended,
    Text.ended_inj (newline_notMem_plainLines h) (newline_notMem_plainLines h')] at heq
  exact allDiagnostics_eq_of_plainLines heq

/-- A file whose name has the look of a diagnostic. -/
def misnamed : Path :=
  ⟨"a.go:3:1: unnecessary blank line between statements [blankline/statement-gap]"⟩

/-- Three diagnostics in that file, found in two trees of it: `n` in the first. -/
def foundInTwoTrees (n : Nat) : List FileReport :=
  let found : List Diagnostic :=
    [.new misnamed ⟨2, 1⟩ .missingSeparation, .new misnamed ⟨3, 1⟩ .unnecessaryGap,
      .new misnamed ⟨12, 34⟩ .unnecessaryGap]
  [{ tree := ⟨"one.json"⟩, source := some misnamed, diagnostics := found.take n },
    { tree := ⟨"two.json"⟩, source := some misnamed, diagnostics := found.drop n }]

/-- One diagnostic and two have the same report as two and one. -/
theorem textReport_decodable_misnamed :
    foundInTwoTrees 1 ≠ foundInTwoTrees 2 ∧
    textReport false false (foundInTwoTrees 1) = textReport false false (foundInTwoTrees 2) ∧
    allDiagnostics (foundInTwoTrees 1) = allDiagnostics (foundInTwoTrees 2) ∧
    ∀ line ∈ plainLines (foundInTwoTrees 1), '\n' ∉ line.toList := by
  have heq : textReport false false (foundInTwoTrees 1) =
      textReport false false (foundInTwoTrees 2) := by
    decide +kernel
  obtain ⟨hsame, -, hlines⟩ :=
    @textReport_decodable (foundInTwoTrees 1) (foundInTwoTrees 2) (by decide +kernel)
      (by decide +kernel)
  exact ⟨by decide, heq, hsame heq, hlines⟩

end BlankLines
