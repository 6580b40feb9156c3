import BlankLines.Report.Summary

/-!
# Report — Text

The report for people: a line for each diagnostic, notes if they are wanted, and a line that sums
up.

A line is made of fragments, some of them inked.  Inks are a matter of presentation: a report
without colors is the same lines with the inks left out.

* `textLines`: the lines of a report.
* `Fragment.render`: a fragment with its ink, or without.
-/

namespace BlankLines

/-- The inks of a report. -/
inductive Ink where
  | red
  | green
  | yellow
  | dim
deriving DecidableEq, Repr

namespace Ink

/-- Starts an escape sequence of a terminal. -/
def escape (code : String) : String :=
  "\x1b[" ++ code ++ "m"

/-- The sequence that puts an ink on. -/
def start : Ink → String
  | .red    => escape "31"
  | .green  => escape "32"
  | .yellow => escape "33"
  | .dim    => escape "2"

/-- The sequence that takes any ink off. -/
def stop : String :=
  escape "0"

end Ink

/-- A piece of a line. -/
structure Fragment where
  ink : Option Ink := none
  text : String
deriving DecidableEq, Repr

/-- A piece with its ink if `colors`, without it if not. -/
def Fragment.render (colors : Bool) (f : Fragment) : String :=
  match f.ink with
  | some ink => if colors then ink.start ++ f.text ++ Ink.stop else f.text
  | none     => f.text

/-- A line of a report, without its end. -/
abbrev ReportLine := List Fragment

/-- A line and its end. -/
def renderLine (colors : Bool) (line : ReportLine) : String :=
  String.join (line.map (Fragment.render colors)) ++ "\n"

/-- Lines one after the other. -/
def renderLines (colors : Bool) (lines : List ReportLine) : String :=
  String.join (lines.map (renderLine colors))

/-- The line for a diagnostic. -/
def Diagnostic.reportLine (d : Diagnostic) : ReportLine :=
  [{ text := d.location ++ ": " },
    { ink := some .red, text := d.message },
    { text := " " },
    { ink := some .dim, text := "[" ++ d.violation.ruleId ++ "]" }]

/-- A line in one ink. -/
def inked (ink : Ink) (text : String) : ReportLine :=
  [{ ink := some ink, text }]

namespace FileReport

/-- The notes on a report: whether its source is unavailable, and whether it is clean. -/
def notes (r : FileReport) : List ReportLine :=
  (if r.sourceUnavailable then
    [inked .yellow ("note: source unavailable for " ++ r.tree.text ++
      ", declaration spacing not checked")]
  else []) ++
  (if r.isClean then [inked .green ("ok: " ++ r.displayPath.text)] else [])

/-- The lines for a report. -/
def lines (verbose : Bool) (r : FileReport) : List ReportLine :=
  r.diagnostics.map Diagnostic.reportLine ++ if verbose then r.notes else []

end FileReport

/-- The line that sums up. -/
def Summary.line (s : Summary) : ReportLine :=
  if s.hasViolations then
    inked .red ("Found " ++ toString s.violations ++ " violation(s) in " ++
      toString s.filesWithViolations ++ " of " ++ toString s.files ++ " file(s): " ++
      toString s.missingSeparations ++ " missing declaration separation, " ++
      toString s.unnecessaryGaps ++ " unnecessary statement gap")
  else inked .green ("No blank-line violations in " ++ toString s.files ++ " file(s)")

/-- The lines of a whole report: an empty one stands before the sum, if anything does. -/
def textLines (verbose : Bool) (reports : List FileReport) : List ReportLine :=
  let body := reports.flatMap (FileReport.lines verbose)
  (if body.isEmpty then [] else body ++ [[]]) ++ [(Summary.ofReports reports).line]

/-- The report for people. -/
def textReport (colors verbose : Bool) (reports : List FileReport) : String :=
  renderLines colors (textLines verbose reports)

end BlankLines
