import Mathlib.Data.List.Forall2
import BlankLines.Proofs.Json.Documents
import BlankLines.Proofs.Json.Pretty
import BlankLines.Proofs.Json.Unique
import BlankLines.Proofs.Report.Summary
import BlankLines.Report.Sarif

/-!
# Proofs — Report — the SARIF log, read back

A log has one run, and the run a result for each diagnostic.  A result names its rule and points at
it; where a rule stands and which rules there are is written in two places, which have to agree.

* `Sarif.runsOfDocument?`: reads the runs of a log.
* `Sarif.Result.Reports`: a result says all of a diagnostic, and points at the rule with its id and
  its message; `Reports.diagnostic?` reads the diagnostic off it.
* `sarifReport_mirrors`: the results of a log mirror the diagnostics, which are recovered from it.

A log tells a file by a URI, in which a backslash has become a slash, so names with a backslash are
left out here.  As in the report for people, a tree without diagnostics leaves no trace.
-/

namespace BlankLines
open Json (Document Value)

namespace Sarif

/-! ### What a log says -/

/-- A rule as a run lists it. -/
structure Rule where
  id : String
  message : String
deriving DecidableEq

/-- Where a result is. -/
structure Place where
  uri : String
  line : UInt64
  column : UInt64
deriving DecidableEq

/-- A result: the rule it names, the one it points at, its message and where it is. -/
structure Result where
  ruleId : String
  ruleIndex : Nat
  message : String
  places : List Place
deriving DecidableEq

/-- A run with its rules and results. -/
structure Run where
  rules : List Rule
  results : List Result
deriving DecidableEq

/-! ### Readers -/

def Rule.ofDocument? (d : Document) : Option Rule := do
  let id ← d.field? "id" Document.text?
  let message ← d.field? "shortDescription" (Document.field? "text" Document.text?)
  some { id, message }

def Place.ofDocument? (d : Document) : Option Place :=
  d.field? "physicalLocation" fun d => do
    let uri ← d.field? "artifactLocation" (Document.field? "uri" Document.text?)
    let line ← d.field? "region" (Document.field? "startLine" Document.word?)
    let column ← d.field? "region" (Document.field? "startColumn" Document.word?)
    some { uri, line, column }

def Result.ofDocument? (d : Document) : Option Result := do
  let ruleId ← d.field? "ruleId" Document.text?
  let ruleIndex ← d.field? "ruleIndex" Document.natural?
  let message ← d.field? "message" (Document.field? "text" Document.text?)
  let places ← d.field? "locations" (Document.list? Place.ofDocument?)
  some { ruleId, ruleIndex, message, places }

def Run.ofDocument? (d : Document) : Option Run := do
  let rules ← d.field? "tool" (Document.field? "driver" (Document.field? "rules"
    (Document.list? Rule.ofDocument?)))
  let results ← d.field? "results" (Document.list? Result.ofDocument?)
  some { rules, results }

/-- The runs of a log. -/
def runsOfDocument? (d : Document) : Option (List Run) :=
  d.field? "runs" (Document.list? Run.ofDocument?)

/-- The diagnostic that a result reports, told by the rule it names and its one place. -/
def Result.diagnostic? (r : Result) : Option Diagnostic :=
  match Violation.all.find? (fun v => v.ruleId = r.ruleId), r.places with
  | some violation, [place] => some (.new ⟨place.uri⟩ ⟨place.line, place.column⟩ violation)
  | _, _                    => none

/-- The diagnostics that the results of a run report. -/
def Run.diagnostics? (run : Run) : Option (List Diagnostic) :=
  run.results.mapM Result.diagnostic?

/-! ### What is written -/

/-- The rule that reports a violation. -/
def Rule.ofViolation (v : Violation) : Rule :=
  ⟨v.ruleId, v.message⟩

theorem Rule.ofDocument?_rule (v : Violation) :
    Rule.ofDocument? (rule v).toDocument = some (.ofViolation v) := by
  simp [Rule.ofDocument?, rule, Sarif.message, Document.field?, Rule.ofViolation]

/-- The result for a diagnostic. -/
def Result.ofDiagnostic (d : Diagnostic) : Result where
  ruleId := d.violation.ruleId
  ruleIndex := d.violation.ruleIndex
  message := d.message
  places := [⟨uri d.file, d.line, d.column⟩]

theorem Place.ofDocument?_location (d : Diagnostic) :
    Place.ofDocument? (location d).toDocument = some ⟨Sarif.uri d.file, d.line, d.column⟩ := by
  simp [Place.ofDocument?, location, Document.field?]

theorem Result.ofDocument?_result (d : Diagnostic) :
    Result.ofDocument? (result d).toDocument = some (.ofDiagnostic d) := by
  simp [Result.ofDocument?, result, Sarif.message, Document.field?, Place.ofDocument?_location,
    Result.ofDiagnostic]

/-- The run over some files. -/
def Run.ofReports (rs : List FileReport) : Run where
  rules := Violation.all.map Rule.ofViolation
  results := (allDiagnostics rs).map Result.ofDiagnostic

theorem runsOfDocument?_log (rs : List FileReport) :
    runsOfDocument? (log rs).toDocument = some [.ofReports rs] := by
  have hrules : (Value.array (Violation.all.map rule)).toDocument.list? Rule.ofDocument? =
      some (Violation.all.map Rule.ofViolation) :=
    Document.list?_toDocument_map fun v _ => Rule.ofDocument?_rule v
  have hresults : (Value.array ((allDiagnostics rs).map result)).toDocument.list?
      Result.ofDocument? = some ((allDiagnostics rs).map Result.ofDiagnostic) :=
    Document.list?_toDocument_map fun d _ => Result.ofDocument?_result d
  rw [allDiagnostics] at hresults
  simp [runsOfDocument?, log, tool, Document.field?, Run.ofDocument?, hrules, hresults,
    Run.ofReports, allDiagnostics]

/-! ### Results that mirror diagnostics -/

/-- What a result, in a run with these rules, says of a diagnostic. -/
structure Result.Reports (rules : List Rule) (r : Result) (d : Diagnostic) : Prop where
  ruleId : r.ruleId = d.violation.ruleId
  message : r.message = d.message
  places : r.places = [⟨d.file.text, d.line, d.column⟩]
  rule : rules[r.ruleIndex]? = some ⟨r.ruleId, r.message⟩

/-- **A result tells its diagnostic.** -/
theorem Result.Reports.diagnostic? {rules : List Rule} {r : Result} {d : Diagnostic}
    (h : r.Reports rules d) : r.diagnostic? = some d := by
  have hviolation : Violation.all.find? (fun v => v.ruleId = r.ruleId) = some d.violation := by
    rw [h.ruleId]
    cases d.violation <;> decide
  rw [Result.diagnostic?, hviolation, h.places]
  exact congrArg some d.eq_new.symm

theorem Run.diagnostics?_of_reports {run : Run} {ds : List Diagnostic}
    (h : List.Forall₂ (Result.Reports run.rules) run.results ds) : run.diagnostics? = some ds := by
  rw [Run.diagnostics?]
  generalize run.results = results at h
  induction h with
  | nil => rfl
  | cons hr _ ih =>
      rw [List.mapM_cons, hr.diagnostic?, ih]
      rfl

theorem uri_of_notMem {path : Path} (h : '\\' ∉ path.text.toList) : uri path = path.text := by
  have hmap : path.text.toList.map (fun c => if c = '\\' then '/' else c) =
      path.text.toList.map id :=
    List.map_congr_left fun c hc => if_neg (by rintro rfl; exact h hc)
  rw [uri, hmap, List.map_id, String.ofList_toList]

theorem Rule.getElem?_ruleIndex (v : Violation) :
    (Violation.all.map Rule.ofViolation)[v.ruleIndex]? = some (.ofViolation v) := by
  rw [List.getElem?_map, v.getElem?_ruleIndex]
  rfl

theorem Result.reports_ofDiagnostic {d : Diagnostic} (h : '\\' ∉ d.file.text.toList) :
    (Result.ofDiagnostic d).Reports (Violation.all.map Rule.ofViolation) d where
  ruleId := rfl
  message := rfl
  places := by rw [Result.ofDiagnostic, uri_of_notMem h]
  rule := by
    have hrule := Rule.getElem?_ruleIndex d.violation
    rw [Rule.ofViolation, ← d.stamped] at hrule
    exact hrule

theorem Run.reports_ofReports {rs : List FileReport}
    (h : ∀ d ∈ allDiagnostics rs, '\\' ∉ d.file.text.toList) :
    List.Forall₂ (Result.Reports (Run.ofReports rs).rules) (Run.ofReports rs).results
      (allDiagnostics rs) := by
  rw [Run.ofReports, List.forall₂_map_left_iff, List.forall₂_same]
  exact fun d hd => Result.reports_ofDiagnostic (h d hd)

end Sarif

/-- **The results of a SARIF log mirror the diagnostics.**  The log is a JSON text.  It stands for
one document, which has one run, and the results of that run report the diagnostics of all files one
by one and in order: each with the id and the message of its rule, which stand in the list of rules
where the result says, and with its file, line and column as its only place.  So the diagnostics are
recovered from the log. -/
theorem sarifReport_mirrors {rs : List FileReport}
    (h : ∀ d ∈ allDiagnostics rs, '\\' ∉ d.file.text.toList) :
    (∃ doc, Json.Grammar.Element doc (sarifReport rs).toList) ∧
    ∀ doc, Json.Grammar.Element doc (sarifReport rs).toList →
      ∃ run : Sarif.Run, Sarif.runsOfDocument? doc = some [run] ∧
        List.Forall₂ (Sarif.Result.Reports run.rules) run.results (allDiagnostics rs) ∧
        run.diagnostics? = some (allDiagnostics rs) := by
  have hvalid : Json.Grammar.Element (Sarif.log rs).toDocument (sarifReport rs).toList := by
    rw [sarifReport, Value.toPrettyText, String.toList_ofList]
    exact (Json.Grammar.value_pretty _ 0).element
  refine ⟨⟨_, hvalid⟩, fun doc hdoc => ?_⟩
  obtain rfl := hdoc.unique hvalid
  have hreports := Sarif.Run.reports_ofReports h
  exact ⟨.ofReports rs, Sarif.runsOfDocument?_log rs, hreports,
    Sarif.Run.diagnostics?_of_reports hreports⟩

/-- A run over two files, of which one is called after a whole result, with both rules broken and a
line that only a word of 64 bits holds. -/
def loggedRun : List FileReport :=
  let plain : Path := ⟨"src/a b.go"⟩
  let odd : Path := ⟨"\"ruleIndex\": 0,\n\té/]\x7d"⟩
  [{ tree := ⟨"a.json"⟩
     source := some plain
     diagnostics := [.new plain ⟨3, 1⟩ .missingSeparation,
       .new plain ⟨18446744073709551615, 7⟩ .unnecessaryGap] },
    { tree := odd, source := none, diagnostics := [.new odd ⟨2, 1⟩ .unnecessaryGap] }]

theorem sarifReport_mirrors_loggedRun :
    (∀ d ∈ allDiagnostics loggedRun, '\\' ∉ d.file.text.toList) ∧
    (∃ doc, Json.Grammar.Element doc (sarifReport loggedRun).toList) ∧
    ∀ doc, Json.Grammar.Element doc (sarifReport loggedRun).toList →
      ∃ run : Sarif.Run, Sarif.runsOfDocument? doc = some [run] ∧
        List.Forall₂ (Sarif.Result.Reports run.rules) run.results (allDiagnostics loggedRun) ∧
        run.diagnostics? = some (allDiagnostics loggedRun) :=
  have h : ∀ d ∈ allDiagnostics loggedRun, '\\' ∉ d.file.text.toList := by decide
  ⟨h, sarifReport_mirrors h⟩

end BlankLines
