import BlankLines.Proofs.Check.Analysis

/-!
# Proofs — Check — the history of a reporter

A reporter outlives what writes to it.  Single reports, the rule for a list of declarations, the
walk over a block and the rules for whole files may follow each other in any order, each over
another tree, another text, other comments and another policy.  Whatever a reporter holds by then,
each of them adds what it would add to a reporter that holds nothing.

* `Reporter.Step`, `Reporter.after`: what can be done with a reporter, once and in sequence.
* `Reporter.Step.run_eq_append`: a step adds at the end what it adds alone.
* `Reporter.after_eq_append`: so does a sequence, step by step.
* `Reporter.after_history`: what a reporter holds is what its steps add alone, in their order, and
  each diagnostic names the file and has the message of the step that added it.

The walk threads the reporter through every block below a block; that it only adds there is
`checkBlock_eq_append`.
-/

namespace BlankLines
open Text (Lines)

namespace Reporter

/-! ### Steps -/

/-- What can be done with a reporter. -/
inductive Step where
  /-- A single report. -/
  | report (violation : Violation) (position : Position)
  /-- The rule for declarations, over some of them. -/
  | declarations (lines : Lines) (ds : List Declaration)
  /-- The rule for statements, over a block. -/
  | walk (policy : StatementPolicy) (comments : CommentLines) (block : Block)
  /-- The rule for declarations, over a file that may come without its text. -/
  | declarationRule (t : SourceTree) (lines? : Option Lines)
  /-- The rule for statements, over a file. -/
  | statementRule (policy : StatementPolicy) (comments : CommentLines) (t : SourceTree)

namespace Step

/-- Does a step with a reporter. -/
def run : Step → Reporter → Reporter
  | report violation position, r       => r.report violation position
  | declarations lines ds, r           => checkDeclarations lines ds r
  | walk policy comments block, r      => checkBlock policy comments block r
  | declarationRule t lines?, r        => Rules.runDeclarations {} t lines? r
  | statementRule policy comments t, r => checkStatements policy comments t r

/-- What a step complains about. -/
def violation : Step → Violation
  | report violation _ => violation
  | declarations .. | declarationRule .. => .missingSeparation
  | walk .. | statementRule .. => .unnecessaryGap

/-- The diagnostics about a file that a step adds. -/
def added (file : Path) : Step → List Diagnostic
  | report violation position => [.new file position violation]
  | declarations lines ds => (unseparated lines ds).map (separationDiagnostic file)
  | walk policy comments block => (pairs block).filterMap (pairDiagnostic? policy comments file)
  | declarationRule t lines? => Rules.declarationPart {} t lines? file
  | statementRule policy comments t =>
    t.walkPairs.filterMap (pairDiagnostic? policy comments file)

theorem run_eq_append_added (s : Step) (r : Reporter) : s.run r = r.append (s.added r.file) := by
  cases s with
  | report violation position => exact r.report_eq_append violation position
  | declarations lines ds => exact checkDeclarations_eq_append lines ds r
  | walk policy comments block => exact checkBlock_eq_append policy comments block r
  | declarationRule t lines? => exact Rules.runDeclarations_eq_append {} t lines? r
  | statementRule policy comments t => exact checkStatements_eq_append policy comments t r

theorem file_run (s : Step) (r : Reporter) : (s.run r).file = r.file := by
  rw [run_eq_append_added, file_append]

/-- The diagnostics that a step leaves in a reporter that held none. -/
theorem toList_run_fresh (s : Step) (file : Path) :
    (s.run { file }).toList = s.added file := by
  rw [run_eq_append_added, toList_append]
  rfl

/-- **A step only adds**, and what it adds does not depend on what is there: it is what the step
adds alone. -/
theorem run_eq_append (s : Step) (r : Reporter) :
    s.run r = r.append (s.run { file := r.file }).toList := by
  rw [toList_run_fresh, run_eq_append_added]

theorem file_and_violation_of_mem {s : Step} {file : Path} {d : Diagnostic}
    (h : d ∈ (s.run { file }).toList) : d.file = file ∧ d.violation = s.violation := by
  rw [toList_run_fresh] at h
  cases s with
  | report violation position =>
      obtain rfl := List.mem_singleton.1 h
      exact ⟨rfl, rfl⟩
  | declarations lines ds =>
      obtain ⟨p, -, rfl⟩ := List.mem_map.1 h
      exact ⟨rfl, rfl⟩
  | walk policy comments block =>
      obtain ⟨p, -, hp⟩ := List.mem_filterMap.1 h
      obtain ⟨position, -, rfl⟩ := Option.map_eq_some_iff.1 hp
      exact ⟨rfl, rfl⟩
  | declarationRule t lines? =>
      obtain ⟨p, rfl⟩ := Rules.exists_of_mem_declarationPart h
      exact ⟨rfl, rfl⟩
  | statementRule policy comments t =>
      obtain ⟨p, -, hp⟩ := List.mem_filterMap.1 h
      obtain ⟨position, -, rfl⟩ := Option.map_eq_some_iff.1 hp
      exact ⟨rfl, rfl⟩

end Step

/-! ### Histories -/

/-- A reporter after several steps. -/
def after (r : Reporter) (steps : List Step) : Reporter :=
  steps.foldl (fun r s => s.run r) r

/-- **A history only adds**: for each step, in order, what the step adds alone. -/
theorem after_eq_append (r : Reporter) (steps : List Step) :
    r.after steps = r.append (steps.flatMap fun s => (s.run { file := r.file }).toList) := by
  induction steps generalizing r with
  | nil => simp [after]
  | cons s steps ih =>
      calc r.after (s :: steps)
          = (s.run r).after steps := rfl
        _ = (s.run r).append
              (steps.flatMap fun next => (next.run { file := (s.run r).file }).toList) := ih _
        _ = r.append ((s :: steps).flatMap fun next => (next.run { file := r.file }).toList) := by
            rw [s.file_run, s.run_eq_append r, append_append, List.flatMap_cons]

theorem toList_after_fresh (file : Path) (steps : List Step) :
    (after { file } steps).toList = steps.flatMap fun s => (s.run { file }).toList := by
  rw [after_eq_append, toList_append]
  rfl

/-- **A reporter is a record of its history.**  After any steps, over any files, texts, comments and
policies:
* It holds what each step adds alone to a reporter of the same file that holds nothing, in the order
  of the steps, and nothing else.
* Alone a single report adds its one diagnostic, a list of declarations one for each that nothing
  separates from the one before it, and a walk one for each gap that it finds.
* So at any point of the history it held a part from the front, and what came later is behind that:
  nothing that was there is changed, left out, moved or merged.
* Each diagnostic comes from one of the steps, names the file of the reporter, and reads as the
  place in that file with the message of what the step complains about. -/
theorem after_history (file : Path) (steps : List Step) :
    (after { file } steps).toList = (steps.flatMap fun s => (s.run { file }).toList) ∧
    (∀ s : Step, (s.run { file }).toList = s.added file) ∧
    (∀ k, (after { file } steps).toList =
      (after { file } (steps.take k)).toList ++ (after { file } (steps.drop k)).toList) ∧
    ∀ d ∈ (after { file } steps).toList, ∃ s ∈ steps, d ∈ (s.run { file }).toList ∧
      d.file = file ∧ d.violation = s.violation ∧ d.message = s.violation.message ∧
      d.text = file.text ++ ":" ++ toString d.line.toNat ++ ":" ++ toString d.column.toNat ++
        ": " ++ s.violation.message := by
  refine ⟨toList_after_fresh file steps, fun s => s.toList_run_fresh file, fun k => ?_,
    fun d hd => ?_⟩
  · rw [toList_after_fresh, toList_after_fresh, toList_after_fresh, ← List.flatMap_append,
      List.take_append_drop]
  · rw [toList_after_fresh] at hd
    obtain ⟨s, hs, hd⟩ := List.mem_flatMap.1 hd
    obtain ⟨hfile, hviolation⟩ := Step.file_and_violation_of_mem hd
    have hmessage : d.message = s.violation.message := by rw [d.stamped, hviolation]
    refine ⟨s, hs, hd, hfile, hviolation, hmessage, ?_⟩
    rw [Diagnostic.text, Diagnostic.location, hfile, hmessage]

end Reporter

end BlankLines
