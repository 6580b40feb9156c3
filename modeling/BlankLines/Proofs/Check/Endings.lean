import BlankLines.Proofs.Check.Analysis

/-!
# Proofs — Check — the ends of lines

A return right before a newline belongs to the terminator; any other return stays in its line, where
it is blank.  So a return put before every newline changes what a line holds only where the line
had one at its end already, and then only by a character that is blank.

* `withReturns`: a text with a return put before every newline.
* `whichBlank_splitLines_addReturns`: it has as many lines, and the same of them are blank.
* `Rules.analyze_of_isBlank`: of a text the rules see which lines are blank.
* `analyze_withReturns`: the analysis is the same against both texts.
-/

namespace BlankLines

namespace Text

/-! ### Returns before newlines -/

/-- A return put before every newline, also before one that has a return already. -/
def addReturns (cs : List Char) : List Char :=
  cs.flatMap fun c => if c = '\n' then ['\r', '\n'] else [c]

/-- A text with a return put before every newline. -/
def withReturns (text : String) : String :=
  String.ofList (addReturns text.toList)

example : withReturns "a\n\r\nb\r" = "a\r\n\r\r\nb\r" := by decide

@[simp] theorem addReturns_newline (cs : List Char) :
    addReturns ('\n' :: cs) = '\r' :: '\n' :: addReturns cs := rfl

theorem addReturns_cons_of_ne {c : Char} (h : c ≠ '\n') (cs : List Char) :
    addReturns (c :: cs) = c :: addReturns cs := by
  simp [addReturns, h]

/-- No text starts with a newline once each has a return before it. -/
theorem addReturns_ne_newline_cons (cs rest : List Char) : addReturns cs ≠ '\n' :: rest := by
  cases cs with
  | nil => simp [addReturns]
  | cons c cs =>
      by_cases h : c = '\n'
      · simp [h]
      · simp [addReturns_cons_of_ne h, h]

/-! ### Blank lines -/

/-- Of lines in order, which are blank. -/
def whichBlank (lines : List (List Char)) : List Bool :=
  lines.map fun line => line.all isBlank

/-- Whether a line is blank with a character before it depends on the character and on whether it
was blank. -/
theorem whichBlank_consLine (c : Char) {lines lines' : List (List Char)}
    (h : whichBlank lines' = whichBlank lines) :
    whichBlank (consLine c lines') = whichBlank (consLine c lines) := by
  cases lines <;> cases lines' <;> simp_all [whichBlank, consLine]

/-- A return put before every newline changes neither how many lines there are nor which of them
are blank. -/
theorem whichBlank_splitLines_addReturns (cs : List Char) :
    whichBlank (splitLines (addReturns cs)) = whichBlank (splitLines cs) := by
  fun_induction splitLines cs with
  | case1 => rfl
  | case2 rest ih => simpa [whichBlank] using ih
  | case3 rest ih =>
      -- the new return ends the line with the newline, so the old one stays in it
      have hsplit : splitLines (addReturns ('\r' :: '\n' :: rest)) =
          ['\r'] :: splitLines (addReturns rest) := by
        rw [addReturns_cons_of_ne (by decide), addReturns_newline, splitLines] <;> simp [consLine]
      rw [hsplit]
      simpa [whichBlank] using ih
  | case4 c rest hnewline hreturn ih =>
      rw [addReturns_cons_of_ne hnewline, splitLines]
      · exact whichBlank_consLine c ih
      · exact hnewline
      · exact fun rest' _ => addReturns_ne_newline_cons rest rest'

namespace Lines

theorem isBlank_ofText (text : String) (n : Nat) :
    (ofText text).isBlank n =
      if n = 0 then false else (whichBlank (splitLines text.toList))[n - 1]?.getD false := by
  by_cases hn : n = 0
  · simp [hn]
  · cases h : (splitLines text.toList)[n - 1]? <;>
      simp [isBlank, line?, ofText, allBlank, whichBlank, hn, h]

theorem size_ofText_withReturns (text : String) :
    (ofText (withReturns text)).size = (ofText text).size := by
  have hlength := congrArg List.length (whichBlank_splitLines_addReturns text.toList)
  simpa [size_ofText, withReturns, whichBlank] using hlength

theorem isBlank_ofText_withReturns (text : String) (n : Nat) :
    (ofText (withReturns text)).isBlank n = (ofText text).isBlank n := by
  rw [isBlank_ofText, isBlank_ofText, withReturns, String.toList_ofList,
    whichBlank_splitLines_addReturns]

end Lines

end Text

/-! ### The analysis -/

open Text (Lines withReturns)

/-- Of a text the rules see which of its lines are blank. -/
theorem Rules.analyze_of_isBlank {lines lines' : Lines}
    (h : ∀ n, lines'.isBlank n = lines.isBlank n) (rules : Rules) (t : SourceTree) (path : Path) :
    rules.analyze t (some lines') path = rules.analyze t (some lines) path := by
  have hseparated : ∀ d next, Separated lines' d next ↔ Separated lines d next := fun d next => by
    simp only [Separated, h]
  have hunseparated : unseparated lines' t.declarations = unseparated lines t.declarations :=
    List.filter_congr fun p _ => decide_eq_decide.2 (not_congr (hseparated p.1 p.2))
  rw [analyze_eq_append, analyze_eq_append, declarationPart, declarationPart, Option.elim,
    Option.elim, hunseparated]

/-- **The ends of lines never matter.**  Whatever a text holds, returns that end no line and a last
line without a newline included: put a return before every newline, and there are as many lines as
before, the same of them are blank, and the analysis of every tree finds the same. -/
theorem analyze_withReturns (text : String) :
    (Lines.ofText (withReturns text)).size = (Lines.ofText text).size ∧
      (∀ n, (Lines.ofText (withReturns text)).isBlank n = (Lines.ofText text).isBlank n) ∧
      ∀ (rules : Rules) (t : SourceTree) (path : Path),
        rules.analyze t (some (.ofText (withReturns text))) path =
          rules.analyze t (some (.ofText text)) path :=
  ⟨Lines.size_ofText_withReturns text, Lines.isBlank_ofText_withReturns text,
    Rules.analyze_of_isBlank (Lines.isBlank_ofText_withReturns text)⟩

end BlankLines
