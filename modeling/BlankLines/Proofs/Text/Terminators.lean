import BlankLines.Proofs.Text.Lines

/-!
# Proofs — Text — lines and their terminators

A line ends with a newline, or with a return and a newline, and each line of a text may end in its
own way.  Neither is part of the line, so lines that have none at their end are read back from the
text that they make, however each was ended.

* `Terminator`, `joined`: ways to end a line, and the text of lines that are each ended in one.
* `IsLine`: what a line may hold to be told from its terminator.
* `splitLines_joined`, `splitLines_of_notMem`: ended lines, and one that is not.
* `length_splitLines`: how many lines there are, by the newlines of the text.
* `Lines.ofText_joined`: splitting undoes joining, line by line.

Joining does not undo splitting: a text does not tell from its lines how they were ended, and a
line may have a return at its end if another stood before the newline.
-/

namespace BlankLines.Text

/-! ### Ended lines -/

/-- How a line is ended. -/
inductive Terminator where
  | newline
  | returnNewline
deriving DecidableEq, Repr

/-- The characters of a terminator in front of its newline. -/
def Terminator.lead : Terminator → String
  | .newline       => ""
  | .returnNewline => "\r"

/-- The characters of a terminator. -/
def Terminator.text (t : Terminator) : String :=
  t.lead ++ "\n"

/-- Lines in order, each followed by its terminator. -/
def joined (lines : List (String × Terminator)) : String :=
  String.join (lines.map fun l => l.1 ++ l.2.text)

/-- A line that can be told from its terminator: no newline is in it, no return at its end. -/
structure IsLine (line : String) : Prop where
  newline : '\n' ∉ line.toList
  ending : line.toList.getLast? ≠ some '\r'

instance (line : String) : Decidable (IsLine line) :=
  decidable_of_iff ('\n' ∉ line.toList ∧ line.toList.getLast? ≠ some '\r')
    ⟨fun h => ⟨h.1, h.2⟩, fun h => ⟨h.newline, h.ending⟩⟩

/-- What leads a terminator belongs to no line. -/
theorem joined_eq_ended (lines : List (String × Terminator)) :
    joined lines = ended (lines.map fun l => l.1 ++ l.2.lead) := by
  rw [joined, ended, List.map_map]
  refine congrArg String.join (List.map_congr_left fun l _ => ?_)
  rw [Terminator.text, Function.comp_apply, String.append_assoc]

theorem withoutReturn_append_return (line : List Char) : withoutReturn (line ++ ['\r']) = line := by
  induction line with
  | nil => rfl
  | cons c line ih => rw [List.cons_append, withoutReturn, ih]; simp

theorem withoutReturn_of_getLast? {line : List Char} (h : line.getLast? ≠ some '\r') :
    withoutReturn line = line := by
  fun_induction withoutReturn line with
  | case1 => rfl
  | case2 => exact absurd rfl h
  | case3 c line hreturn ih =>
      cases line with
      | nil => rfl
      | cons d line => rw [ih (by simpa using h)]

/-- A terminator gives the line back that it ends. -/
theorem withoutReturn_append_lead {line : String} (h : IsLine line) (t : Terminator) :
    withoutReturn (line ++ t.lead).toList = line.toList := by
  rw [String.toList_append]
  cases t with
  | newline => simpa [Terminator.lead] using withoutReturn_of_getLast? h.ending
  | returnNewline => exact withoutReturn_append_return line.toList

/-- Ended lines are the first of a text, whatever follows them. -/
theorem splitLines_joined {lines : List (String × Terminator)} (h : ∀ l ∈ lines, IsLine l.1)
    (rest : List Char) :
    splitLines ((joined lines).toList ++ rest) =
      lines.map (fun l => l.1.toList) ++ splitLines rest := by
  have hended : ∀ line ∈ lines.map (fun l => l.1 ++ l.2.lead), '\n' ∉ line.toList := by
    intro line hline
    obtain ⟨l, hl, rfl⟩ := List.mem_map.1 hline
    rw [String.toList_append, List.mem_append, not_or]
    refine ⟨(h l hl).newline, ?_⟩
    cases l.2 <;> decide
  rw [joined_eq_ended, splitLines_ended hended, List.map_map]
  refine congrArg (· ++ _) (List.map_congr_left fun l hl => ?_)
  exact withoutReturn_append_lead (h l hl) l.2

/-- A character that ends no line belongs to the first one. -/
theorem splitLines_cons {c : Char} {rest : List Char} (hnewline : c ≠ '\n')
    (hreturn : ∀ rest', c = '\r' → rest ≠ '\n' :: rest') :
    splitLines (c :: rest) = consLine c (splitLines rest) := by
  rw [splitLines]
  · exact hnewline
  · exact hreturn

/-- What follows the last newline is a line as it stands, also with a return at its end. -/
theorem splitLines_of_notMem {line : List Char} (h : '\n' ∉ line) (hne : line ≠ []) :
    splitLines line = [line] := by
  induction line with
  | nil => exact absurd rfl hne
  | cons c rest ih =>
      obtain ⟨hc, hrest⟩ : '\n' ≠ c ∧ '\n' ∉ rest := by simpa using h
      have hreturn : ∀ rest', c = '\r' → rest ≠ '\n' :: rest' := by
        rintro rest' - rfl
        exact hrest (.head _)
      rw [splitLines_cons hc.symm hreturn]
      cases rest with
      | nil => rfl
      | cons d rest => rw [ih hrest (List.cons_ne_nil d rest), consLine]

/-! ### How many lines -/

theorem length_consLine (c : Char) (lines : List (List Char)) :
    (consLine c lines).length = max 1 lines.length := by
  cases lines with
  | nil => rfl
  | cons line lines => simp [consLine]

/-- One if something follows the last newline. -/
def unended (cs : List Char) : Nat :=
  if cs = [] ∨ cs.getLast? = some '\n' then 0 else 1

theorem unended_newline_cons (rest : List Char) : unended ('\n' :: rest) = unended rest := by
  cases rest <;> simp [unended]

theorem unended_cons_cons (c d : Char) (rest : List Char) :
    unended (c :: d :: rest) = unended (d :: rest) := by
  simp [unended]

/-- A text that is not empty has a newline or something behind the last one. -/
theorem one_le_count_add_unended {cs : List Char} (h : cs ≠ []) :
    1 ≤ cs.count '\n' + unended cs := by
  rw [unended]
  split
  next hended =>
    have hmem : '\n' ∈ cs := List.mem_of_getLast? (hended.resolve_left h)
    exact Nat.le_add_right_of_le (List.count_pos_iff.2 hmem)
  next => exact Nat.le_add_left 1 _

/-- There are as many lines as newlines, and one more if something follows the last of these. -/
theorem length_splitLines (cs : List Char) :
    (splitLines cs).length = cs.count '\n' + unended cs := by
  induction cs using splitLines.induct with
  | case1 => rfl
  | case2 rest ih =>
      rw [splitLines_newline, List.length_cons, ih, List.count_cons_self, unended_newline_cons,
        Nat.add_right_comm]
  | case3 rest ih =>
      rw [splitLines_return_newline, List.length_cons, ih, List.count_cons_of_ne (by decide),
        List.count_cons_self, unended_cons_cons, unended_newline_cons, Nat.add_right_comm]
  | case4 c rest hnewline hreturn ih =>
      have hne : c ≠ '\n' := hnewline
      rw [splitLines_cons hne hreturn, length_consLine, ih, List.count_cons_of_ne hne]
      -- the character opens a line only where nothing follows it
      cases rest with
      | nil => simp [unended, hne]
      | cons d rest =>
          rw [unended_cons_cons,
            Nat.max_eq_right (one_le_count_add_unended (List.cons_ne_nil d rest))]

/-! ### Lines by number -/

/-- A text has some lines: as many, each under its number, and none under any other. -/
structure Lines.Lists (ls : Lines) (lines : List String) : Prop where
  size : ls.size = lines.length
  line : ∀ n (h : n < lines.length), ls.line? (n + 1) = some lines[n]
  zero : ls.line? 0 = none
  past : ∀ n, lines.length < n → ls.line? n = none

theorem Lines.lists_ofText {text : String} {lines : List String}
    (h : splitLines text.toList = lines.map String.toList) : (ofText text).Lists lines where
  size := by rw [size_ofText, h, List.length_map]
  line := by
    intro n hn
    simp [line?, ofText, h, hn]
  zero := rfl
  past := by
    intro n hn
    rw [line?_eq_none_iff, size_ofText, h, List.length_map]
    exact .inr hn

/-- **Splitting undoes joining.**
* Lines that hold no newline and have no return at their end, each ended by a newline or by a return
  and a newline, are the lines of their text.
* So are they together with one more that is not ended, if that is not empty; it may have a return
  at its end.
* Any text has as many lines as it has newlines, and one more if it is not empty and does not end
  with a newline. -/
theorem Lines.ofText_joined :
    (∀ lines : List (String × Terminator), (∀ l ∈ lines, IsLine l.1) →
      (ofText (joined lines)).Lists (lines.map Prod.fst) ∧
      ∀ last : String, '\n' ∉ last.toList → last ≠ "" →
        (ofText (joined lines ++ last)).Lists (lines.map Prod.fst ++ [last])) ∧
    ∀ text : String, (ofText text).size =
      text.toList.count '\n' + if text = "" ∨ text.toList.getLast? = some '\n' then 0 else 1 := by
  refine ⟨fun lines h => ⟨lists_ofText ?_, fun last hlast hne => lists_ofText ?_⟩, fun text => ?_⟩
  · have hsplit := splitLines_joined h []
    rw [List.append_nil, splitLines_nil, List.append_nil] at hsplit
    rw [hsplit, List.map_map]
    rfl
  · rw [String.toList_append, splitLines_joined h, splitLines_of_notMem hlast (by simpa using hne)]
    simp
  · rw [size_ofText, length_splitLines, unended]
    simp only [String.toList_eq_nil_iff]

/-- Lines ended in either way, one of them empty and one with a return inside, and a last one with a
return at its end. -/
theorem Lines.ofText_joined_mixed :
    (ofText "a\r\n\nb\rc\nd\r").Lists ["a", "", "b\rc", "d\r"] := by
  have hlines : ∀ l ∈ [("a", Terminator.returnNewline), ("", .newline), ("b\rc", .newline)],
      IsLine l.1 := by
    decide
  exact (ofText_joined.1 _ hlines).2 "d\r" (by decide) (by decide)

end BlankLines.Text
