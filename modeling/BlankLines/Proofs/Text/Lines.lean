import BlankLines.Text.Lines

/-!
# Proofs — Text — lines before and between others

What becomes of the numbers of lines when others are put in.

* `splitLines_append_newline`: a text is cut at its first newline, and what follows is cut as if it
  stood alone.
* `ended_inj`: a text of whole lines tells which lines they are.
* `line?_ofText_append`: behind lines that are all ended, a text has its own lines with their
  numbers moved up.
* `line?_insertEmpty`: an empty line put between others moves up those behind it.
-/

namespace BlankLines.Text

/-! ### Cutting a list -/

section Cutting

variable {α : Type} {a : α} {xs ys before before' : List α}

/-- What stands before the first of several separators, and what behind it. -/
theorem append_cons_inj_of_notMem_left (hx : a ∉ xs) (hy : a ∉ ys) {rest rest' : List α} :
    xs ++ a :: rest = ys ++ a :: rest' ↔ xs = ys ∧ rest = rest' := by
  constructor
  · intro h
    induction xs generalizing ys with
    | nil =>
        cases ys with
        | nil => exact ⟨rfl, (List.cons.inj h).2⟩
        | cons y ys => exact absurd (List.cons.inj h).1 fun hay => hy (hay ▸ .head _)
    | cons x xs ih =>
        cases ys with
        | nil => exact absurd (List.cons.inj h).1 fun hxa => hx (hxa ▸ .head _)
        | cons y ys =>
            obtain ⟨rfl, htail⟩ := List.cons.inj h
            obtain ⟨rfl, hrest⟩ := ih (fun ha => hx (.tail _ ha)) (fun ha => hy (.tail _ ha)) htail
            exact ⟨rfl, hrest⟩
  · rintro ⟨rfl, rfl⟩
    rfl

/-- What stands behind the last of several separators, and what before it. -/
theorem append_cons_inj_of_notMem_right (hx : a ∉ xs) (hy : a ∉ ys) :
    before ++ a :: xs = before' ++ a :: ys ↔ before = before' ∧ xs = ys := by
  have hturned : before ++ a :: xs = before' ++ a :: ys ↔
      xs.reverse ++ a :: before.reverse = ys.reverse ++ a :: before'.reverse := by
    rw [← List.reverse_inj]
    simp
  rw [hturned, append_cons_inj_of_notMem_left (by simpa using hx) (by simpa using hy),
    List.reverse_inj, List.reverse_inj, and_comm]

end Cutting

/-! ### Ended lines before a text -/

/-- What a line holds if a newline follows: the terminator takes a return at its end. -/
def withoutReturn : List Char → List Char
  | []        => []
  | ['\r']    => []
  | c :: rest => c :: withoutReturn rest

theorem splitLines_append_newline {line : List Char} (h : '\n' ∉ line) (rest : List Char) :
    splitLines (line ++ '\n' :: rest) = withoutReturn line :: splitLines rest := by
  fun_induction withoutReturn line with
  | case1 => rfl
  | case2 => rfl
  | case3 c line hreturn ih =>
      obtain ⟨hc, hline⟩ : '\n' ≠ c ∧ '\n' ∉ line := by simpa using h
      -- a return before the newline would be all of the line
      have hplain : ∀ tail, c = '\r' → line ++ '\n' :: rest = '\n' :: tail → False := by
        intro tail hc' htail
        cases line with
        | nil => exact hreturn hc' rfl
        | cons d line =>
            obtain ⟨rfl, -⟩ := List.cons.inj htail
            exact hline (.head _)
      rw [List.cons_append, splitLines, ih hline, consLine]
      · exact fun hc' => hc hc'.symm
      · exact hplain

/-- A text of whole lines: each of them with a newline behind it. -/
def ended (lines : List String) : String :=
  String.join (lines.map (· ++ "\n"))

theorem toList_ended_cons (line : String) (lines : List String) :
    (ended (line :: lines)).toList = line.toList ++ '\n' :: (ended lines).toList := by
  simp [ended, String.toList_join]

/-- **Lines behind one another.**  A text of whole lines tells which lines they are. -/
theorem ended_inj {lines lines' : List String} (h : ∀ line ∈ lines, '\n' ∉ line.toList)
    (h' : ∀ line ∈ lines', '\n' ∉ line.toList) : ended lines = ended lines' ↔ lines = lines' := by
  refine ⟨fun heq => ?_, congrArg ended⟩
  rw [← String.toList_inj] at heq
  induction lines generalizing lines' with
  | nil =>
      cases lines' with
      | nil => rfl
      | cons line' lines' => simp [ended] at heq
  | cons line lines ih =>
      cases lines' with
      | nil => simp [ended] at heq
      | cons line' lines' =>
          rw [toList_ended_cons, toList_ended_cons,
            append_cons_inj_of_notMem_left (h _ (.head _)) (h' _ (.head _)),
            String.toList_inj] at heq
          obtain ⟨rfl, hrest⟩ := heq
          rw [ih (fun l hl => h l (.tail _ hl)) (fun l hl => h' l (.tail _ hl)) hrest]

theorem splitLines_ended {lines : List String} (h : ∀ line ∈ lines, '\n' ∉ line.toList)
    (rest : List Char) :
    splitLines ((ended lines).toList ++ rest) =
      lines.map (fun line => withoutReturn line.toList) ++ splitLines rest := by
  induction lines with
  | nil => simp [ended]
  | cons line lines ih =>
      rw [toList_ended_cons, List.append_assoc, List.cons_append,
        splitLines_append_newline (h line (.head _)), ih fun l hl => h l (.tail _ hl)]
      rfl

namespace Lines

/-- **Lines before a text.**  Behind lines that are all ended, whatever they hold, a text has the
lines it has alone, with their numbers moved up. -/
theorem line?_ofText_append {head : List String} (h : ∀ line ∈ head, '\n' ∉ line.toList)
    (text : String) {n : Nat} (hn : 0 < n) :
    (ofText (ended head ++ text)).line? (n + head.length) = (ofText text).line? n := by
  have hall : (splitLines (ended head ++ text).toList).map String.ofList =
      head.map (fun line => String.ofList (withoutReturn line.toList)) ++
        (splitLines text.toList).map String.ofList := by
    rw [String.toList_append, splitLines_ended h, List.map_append, List.map_map]
    rfl
  have hindex : n + head.length - 1 = head.length + (n - 1) := by omega
  rw [line?, line?, if_neg (by omega), if_neg (by omega), hindex, ofText, ofText, hall]
  simp [List.getElem?_append_right]

theorem isBlank_ofText_append {head : List String} (h : ∀ line ∈ head, '\n' ∉ line.toList)
    (text : String) {n : Nat} (hn : 0 < n) :
    (ofText (ended head ++ text)).isBlank (n + head.length) = (ofText text).isBlank n := by
  rw [isBlank, line?_ofText_append h text hn, isBlank]

/-! ### An empty line between others -/

/-- An empty line put in as line `n`. -/
def insertEmpty (ls : Lines) (n : Nat) : Lines :=
  ⟨(ls.all.toList.insertIdx (n - 1) "").toArray⟩

theorem line?_insertEmpty {ls : Lines} {n : Nat} (hn : 0 < n) (hsize : n - 1 ≤ ls.size) (m : Nat) :
    (ls.insertEmpty n).line? m =
      if m < n then ls.line? m else if m = n then some "" else ls.line? (m - 1) := by
  have hsize' : n - 1 ≤ ls.all.toList.length := by simpa [size] using hsize
  by_cases hm : m = 0
  · subst hm
    rw [if_pos hn]
    rfl
  · rw [line?, if_neg hm, insertEmpty, List.getElem?_toArray, List.getElem?_insertIdx]
    rcases Nat.lt_trichotomy m n with h | rfl | h
    · rw [if_pos (by omega), if_pos h, line?, if_neg hm, Array.getElem?_toList]
    · rw [if_neg (Nat.lt_irrefl _), if_pos rfl, if_pos hsize', if_neg (Nat.lt_irrefl _), if_pos rfl]
    · rw [if_neg (by omega), if_neg (by omega), if_neg (by omega), if_neg (by omega), line?,
        if_neg (by omega), Array.getElem?_toList]

theorem isBlank_insertEmpty_of_lt {ls : Lines} {n m : Nat} (hsize : n - 1 ≤ ls.size) (hm : m < n) :
    (ls.insertEmpty n).isBlank m = ls.isBlank m := by
  rw [isBlank, line?_insertEmpty (by omega) hsize, if_pos hm, isBlank]

theorem isBlank_insertEmpty_self {ls : Lines} {n : Nat} (hn : 0 < n) (hsize : n - 1 ≤ ls.size) :
    (ls.insertEmpty n).isBlank n = true := by
  rw [isBlank, line?_insertEmpty hn hsize]
  simp

theorem isBlank_insertEmpty_succ {ls : Lines} {n m : Nat} (hn : 0 < n) (hsize : n - 1 ≤ ls.size)
    (hm : n ≤ m) : (ls.insertEmpty n).isBlank (m + 1) = ls.isBlank m := by
  rw [isBlank, line?_insertEmpty hn hsize, if_neg (by omega), if_neg (by omega), isBlank]
  rfl

end Lines

end BlankLines.Text
