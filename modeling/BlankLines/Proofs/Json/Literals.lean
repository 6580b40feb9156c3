import BlankLines.Json.Node
import BlankLines.Proofs.Json.Grammar

/-!
# Proofs — Json — reading strings and numbers

The reader makes of a string or of a number of the grammar the string or number it stands for, and
stops right behind it.

* `chars_of_characters`, `skipChars_of_characters`, `key_read_of_quoted`: a string up to its closing
  quote, whether its characters are asked for or not.
* `read_of_number`: a number, in front of anything that does not prolong it.
* `value_digits`: the value of written digits, if a word holds it.
-/

namespace BlankLines.Json

/-! ### Strings -/

theorem escape_short {letter c : Char} (h : shortEscape? letter = some c) (rest : List Char) :
    escape (letter :: rest) = .ok (c, rest) := by
  unfold escape
  split
  next h' => cases h'
  next h' => cases h'; cases h
  next h' => cases h'; rw [h]

theorem escape_unit {w x y z : Char} {n : Nat} (hu : unit? w x y z = some n)
    (hl : isLeading n = false) (ht : isTrailing n = false) (rest : List Char) :
    escape ('u' :: w :: x :: y :: z :: rest) = .ok (Char.ofNat n, rest) := by
  simp [escape, unit, hu, hl, ht, bind, Except.bind, pure, Except.pure]

theorem isTrailing_of_isLeading {n : Nat} (h : isLeading n = true) : isTrailing n = false := by
  simp only [isLeading, isTrailing, Bool.and_eq_true, Bool.and_eq_false_iff, decide_eq_true_eq,
    decide_eq_false_iff_not] at h ⊢
  omega

theorem escape_pair {w x y z w' x' y' z' : Char} {high low : Nat}
    (hu : unit? w x y z = some high) (hl : isLeading high = true)
    (hu' : unit? w' x' y' z' = some low) (ht : isTrailing low = true) (rest : List Char) :
    escape ('u' :: w :: x :: y :: z :: '\\' :: 'u' :: w' :: x' :: y' :: z' :: rest) =
      .ok (Char.ofNat (0x10000 + 0x400 * (high - 0xD800) + (low - 0xDC00)), rest) := by
  simp [escape, unit, surrogatePair, hu, hl, isTrailing_of_isLeading hl, hu', ht, bind,
    Except.bind, pure, Except.pure]

variable {cs text rest : List Char}

theorem chars_backslash {left : List Char} {c : Char} (h : escape rest = .ok (c, left)) :
    chars ('\\' :: rest) = (chars left).map fun (cs, after) => (c :: cs, after) := by
  rw [chars]
  split
  next h' => rw [h] at h'; cases h'
  next h' => rw [h] at h'; cases h'; rfl

theorem chars_plain {c : Char} (hq : c ≠ '"') (hb : c ≠ '\\') (hc : ¬ c < ' ')
    (rest : List Char) :
    chars (c :: rest) = (chars rest).map fun (cs, after) => (c :: cs, after) := by
  rw [chars]
  · rw [if_neg hc]
  · exact hq
  · exact hb

/-- The inside of a string is read as its characters, up to the closing quote. -/
theorem chars_of_characters (h : Grammar.Characters cs text) (rest : List Char) :
    chars (text ++ '"' :: rest) = .ok (cs, rest) := by
  induction h with
  | nil => simp [chars]
  | plain hq hb hc _ ih =>
      rw [List.cons_append, chars_plain hq hb (Std.not_lt.mpr hc), ih]
      rfl
  | short hl _ ih =>
      simp only [List.cons_append]
      rw [chars_backslash (escape_short hl _), ih]
      rfl
  | unit hu hl ht _ ih =>
      simp only [List.cons_append]
      rw [chars_backslash (escape_unit hu hl ht _), ih]
      rfl
  | pair hu hl hu' ht _ ih =>
      simp only [List.cons_append]
      rw [chars_backslash (escape_pair hu hl hu' ht _), ih]
      rfl

theorem skipChars_backslash {c : Char} (hu : c ≠ 'u') (h : (shortEscape? c).isSome = true)
    (rest : List Char) : skipChars ('\\' :: c :: rest) = skipChars rest := by
  rw [skipChars]
  · rw [if_pos h]
  · exact hu

theorem skipChars_unit {left : List Char} {n : Nat} (h : unit rest = .ok (n, left)) :
    skipChars ('\\' :: 'u' :: rest) = skipChars left := by
  rw [skipChars]
  split
  next h' => rw [h] at h'; cases h'
  next h' => rw [h] at h'; cases h'; rfl

theorem skipChars_plain {c : Char} (hq : c ≠ '"') (hb : c ≠ '\\') (hc : ¬ c < ' ')
    (rest : List Char) : skipChars (c :: rest) = skipChars rest := by
  rw [skipChars]
  · rw [if_neg hc]
  · exact hq
  · exact fun h => absurd h hb
  · exact fun _ h => absurd h hb
  · exact fun _ _ h => absurd h hb

theorem ne_u_of_shortEscape? {letter c : Char} (h : shortEscape? letter = some c) :
    letter ≠ 'u' := by
  rintro rfl
  cases h

theorem unit_eq {w x y z : Char} {n : Nat} (h : unit? w x y z = some n) (rest : List Char) :
    unit (w :: x :: y :: z :: rest) = .ok (n, rest) := by
  rw [unit, h]

/-- The inside of a string is passed over up to the closing quote. -/
theorem skipChars_of_characters (h : Grammar.Characters cs text) (rest : List Char) :
    skipChars (text ++ '"' :: rest) = .ok rest := by
  induction h with
  | nil => simp [skipChars]
  | plain hq hb hc _ ih =>
      rw [List.cons_append, skipChars_plain hq hb (Std.not_lt.mpr hc), ih]
  | short hl _ ih =>
      simp only [List.cons_append]
      rw [skipChars_backslash (ne_u_of_shortEscape? hl) (by rw [hl]; rfl), ih]
  | unit hu hl ht _ ih =>
      simp only [List.cons_append]
      rw [skipChars_unit (unit_eq hu _), ih]
  | pair hu hl hu' ht _ ih =>
      simp only [List.cons_append]
      rw [skipChars_unit (unit_eq hu _), skipChars_unit (unit_eq hu' _), ih]

/-- A quoted string starts with a quote, behind which it is read as a name that can be passed
over. -/
theorem key_read_of_quoted {s : String} (h : Grammar.Quoted s text) :
    ∃ inner, text = '"' :: inner ∧ ∀ rest, Key.read (inner ++ rest) = ⟨.ok s, none, rest⟩ := by
  cases h with
  | @intro cs inner h =>
      refine ⟨inner ++ ['"'], rfl, fun rest => ?_⟩
      rw [List.append_assoc, List.singleton_append]
      simp [Key.read, chars_of_characters h, skipChars_of_characters h, Except.map]

/-! ### Numbers -/

/-- No number goes on with what follows. -/
def EndsNumeral (rest : List Char) : Prop :=
  ∀ c ∈ rest.head?, c.isDigit = false ∧ c ≠ '.' ∧ c ≠ 'e' ∧ c ≠ 'E'

theorem endsNumeral_nil : EndsNumeral [] := by
  rintro _ ⟨⟩

theorem endsNumeral_cons {c : Char} (h : c ∈ [',', ']', '\x7d', '\n']) (rest : List Char) :
    EndsNumeral (c :: rest) := by
  rintro _ ⟨⟩
  simp only [List.mem_cons, List.not_mem_nil, or_false] at h
  rcases h with rfl | rfl | rfl | rfl <;> exact ⟨rfl, by decide, by decide, by decide⟩

/-- No run of digits goes on with what follows. -/
def EndsDigits (rest : List Char) : Prop :=
  ∀ c ∈ rest.head?, c.isDigit = false

theorem EndsNumeral.endsDigits (h : EndsNumeral rest) : EndsDigits rest :=
  fun c hc => (h c hc).1

theorem EndsDigits.of_cons {c : Char} (hc : c.isDigit = false) (rest : List Char) :
    EndsDigits (c :: rest) := by
  rintro _ ⟨⟩
  exact hc

theorem takeWhile_isDigit_append {ds : List Char} (hd : ∀ c ∈ ds, c.isDigit = true)
    (hr : EndsDigits rest) :
    (ds ++ rest).takeWhile Char.isDigit = ds ∧ (ds ++ rest).dropWhile Char.isDigit = rest := by
  rw [List.takeWhile_append_of_pos hd, List.dropWhile_append_of_pos hd]
  cases rest with
  | nil => simp
  | cons c rest =>
      have hc : c.isDigit = false := hr c rfl
      simp [hc]

theorem digits_of_digits {ds : List Char} (h : Grammar.Digits ds) (hr : EndsDigits rest) :
    Numeral.digits (ds ++ rest) = .ok (ds, rest) := by
  obtain ⟨ht, hd⟩ := takeWhile_isDigit_append h.2 hr
  rw [Numeral.digits, ht, hd, if_neg (by simpa using h.1)]

theorem wholeDigits_of_whole {ds : List Char} (h : Grammar.Whole ds) (hr : EndsDigits rest) :
    Numeral.wholeDigits (ds ++ rest) = .ok (ds, rest) := by
  obtain ⟨d, ds, rfl⟩ := List.exists_cons_of_ne_nil h.1.1
  by_cases hz : d = '0'
  · -- a zero in front is all, and no digit follows it
    subst hz
    obtain ⟨-, rfl⟩ := List.cons.inj (h.2 rfl)
    have ht : rest.takeWhile Char.isDigit = [] :=
      (takeWhile_isDigit_append (List.forall_mem_nil _) hr).1
    simp [Numeral.wholeDigits, ht]
  · rw [← digits_of_digits h.1 hr, List.cons_append]
    unfold Numeral.wholeDigits
    split
    next h' => exact absurd (List.cons.inj h').1 hz
    next => rfl

theorem fractionDigits_of_fraction {ds : List Char} (h : Grammar.Fraction ds text)
    (hr : EndsDigits rest) (hp : rest.head? ≠ some '.') :
    Numeral.fractionDigits (text ++ rest) = .ok (ds, rest) := by
  cases h with
  | none =>
      rw [List.nil_append]
      unfold Numeral.fractionDigits
      split
      next => exact absurd rfl hp
      next => rfl
  | some h => exact digits_of_digits h hr

theorem exponentPart_of_exponent {e : Option (Bool × List Char)} (h : Grammar.Exponent e text)
    (hr : EndsNumeral rest) : Numeral.exponentPart (text ++ rest) = .ok (e, rest) := by
  cases h with
  | none =>
      rw [List.nil_append]
      unfold Numeral.exponentPart
      split
      next => exact absurd rfl (hr 'e' rfl).2.2.1
      next => exact absurd rfl (hr 'E' rfl).2.2.2
      next => rfl
  | @some _ _ _ ds he hs hd =>
      have hdigits := digits_of_digits hd hr.endsDigits
      -- digits without a sign are told from a sign by their first
      obtain ⟨d, ds, rfl⟩ := List.exists_cons_of_ne_nil hd.1
      have hfirst : d.isDigit = true := hd.2 d List.mem_cons_self
      have hplus : d ≠ '+' := by rintro rfl; cases hfirst
      have hminus : d ≠ '-' := by rintro rfl; cases hfirst
      rw [List.cons_append] at hdigits
      rcases he with rfl | rfl <;> cases hs <;>
        simp [Numeral.exponentPart, hdigits, hplus, hminus, Except.map]

/-! What stands behind the digits of a number does not prolong them. -/

theorem endsDigits_exponent {e : Option (Bool × List Char)} (h : Grammar.Exponent e text)
    (hr : EndsNumeral rest) : EndsDigits (text ++ rest) ∧ (text ++ rest).head? ≠ some '.' := by
  cases h with
  | none => exact ⟨hr.endsDigits, fun hp => (hr '.' hp).2.1 rfl⟩
  | some he hs hd =>
      rcases he with rfl | rfl <;> exact ⟨.of_cons rfl _, by simp⟩

theorem endsDigits_fraction {ds : List Char} (h : Grammar.Fraction ds text)
    (hr : EndsDigits rest) : EndsDigits (text ++ rest) := by
  cases h with
  | none => exact hr
  | some => exact .of_cons rfl _

theorem readUnsigned_of_parts {whole fraction ft et : List Char}
    {exponent : Option (Bool × List Char)} (hw : Grammar.Whole whole)
    (hf : Grammar.Fraction fraction ft) (he : Grammar.Exponent exponent et) (hr : EndsNumeral rest)
    (minus : Bool) :
    Numeral.readUnsigned minus (whole ++ ft ++ et ++ rest) =
      .ok (⟨minus, whole, fraction, exponent⟩, rest) := by
  obtain ⟨hed, hep⟩ := endsDigits_exponent he hr
  have hwhole := wholeDigits_of_whole hw (endsDigits_fraction hf hed)
  have hfraction := fractionDigits_of_fraction hf hed hep
  have hexponent := exponentPart_of_exponent he hr
  simp only [List.append_assoc]
  simp [Numeral.readUnsigned, hwhole, hfraction, hexponent, bind, Except.bind, pure, Except.pure]

/-- A number starts with a digit or a minus sign. -/
theorem exists_start_of_number {n : Numeral} (h : Grammar.Number n text) :
    ∃ c cs, text = c :: cs ∧ (c = '-' ∨ c.isDigit = true) := by
  cases h with
  | @natural whole _ _ _ _ hw hf he =>
      obtain ⟨d, ds, rfl⟩ := List.exists_cons_of_ne_nil hw.1.1
      exact ⟨d, _, rfl, .inr (hw.1.2 d List.mem_cons_self)⟩
  | minus hw hf he => exact ⟨'-', _, rfl, .inl rfl⟩

/-- **A number is read**, whatever follows that does not prolong it. -/
theorem read_of_number {n : Numeral} (h : Grammar.Number n text) (hr : EndsNumeral rest) :
    Numeral.read (text ++ rest) = .ok (n, rest) := by
  cases h with
  | @natural whole fraction ft et exponent hw hf he =>
      rw [← readUnsigned_of_parts hw hf he hr false]
      obtain ⟨d, ds, rfl⟩ := List.exists_cons_of_ne_nil hw.1.1
      have hfirst : d.isDigit = true := hw.1.2 d List.mem_cons_self
      have hminus : d ≠ '-' := by rintro rfl; cases hfirst
      simp [Numeral.read, hminus]
  | minus hw hf he => exact readUnsigned_of_parts hw hf he hr true

/-! ### The value of digits -/

theorem le_ofDigitChars (ds : List Char) (init : Nat) : init ≤ Nat.ofDigitChars 10 ds init := by
  induction ds generalizing init with
  | nil => simp
  | cons d ds ih =>
      rw [Nat.ofDigitChars_cons]
      have := ih (10 * init + (d.toNat - '0'.toNat))
      omega

/-- Digits are all absorbed if their value stays within the limit. -/
theorem absorb_ofDigitChars {limit : Nat} (ds : List Char) (init : Nat)
    (h : Nat.ofDigitChars 10 ds init ≤ limit) :
    absorb limit init ds = (Nat.ofDigitChars 10 ds init, []) := by
  induction ds generalizing init with
  | nil => simp [absorb]
  | cons d ds ih =>
      rw [Nat.ofDigitChars_cons] at h ⊢
      have hle := le_ofDigitChars ds (10 * init + (d.toNat - '0'.toNat))
      rw [absorb, if_pos (by simpa [digitValue] using Nat.le_trans hle h)]
      exact ih _ h

theorem value_digits {n : Nat} (h : n < UInt64.size) (after : List Char) :
    Numeral.value ⟨false, digits n, [], none⟩ after = .ok (.natural (UInt64.ofNat n)) := by
  have hn : Nat.ofDigitChars 10 (digits n) 0 = n := Nat.ofDigitChars_ten_toDigits
  have ha : absorb Numeral.wordLimit 0 (digits n) = (n, []) := by
    rw [absorb_ofDigitChars, hn]
    rw [hn]
    exact Nat.le_of_lt_succ h
  simp [Numeral.value, ha, Numeral.integer]

end BlankLines.Json
