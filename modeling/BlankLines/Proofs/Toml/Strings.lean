import BlankLines.Toml.Scalar
import BlankLines.Toml.Writer

/-!
# Proofs — Toml — strings that are read back

A string is written in one of four forms, whichever is the plainest that can hold it.  Each form is
read by a reader of its own, which finds the closing quotes where the writer put them.

* `escaped_cases`: a character between double quotes stands for itself or is escaped.
* `basic_basicBody`, `longBasic_basicBody`: the forms in double quotes hold every string.
* `literal_append`, `longLiteral_append`: the forms in single quotes hold the strings that they are
  chosen for.
* `textChars_writeText`: a written string is read back, if no quote follows it.
-/

namespace BlankLines.Toml

variable {c : Char} {s rest : List Char}

/-! ### Characters -/

/-- What stands for a character between double quotes: the character itself or an escape. -/
inductive Spells (long : Bool) (c : Char) : List Char → Prop where
  | plain (hq : c ≠ '"') (hb : c ≠ '\\') (hr : c ≠ '\r')
      (hp : isPlain c = true ∨ long = true ∧ c = '\n') : Spells long c [c]
  | escape {d : Char} {more : List Char} (hd : d ∉ [' ', '\t', '\n', '\r'])
      (h : ∀ rest, escape d (more ++ rest) = some (c, rest)) : Spells long c ('\\' :: d :: more)

theorem isPlain_of_not_isControl (h : isControl c = false) (hn : c ≠ '\n') : isPlain c = true := by
  simp only [isControl, Bool.or_eq_false_iff, Bool.and_eq_false_iff, decide_eq_false_iff_not,
    Nat.not_lt, ne_eq, Decidable.not_not, isPlain, Bool.or_eq_true, decide_eq_true_eq,
    Bool.and_eq_true] at h ⊢
  obtain ⟨(h | h) | h, hdel⟩ := h
  · exact .inr ⟨h, hdel⟩
  · exact .inl h
  · exact absurd h hn

/-- Two digits in upper case give a number below 128 back. -/
theorem numbered_upperDigits : ∀ n < 0x80,
    (['0', '0', upperDigit (n / 16), upperDigit (n % 16)].all isHex = true) ∧
      numberOf 16 ['0', '0', upperDigit (n / 16), upperDigit (n % 16)] = n := by
  decide +kernel

theorem numbered_append {digits : List Char} (hhex : digits.all isHex = true)
    (hsmall : numberOf 16 digits < 0xD800) (rest : List Char) :
    numbered digits.length (digits ++ rest) = some (Char.ofNat (numberOf 16 digits), rest) := by
  simp only [numbered, List.take_left, List.drop_left, hhex, hsmall]
  simp

theorem escape_control (h : isControl c = true) (rest : List Char) :
    escape 'u' (['0', '0', upperDigit (c.toNat / 16), upperDigit (c.toNat % 16)] ++ rest) =
      some (c, rest) := by
  have hn : c.toNat < 0x80 := by
    simp only [isControl, Bool.or_eq_true, Bool.and_eq_true, decide_eq_true_eq] at h
    omega
  obtain ⟨hhex, hvalue⟩ := numbered_upperDigits c.toNat hn
  have hread := numbered_append hhex (by omega) rest
  rw [hvalue, Char.ofNat_toNat] at hread
  exact hread

/-- A character that is not a quote is written as itself or as an escape. -/
theorem spells_escaped (long : Bool) (hq : c ≠ '"') : Spells long c (escaped long c) := by
  unfold escaped
  split
  next => exact .escape (by decide) fun _ => rfl
  next => exact .escape (by decide) fun _ => rfl
  next =>
    cases long with
    | true => exact .plain (by decide) (by decide) (by decide) (.inr ⟨rfl, rfl⟩)
    | false => exact .escape (by decide) fun _ => rfl
  next => exact .escape (by decide) fun _ => rfl
  next => exact .escape (by decide) fun _ => rfl
  next => exact .escape (by decide) fun _ => rfl
  next hb ht hn hf hr hs =>
    split
    next hc => exact .escape (by decide) fun rest => escape_control hc rest
    next hc =>
      exact .plain hq hs hr (.inl (isPlain_of_not_isControl (by simpa using hc) hn))

/-! ### Double quotes on one line -/

theorem basic_escape {d : Char} {left : List Char} (h : escape d rest = some (c, left)) :
    basic ('\\' :: d :: rest) = (basic left).map (cons c) := by
  rw [basic]
  split
  next h' => rw [h] at h'; cases h'
  next h' => rw [h] at h'; cases h'; rfl

theorem basic_plain (hq : c ≠ '"') (hb : c ≠ '\\') (hp : isPlain c = true) (rest : List Char) :
    basic (c :: rest) = (basic rest).map (cons c) := by
  rw [basic]
  · rw [if_pos hp]
  · exact hq
  · exact fun h => absurd h hb
  · exact fun _ _ h => absurd h hb

theorem basic_of_spells {text : List Char} (h : Spells false c text) (rest : List Char) :
    basic (text ++ rest) = (basic rest).map (cons c) := by
  cases h with
  | plain hq hb _ hp => exact basic_plain hq hb (hp.resolve_right nofun) rest
  | escape _ h => exact basic_escape (h rest)

/-- **Every string is read back from double quotes on one line.** -/
theorem basic_basicBody (run : Nat) (s rest : List Char) :
    basic (basicBody false 0 run s ++ '"' :: rest) = some (s, rest) := by
  induction s generalizing run with
  | nil => simp [basicBody, basic]
  | cons c s ih =>
      rw [basicBody]
      split
      next hq =>
        rw [if_pos (Nat.zero_le run), List.cons_append, List.cons_append, hq,
          basic_escape (c := '"') rfl, ih]
        rfl
      next hq =>
        rw [List.append_assoc, basic_of_spells (spells_escaped false hq), ih]
        rfl

/-! ### Single quotes on one line -/

theorem literal_append (h : ∀ c ∈ s, isPlain c = true ∧ c ≠ '\x27') (rest : List Char) :
    literal (s ++ '\x27' :: rest) = some (s, rest) := by
  induction s with
  | nil => simp [literal]
  | cons c s ih =>
      rw [List.forall_mem_cons] at h
      rw [List.cons_append, literal, if_neg h.1.2, if_pos h.1.1, ih h.2]
      rfl

/-! ### Double quotes over several lines -/

/-- No quote that belongs to a string comes next. -/
def NoQuote (quote : Char) (rest : List Char) : Prop :=
  rest.head? ≠ some quote

theorem lateQuotes_of_noQuote {quote : Char} (h : NoQuote quote rest) :
    lateQuotes quote rest = ([], rest) := by
  unfold lateQuotes
  split
  next a b rest =>
    have ha : a ≠ quote := fun ha => h (congrArg some ha)
    rw [if_neg ha]
  next a =>
    have ha : a ≠ quote := fun ha => h (congrArg some ha)
    rw [if_neg ha]
  next => rfl

/-- Up to two quotes before the closing ones belong to the string. -/
theorem lateQuotes_replicate {quote : Char} (h : NoQuote quote rest) {n : Nat} (hn : n ≤ 2) :
    lateQuotes quote (List.replicate n quote ++ rest) = (List.replicate n quote, rest) := by
  obtain rfl | rfl | rfl : n = 0 ∨ n = 1 ∨ n = 2 := by omega
  · exact lateQuotes_of_noQuote h
  · cases rest with
    | nil => simp [lateQuotes]
    | cons b rest =>
        have hb : b ≠ quote := fun hb => h (congrArg some hb)
        simp [lateQuotes, hb]
  · simp [lateQuotes]

theorem longBasic_closed (rest : List Char) :
    longBasic ('"' :: '"' :: '"' :: rest) = some (lateQuotes '"' rest) := by
  rw [longBasic]

theorem longBasic_plain (hb : c ≠ '\\') (hr : c ≠ '\r') (hp : isPlain c = true ∨ c = '\n')
    (h : c = '"' → ∀ more, rest ≠ '"' :: '"' :: more) :
    longBasic (c :: rest) = (longBasic rest).map (cons c) := by
  rw [longBasic]
  · rw [if_pos (by simpa using hp)]
  · exact fun more hc hrest => h hc more hrest
  · exact fun hc => absurd hc hb
  · exact fun _ hc => absurd hc hr

theorem escapedBreak?_eq_none {d : Char} (hd : d ∉ [' ', '\t', '\n', '\r']) (rest : List Char) :
    escapedBreak? (d :: rest) = none := by
  simp only [List.mem_cons, List.not_mem_nil, or_false, not_or] at hd
  obtain ⟨hs, ht, hn, hr⟩ := hd
  unfold escapedBreak?
  rw [List.dropWhile_cons_of_neg (by simp [hs, ht])]
  split
  next h => exact absurd (List.cons.inj h).1 hn
  next h => exact absurd (List.cons.inj h).1 hr
  next => rfl

theorem longBasic_escape {d : Char} {left : List Char} (hd : d ∉ [' ', '\t', '\n', '\r'])
    (h : escape d rest = some (c, left)) :
    longBasic ('\\' :: d :: rest) = (longBasic left).map (cons c) := by
  rw [longBasic]
  split
  next h' => rw [escapedBreak?_eq_none hd] at h'; cases h'
  next =>
    simp only
    split
    next h' => rw [h] at h'; cases h'
    next h' => rw [h] at h'; cases h'; rfl

theorem longBasic_of_spells {text : List Char} (h : Spells true c text) (rest : List Char) :
    longBasic (text ++ rest) = (longBasic rest).map (cons c) := by
  cases h with
  | plain hq hb hr hp =>
      exact longBasic_plain hb hr (hp.imp_right And.right) fun hc => absurd hc hq
  | escape hd h => exact longBasic_escape hd (h rest)

/-- After as many quotes in a row as are allowed, or before any other character, no quote stands as
it is. -/
theorem noQuote_basicBody {long : Bool} {allowed run : Nat} (h : allowed ≤ run ∨ c ≠ '"')
    (s rest : List Char) : NoQuote '"' (basicBody long allowed run (c :: s) ++ rest) := by
  rw [basicBody]
  split
  next hq =>
    rw [if_pos (h.resolve_right fun hne => hne hq)]
    exact nofun
  next hq =>
    have hspells := spells_escaped long hq
    generalize escaped long c = text at hspells ⊢
    cases hspells with
    | plain => exact fun hhead => hq (Option.some.inj hhead)
    | escape => exact nofun

/-- Two quotes stand in a row behind a quote only if they are the last of the string. -/
theorem basicBody_ne_quotes {run : Nat} (hrun : 1 ≤ run) (hs : s ≠ [])
    (hlast : ¬ (run = 1 ∧ s = ['"'])) (rest more : List Char) :
    basicBody true 2 run s ++ rest ≠ '"' :: '"' :: more := by
  intro h
  obtain ⟨c, s, rfl⟩ := List.exists_cons_of_ne_nil hs
  by_cases hc : 2 ≤ run ∨ c ≠ '"'
  · exact noQuote_basicBody hc s rest (by rw [h]; rfl)
  · obtain ⟨hlt, hq⟩ := not_or.1 hc
    obtain rfl : c = '"' := Decidable.not_not.1 hq
    obtain rfl : run = 1 := by omega
    -- the first of the two is the second in a row, so the next is no quote as it stands
    rw [basicBody, if_pos rfl, if_neg hlt, List.cons_append] at h
    have hne : s ≠ [] := fun hs => hlast ⟨rfl, by rw [hs]⟩
    obtain ⟨d, s, rfl⟩ := List.exists_cons_of_ne_nil hne
    exact noQuote_basicBody (.inl (Nat.le_refl 2)) s rest (by rw [(List.cons.inj h).2]; rfl)

/-- **Every string is read back from double quotes over several lines**: quotes inside never make
three in a row, but up to two may stand before the closing ones. -/
theorem longBasic_basicBody (hrest : NoQuote '"' rest) (run : Nat) (s : List Char) :
    longBasic (basicBody true 2 run s ++ '"' :: '"' :: '"' :: rest) = some (s, rest) := by
  induction s generalizing run with
  | nil => rw [basicBody, List.nil_append, longBasic_closed, lateQuotes_of_noQuote hrest]
  | cons c s ih =>
      by_cases hq : c = '"'
      · subst hq
        rw [basicBody, if_pos rfl]
        split
        next =>
          simp only [List.cons_append]
          rw [longBasic_escape (c := '"') (by decide) rfl, ih]
          rfl
        next hrun =>
          rw [List.cons_append]
          by_cases hend : s = []
          · subst hend
            rw [basicBody, List.nil_append, longBasic_closed]
            exact congrArg some (lateQuotes_replicate hrest (n := 1) (by decide))
          · by_cases hlast : run = 0 ∧ s = ['"']
            · obtain ⟨rfl, rfl⟩ := hlast
              simp only [basicBody, if_true]
              exact (longBasic_closed _).trans
                (congrArg some (lateQuotes_replicate hrest (n := 2) (by decide)))
            · rw [longBasic_plain (by decide) (by decide) (.inl (by decide)), ih]
              · rfl
              · exact fun _ more => basicBody_ne_quotes (Nat.le_add_left 1 run) hend
                  (fun h => hlast ⟨by omega, h.2⟩) _ more
      · rw [basicBody, if_neg hq, List.append_assoc, longBasic_of_spells (spells_escaped true hq),
          ih]
        rfl

/-! ### Single quotes over several lines -/

theorem le_longestRun (q : Char) (run : Nat) (s : List Char) : run ≤ longestRun q run s := by
  induction s generalizing run with
  | nil => exact Nat.le_refl run
  | cons c s ih =>
      rw [longestRun]
      split
      · exact Nat.le_of_succ_le (ih (run + 1))
      · exact Nat.le_max_left _ _

theorem longestRun_mono {q : Char} {run run' : Nat} (h : run ≤ run') (s : List Char) :
    longestRun q run s ≤ longestRun q run' s := by
  induction s generalizing run run' with
  | nil => exact h
  | cons c s ih =>
      rw [longestRun, longestRun]
      split
      · exact ih (Nat.succ_le_succ h)
      · omega

/-- What is left after a character has no longer run. -/
theorem longestRun_tail {q : Char} {n : Nat} (h : longestRun q 0 (c :: s) ≤ n) :
    longestRun q 0 s ≤ n := by
  rw [longestRun] at h
  split at h
  · exact Nat.le_trans (longestRun_mono (Nat.zero_le _) s) h
  · exact Nat.le_trans (Nat.le_max_right _ _) h

theorem not_mem_of_longestRun {q : Char} (h : longestRun q 0 s = 0) : q ∉ s := by
  induction s with
  | nil => exact nofun
  | cons c s ih =>
      have htail := ih (Nat.le_zero.1 (longestRun_tail (Nat.le_of_eq h)))
      rw [longestRun] at h
      split at h
      next => have := le_longestRun q (0 + 1) s; omega
      next hc => exact List.not_mem_cons_of_ne_of_not_mem (Ne.symm hc) htail

theorem ne_three_of_longestRun {q : Char} (h : longestRun q 0 s ≤ 2) (more : List Char) :
    s ≠ q :: q :: q :: more := by
  rintro rfl
  have hrun : 3 ≤ longestRun q 0 (q :: q :: q :: more) := by
    simpa [longestRun] using le_longestRun q 3 more
  omega

theorem longLiteral_closed (rest : List Char) :
    longLiteral ('\x27' :: '\x27' :: '\x27' :: rest) = some (lateQuotes '\x27' rest) := by
  rw [longLiteral]

theorem longLiteral_plain (hr : c ≠ '\r') (hp : isPlain c = true ∨ c = '\n')
    (h : c = '\x27' → ∀ more, rest ≠ '\x27' :: '\x27' :: more) :
    longLiteral (c :: rest) = (longLiteral rest).map (cons c) := by
  rw [longLiteral]
  · rw [if_pos (by simpa using hp)]
  · exact fun more hc hrest => h hc more hrest
  · exact fun _ hc => absurd hc hr

theorem longLiteral_append (hrest : NoQuote '\x27' rest)
    (h : ∀ c ∈ s, c ≠ '\r' ∧ (isPlain c = true ∨ c = '\n')) (hrun : longestRun '\x27' 0 s ≤ 2) :
    longLiteral (s ++ '\x27' :: '\x27' :: '\x27' :: rest) = some (s, rest) := by
  induction s with
  | nil => rw [List.nil_append, longLiteral_closed, lateQuotes_of_noQuote hrest]
  | cons c s ih =>
      rw [List.forall_mem_cons] at h
      by_cases hend : c = '\x27' ∧ (s = [] ∨ s = ['\x27'])
      · -- the last quotes stand right before the closing ones
        obtain ⟨rfl, rfl | rfl⟩ := hend
        · exact (longLiteral_closed _).trans
            (congrArg some (lateQuotes_replicate hrest (n := 1) (by decide)))
        · exact (longLiteral_closed _).trans
            (congrArg some (lateQuotes_replicate hrest (n := 2) (by decide)))
      · rw [List.cons_append, longLiteral_plain h.1.1 h.1.2, ih h.2 (longestRun_tail hrun)]
        · rfl
        · rintro rfl more hmore
          rcases s with _ | ⟨a, _ | ⟨b, s⟩⟩
          · exact hend ⟨rfl, .inl rfl⟩
          · obtain ⟨rfl, -⟩ := List.cons.inj hmore
            exact hend ⟨rfl, .inr rfl⟩
          · obtain ⟨rfl, hb⟩ := List.cons.inj hmore
            obtain ⟨rfl, -⟩ := List.cons.inj hb
            exact ne_three_of_longestRun hrun s rfl

/-! ### The four forms -/

/-- Whether a form can hold a string; those in double quotes hold every string. -/
def Quotes.Holds (form : Quotes) (s : List Char) : Prop :=
  match form with
  | .basic       => True
  | .literal     => ∀ c ∈ s, isPlain c = true ∧ c ≠ '\x27'
  | .longBasic   => True
  | .longLiteral => (∀ c ∈ s, c ≠ '\r' ∧ (isPlain c = true ∨ c = '\n')) ∧ longestRun '\x27' 0 s ≤ 2

theorem isPlain_of_any_isControl (h : s.any isControl = false) :
    ∀ c ∈ s, c ≠ '\r' ∧ (isPlain c = true ∨ c = '\n') := by
  intro c hc
  have hcontrol : isControl c = false := by simpa using List.any_eq_false.1 h c hc
  refine ⟨?_, ?_⟩
  · rintro rfl
    cases hcontrol
  · by_cases hn : c = '\n'
    · exact .inr hn
    · exact .inl (isPlain_of_not_isControl hcontrol hn)

/-- **A string takes a form that can hold it.** -/
theorem holds_quotesFor (s : List Char) : (quotesFor s).Holds s := by
  unfold quotesFor
  simp only
  split
  · exact trivial
  split
  next h =>
    simp only [Bool.and_eq_true, Bool.not_eq_true', decide_eq_true_eq] at h
    obtain ⟨⟨hcontrols, hsingles⟩, hnewline⟩ := h
    intro c hc
    refine ⟨(isPlain_of_any_isControl hcontrols c hc).2.resolve_right ?_, ?_⟩
    · rintro rfl
      simp [hc] at hnewline
    · rintro rfl
      exact not_mem_of_longestRun hsingles hc
  split
  · exact trivial
  split
  next h =>
    simp only [Bool.and_eq_true, Bool.not_eq_true', decide_eq_true_eq] at h
    exact ⟨isPlain_of_any_isControl h.1, h.2⟩
  split <;> exact trivial

/-- What starts a string over several lines is dropped by the reader, and nothing else. -/
theorem dropBreak_start (text : List Char)
    (h : s.contains '\n' = false → ∀ c ∈ text.head?, c ≠ '\n' ∧ c ≠ '\r') :
    dropBreak ((if s.contains '\n' then ['\n'] else []) ++ text) = text := by
  split
  next => rfl
  next hs =>
    have hhead := h (by simpa using hs)
    rw [List.nil_append]
    unfold dropBreak
    split
    next => exact absurd rfl (hhead '\n' rfl).1
    next => exact absurd rfl (hhead '\r' rfl).2
    next => rfl

/-- Text of the long form in double quotes starts with a line break only if the string does. -/
theorem head?_basicBody (h : s.contains '\n' = false) (rest : List Char) :
    ∀ c ∈ (basicBody true 2 0 s ++ '"' :: rest).head?, c ≠ '\n' ∧ c ≠ '\r' := by
  cases s with
  | nil =>
      rintro _ ⟨⟩
      decide
  | cons c s =>
      have hn : c ≠ '\n' := by
        rintro rfl
        simp at h
      rw [basicBody]
      split
      next =>
        rintro _ ⟨⟩
        decide
      next hq =>
        have hspells := spells_escaped true hq
        generalize escaped true c = text at hspells ⊢
        cases hspells with
        | plain _ _ hr =>
            rintro _ ⟨⟩
            exact ⟨hn, hr⟩
        | escape =>
            rintro _ ⟨⟩
            decide

theorem textChars_short {quote : Char} {text : List Char} (hq : quote ∈ ['"', '\x27'])
    (h : ∀ more, text ≠ quote :: quote :: more) :
    textChars (quote :: text) = shortText (quote :: text) := by
  unfold textChars
  split
  next heq =>
    obtain ⟨rfl, htext⟩ := List.cons.inj heq
    exact absurd htext (h _)
  next heq =>
    obtain ⟨rfl, htext⟩ := List.cons.inj heq
    exact absurd htext (h _)
  next => rfl

/-- No quote comes next, of either kind. -/
def EndsText (rest : List Char) : Prop :=
  NoQuote '"' rest ∧ NoQuote '\x27' rest

theorem textChars_writeAs {form : Quotes} (h : form.Holds s) (hrest : EndsText rest) :
    textChars (writeAs form s ++ rest) = some (s, rest) := by
  cases form with
  | basic =>
      have hshort : ∀ more, basicBody false 0 0 s ++ '"' :: rest ≠ '"' :: '"' :: more := by
        intro more hmore
        cases s with
        | nil => exact hrest.1 (by rw [(List.cons.inj hmore).2]; rfl)
        | cons c s =>
            exact noQuote_basicBody (.inl (Nat.le_refl 0)) s ('"' :: rest) (by rw [hmore]; rfl)
      rw [writeAs, List.cons_append, List.cons_append, List.append_assoc, List.singleton_append,
        textChars_short List.mem_cons_self hshort]
      exact basic_basicBody 0 s rest
  | literal =>
      have hshort : ∀ more, s ++ '\x27' :: rest ≠ '\x27' :: '\x27' :: more := by
        intro more hmore
        cases s with
        | nil => exact hrest.2 (by rw [(List.cons.inj hmore).2]; rfl)
        | cons c s => exact (h c List.mem_cons_self).2 (List.cons.inj hmore).1
      rw [writeAs, List.cons_append, List.cons_append, List.append_assoc, List.singleton_append,
        textChars_short (List.mem_cons_of_mem _ List.mem_cons_self) hshort]
      exact literal_append h rest
  | longBasic =>
      have hdrop := dropBreak_start (s := s) _ fun hs => head?_basicBody hs ('"' :: '"' :: rest)
      have hread := longBasic_basicBody hrest.1 0 s
      rw [← hdrop] at hread
      simp only [writeAs, List.append_assoc]
      exact hread
  | longLiteral =>
      have hdrop := dropBreak_start (s := s) (s ++ '\x27' :: '\x27' :: '\x27' :: rest)
        fun hs c hc => by
          cases s with
          | nil =>
              cases hc
              decide
          | cons d s =>
              cases hc
              exact ⟨by rintro rfl; simp at hs, (h.1 c List.mem_cons_self).1⟩
      have hread := longLiteral_append hrest.2 h.1 h.2
      rw [← hdrop] at hread
      simp only [writeAs, List.append_assoc]
      exact hread

/-- **A written string is read back**, if no quote follows it. -/
theorem textChars_writeText (s : String) (hrest : EndsText rest) :
    textChars (writeText s ++ rest) = some (s.toList, rest) :=
  textChars_writeAs (holds_quotesFor s.toList) hrest

end BlankLines.Toml
