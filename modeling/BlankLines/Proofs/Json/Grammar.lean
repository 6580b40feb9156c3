import BlankLines.Json.Literal
import BlankLines.Json.Value

/-!
# Proofs — Json — the grammar of texts

What a JSON text is, with no reader in it: each rule says what one kind of text is put together
from, and which document it stands for.

A document keeps what a text says and forgets how it is laid out.  Strings have lost their escapes;
numbers are kept as they are spelled, since a fraction or an exponent makes a difference to readers
of words.

* `Grammar.Characters`: the inside of a string.  A surrogate escape stands for a character only
  together with its partner, so a text with one alone is not in the grammar.
* `Grammar.Number`: sign, digits, fraction and exponent.
* `Grammar.Value`, `Grammar.Element`: a value, and a value with blanks around it, which is also what
  a whole text is.
* `Grammar.value_compact`: what the writer makes of a value is in the grammar.
-/

namespace BlankLines.Json

/-- What a JSON text stands for; fields keep their order and their repetitions. -/
inductive Document where
  | null
  | bool (b : Bool)
  | number (n : Numeral)
  | text (s : String)
  | array (items : List Document)
  | object (fields : List (String × Document))

namespace Document

mutual

/-- How many arrays and objects stand inside one another. -/
def depth : Document → Nat
  | .null          => 0
  | .bool _        => 0
  | .number _      => 0
  | .text _        => 0
  | .array items   => itemsDepth items + 1
  | .object fields => fieldsDepth fields + 1

/-- The depth of the deepest item. -/
def itemsDepth : List Document → Nat
  | []        => 0
  | d :: rest => max (depth d) (itemsDepth rest)

/-- The depth of the deepest field. -/
def fieldsDepth : List (String × Document) → Nat
  | []             => 0
  | (_, d) :: rest => max (depth d) (fieldsDepth rest)

end

theorem depth_le_itemsDepth {d : Document} {ds : List Document} (h : d ∈ ds) :
    d.depth ≤ itemsDepth ds := by
  induction ds with
  | nil => cases h
  | cons e ds ih =>
      rw [itemsDepth]
      rcases List.mem_cons.mp h with rfl | h
      · exact Nat.le_max_left _ _
      · exact Nat.le_trans (ih h) (Nat.le_max_right _ _)

theorem depth_le_fieldsDepth {name : String} {d : Document} {fs : List (String × Document)}
    (h : (name, d) ∈ fs) : d.depth ≤ fieldsDepth fs := by
  induction fs with
  | nil => cases h
  | cons f fs ih =>
      rw [fieldsDepth]
      rcases List.mem_cons.mp h with rfl | h
      · exact Nat.le_max_left _ _
      · exact Nat.le_trans (ih h) (Nat.le_max_right _ _)

theorem depth_lt_of_mem_array {d : Document} {ds : List Document} (h : d ∈ ds) :
    d.depth < (Document.array ds).depth := by
  rw [depth]
  exact Nat.lt_succ_of_le (depth_le_itemsDepth h)

theorem depth_lt_of_mem_object {name : String} {d : Document} {fs : List (String × Document)}
    (h : (name, d) ∈ fs) : d.depth < (Document.object fs).depth := by
  rw [depth]
  exact Nat.lt_succ_of_le (depth_le_fieldsDepth h)

end Document

namespace Grammar

/-! ### Strings -/

/-- The inside of a string, and the characters it stands for. -/
inductive Characters : List Char → List Char → Prop where
  | nil : Characters [] []
  | plain {c : Char} {cs text : List Char} (hq : c ≠ '"') (hb : c ≠ '\\') (hc : ' ' ≤ c)
      (h : Characters cs text) : Characters (c :: cs) (c :: text)
  | short {letter c : Char} {cs text : List Char} (hl : shortEscape? letter = some c)
      (h : Characters cs text) : Characters (c :: cs) ('\\' :: letter :: text)
  | unit {w x y z : Char} {n : Nat} {cs text : List Char} (hu : unit? w x y z = some n)
      (hl : isLeading n = false) (ht : isTrailing n = false) (h : Characters cs text) :
      Characters (Char.ofNat n :: cs) ('\\' :: 'u' :: w :: x :: y :: z :: text)
  | pair {w x y z w' x' y' z' : Char} {high low : Nat} {cs text : List Char}
      (hu : unit? w x y z = some high) (hl : isLeading high = true)
      (hu' : unit? w' x' y' z' = some low) (ht : isTrailing low = true) (h : Characters cs text) :
      Characters (Char.ofNat (0x10000 + 0x400 * (high - 0xD800) + (low - 0xDC00)) :: cs)
        ('\\' :: 'u' :: w :: x :: y :: z :: '\\' :: 'u' :: w' :: x' :: y' :: z' :: text)

/-- A quoted string. -/
inductive Quoted : String → List Char → Prop where
  | intro {cs text : List Char} (h : Characters cs text) :
      Quoted (String.ofList cs) ('"' :: text ++ ['"'])

/-! ### Numbers -/

/-- Digits, at least one. -/
def Digits (ds : List Char) : Prop :=
  ds ≠ [] ∧ ∀ c ∈ ds, c.isDigit = true

/-- Digits in front of a point: a leading zero stands alone. -/
def Whole (ds : List Char) : Prop :=
  Digits ds ∧ (ds.head? = some '0' → ds = ['0'])

/-- A point and digits, or nothing. -/
inductive Fraction : List Char → List Char → Prop where
  | none : Fraction [] []
  | some {ds : List Char} (h : Digits ds) : Fraction ds ('.' :: ds)

/-- The sign of an exponent, and whether it is a minus. -/
inductive Sign : Bool → List Char → Prop where
  | none : Sign false []
  | plus : Sign false ['+']
  | minus : Sign true ['-']

/-- An exponent, or nothing. -/
inductive Exponent : Option (Bool × List Char) → List Char → Prop where
  | none : Exponent none []
  | some {e : Char} {minus : Bool} {sign ds : List Char} (he : e = 'e' ∨ e = 'E')
      (hs : Sign minus sign) (hd : Digits ds) : Exponent (some (minus, ds)) (e :: sign ++ ds)

/-- A number as it is spelled. -/
inductive Number : Numeral → List Char → Prop where
  | natural {whole fraction ft et : List Char} {exponent : Option (Bool × List Char)}
      (hw : Whole whole) (hf : Fraction fraction ft) (he : Exponent exponent et) :
      Number ⟨false, whole, fraction, exponent⟩ (whole ++ ft ++ et)
  | minus {whole fraction ft et : List Char} {exponent : Option (Bool × List Char)}
      (hw : Whole whole) (hf : Fraction fraction ft) (he : Exponent exponent et) :
      Number ⟨true, whole, fraction, exponent⟩ ('-' :: (whole ++ ft ++ et))

/-! ### Values -/

/-- Nothing but blanks. -/
def Blanks (text : List Char) : Prop :=
  ∀ c ∈ text, isBlank c = true

mutual

/-- A value without blanks around it. -/
inductive Value : Document → List Char → Prop where
  | null : Value .null nullWord
  | bool (b : Bool) : Value (.bool b) (boolWord b)
  | number {n : Numeral} {text : List Char} (h : Number n text) : Value (.number n) text
  | text {s : String} {text : List Char} (h : Quoted s text) : Value (.text s) text
  | array {ds : List Document} {text : List Char} (h : Elements ds text) :
      Value (.array ds) ('[' :: text ++ [']'])
  | object {fs : List (String × Document)} {text : List Char} (h : Members fs text) :
      Value (.object fs) ('{' :: text ++ ['}'])

/-- A value with blanks around it. -/
inductive Element : Document → List Char → Prop where
  | intro {d : Document} {before text after : List Char} (hb : Blanks before) (hv : Value d text)
      (ha : Blanks after) : Element d (before ++ text ++ after)

/-- What stands between the brackets of an array. -/
inductive Elements : List Document → List Char → Prop where
  | nil {text : List Char} (h : Blanks text) : Elements [] text
  | cons {d : Document} {ds : List Document} {text more : List Char} (hd : Element d text)
      (hm : MoreElements ds more) : Elements (d :: ds) (text ++ more)

/-- What stands behind an item, each further one after a comma. -/
inductive MoreElements : List Document → List Char → Prop where
  | nil : MoreElements [] []
  | cons {d : Document} {ds : List Document} {text more : List Char} (hd : Element d text)
      (hm : MoreElements ds more) : MoreElements (d :: ds) (',' :: text ++ more)

/-- What stands between the braces of an object. -/
inductive Members : List (String × Document) → List Char → Prop where
  | nil {text : List Char} (h : Blanks text) : Members [] text
  | cons {f : String × Document} {fs : List (String × Document)} {text more : List Char}
      (hf : Member f text) (hm : MoreMembers fs more) : Members (f :: fs) (text ++ more)

/-- What stands behind a field, each further one after a comma. -/
inductive MoreMembers : List (String × Document) → List Char → Prop where
  | nil : MoreMembers [] []
  | cons {f : String × Document} {fs : List (String × Document)} {text more : List Char}
      (hf : Member f text) (hm : MoreMembers fs more) :
      MoreMembers (f :: fs) (',' :: text ++ more)

/-- A name, a colon and a value, with blanks around each. -/
inductive Member : String × Document → List Char → Prop where
  | intro {name : String} {d : Document} {before key after text : List Char} (hb : Blanks before)
      (hk : Quoted name key) (ha : Blanks after) (hd : Element d text) :
      Member (name, d) (before ++ key ++ after ++ ':' :: text)

end

end Grammar

/-! ### Written values -/

namespace Grammar

theorem hexValue?_hexDigit : ∀ n < 16, hexValue? (hexDigit n) = some n := by
  decide

/-- The two hexadecimal digits of a control character. -/
theorem unit?_control {n : Nat} (h : n < 0x20) :
    unit? '0' '0' (hexDigit (n / 16)) (hexDigit (n % 16)) = some n := by
  have hz : hexValue? '0' = some 0 := by decide
  simp only [unit?, hz, hexValue?_hexDigit (n / 16) (by omega),
    hexValue?_hexDigit (n % 16) (by omega), Option.bind_eq_bind, Option.bind_some]
  exact congrArg some (by omega)

/-- An escaped character stands for that character. -/
theorem Characters.escapeChar_append (c : Char) {cs text : List Char} (h : Characters cs text) :
    Characters (c :: cs) (escapeChar c ++ text) := by
  unfold escapeChar
  split
  · exact .short rfl h
  · exact .short rfl h
  · exact .short rfl h
  · exact .short rfl h
  · exact .short rfl h
  · exact .short rfl h
  · exact .short rfl h
  next hq hb _ _ _ _ _ =>
    split
    -- a control character is too small to be a surrogate
    next hc =>
      have hl : isLeading c.toNat = false := by simp only [isLeading]; grind
      have ht : isTrailing c.toNat = false := by simp only [isTrailing]; grind
      have hu := Characters.unit (unit?_control hc) hl ht h
      rwa [Char.ofNat_toNat] at hu
    next hc => exact .plain hq hb (Std.not_lt.mp fun hlt => hc hlt) h

/-- A written string is in the grammar. -/
theorem quoted_quote (s : String) : Quoted s (quote s) := by
  have hcs : ∀ cs : List Char, Characters cs (cs.flatMap escapeChar) := by
    intro cs
    induction cs with
    | nil => exact .nil
    | cons c cs ih => exact ih.escapeChar_append c
  have hq := Quoted.intro (hcs s.toList)
  rwa [String.ofList_toList] at hq

theorem all_isDigit_digits (n : Nat) : ∀ c ∈ digits n, c.isDigit = true :=
  fun _ hc => Nat.isDigit_of_mem_toDigits (by decide) (by decide) hc

/-- Only zero is written with a zero in front. -/
theorem eq_zero_of_digits {n : Nat} {ds : List Char} (h : digits n = '0' :: ds) : n = 0 := by
  induction n using Nat.strongRecOn generalizing ds with
  | _ n ih =>
      rw [digits, Nat.toDigits_eq_if (by decide)] at h
      split at h
      · simpa using (List.cons.inj h).1
      next hn =>
        obtain ⟨d, ds', hds⟩ := List.exists_cons_of_ne_nil (Nat.toDigits_ne_nil (n := n / 10))
        rw [hds, List.cons_append] at h
        have hd : digits (n / 10) = '0' :: ds' := by rw [digits, hds, (List.cons.inj h).1]
        have := ih (n / 10) (by omega) hd
        omega

/-- A written number is in the grammar. -/
theorem number_digits (n : Nat) : Number ⟨false, digits n, [], none⟩ (digits n) := by
  have hw : Whole (digits n) := by
    refine ⟨⟨Nat.toDigits_ne_nil, all_isDigit_digits n⟩, fun h => ?_⟩
    obtain ⟨d, ds, hds⟩ := List.exists_cons_of_ne_nil (Nat.toDigits_ne_nil (n := n) (b := 10))
    have hds : digits n = d :: ds := hds
    rw [hds] at h
    obtain rfl : d = '0' := Option.some.inj h
    rw [eq_zero_of_digits hds]
    rfl
  simpa using Number.natural hw .none .none

end Grammar

mutual

/-- The document that a value is written as. -/
def Value.toDocument : Value → Document
  | .null          => .null
  | .bool b        => .bool b
  | .number n      => .number ⟨false, digits n, [], none⟩
  | .text s        => .text s
  | .array items   => .array (itemsToDocuments items)
  | .object fields => .object (fieldsToDocuments fields)

/-- The documents that items are written as. -/
def itemsToDocuments : List Value → List Document
  | []        => []
  | v :: rest => v.toDocument :: itemsToDocuments rest

/-- The named documents that fields are written as. -/
def fieldsToDocuments : List (String × Value) → List (String × Document)
  | []                => []
  | (name, v) :: rest => (name, v.toDocument) :: fieldsToDocuments rest

end

namespace Grammar

theorem blanks_nil : Blanks [] := by
  rintro _ ⟨⟩

theorem Value.element {d : Document} {text : List Char} (h : Value d text) : Element d text := by
  simpa using Element.intro blanks_nil h blanks_nil

/-- A written name, a colon and a value make a field. -/
theorem Value.member {name : String} {d : Document} {text : List Char} (h : Value d text) :
    Member (name, d) (quote name ++ ':' :: text) := by
  simpa using Member.intro blanks_nil (quoted_quote name) blanks_nil h.element

mutual

/-- **The compact form of a value is in the grammar.** -/
theorem value_compact : ∀ v : Json.Value, Value v.toDocument v.compact
  | .null => .null
  | .bool b => .bool b
  | .number n => .number (number_digits n)
  | .text s => .text (quoted_quote s)
  | .array vs => by
      obtain ⟨text, ht, h⟩ := elements_compact vs
      rw [Json.Value.compact, ht]
      exact .array h
  | .object fs => by
      obtain ⟨text, ht, h⟩ := members_compact fs
      rw [Json.Value.compact, ht]
      exact .object h

theorem elements_compact : ∀ vs : List Json.Value,
    ∃ text, Json.Value.compactItems vs = text ++ [']'] ∧ Elements (itemsToDocuments vs) text
  | [] => ⟨[], rfl, .nil blanks_nil⟩
  | v :: vs => by
      obtain ⟨more, ht, h⟩ := moreElements_compact vs
      refine ⟨v.compact ++ more, ?_, .cons (value_compact v).element h⟩
      rw [Json.Value.compactItems, ht, List.append_assoc]

theorem moreElements_compact : ∀ vs : List Json.Value,
    ∃ text, Json.Value.compactMore vs = text ++ [']'] ∧ MoreElements (itemsToDocuments vs) text
  | [] => ⟨[], rfl, .nil⟩
  | v :: vs => by
      obtain ⟨more, ht, h⟩ := moreElements_compact vs
      refine ⟨',' :: v.compact ++ more, ?_, .cons (value_compact v).element h⟩
      rw [Json.Value.compactMore, ht, List.append_assoc]

theorem members_compact : ∀ fs : List (String × Json.Value),
    ∃ text, Json.Value.compactFields fs = text ++ ['}'] ∧ Members (fieldsToDocuments fs) text
  | [] => ⟨[], rfl, .nil blanks_nil⟩
  | (name, v) :: fs => by
      obtain ⟨more, ht, h⟩ := moreMembers_compact fs
      refine ⟨quote name ++ ':' :: v.compact ++ more, ?_, .cons (value_compact v).member h⟩
      rw [Json.Value.compactFields, Json.Value.compactField, ht]
      simp only [List.append_assoc, List.cons_append]

theorem moreMembers_compact : ∀ fs : List (String × Json.Value),
    ∃ text, Json.Value.compactMoreFields fs = text ++ ['}'] ∧
      MoreMembers (fieldsToDocuments fs) text
  | [] => ⟨[], rfl, .nil⟩
  | (name, v) :: fs => by
      obtain ⟨more, ht, h⟩ := moreMembers_compact fs
      refine ⟨',' :: (quote name ++ ':' :: v.compact) ++ more, ?_,
        .cons (value_compact v).member h⟩
      rw [Json.Value.compactMoreFields, Json.Value.compactField, ht]
      simp only [List.append_assoc, List.cons_append]

end

theorem element_toText (v : Json.Value) : Element v.toDocument v.toText.toList := by
  rw [Json.Value.toText, String.toList_ofList]
  exact (value_compact v).element

end Grammar

end BlankLines.Json
