import Mathlib.Data.List.Forall2
import Mathlib.Data.List.Nodup
import BlankLines.Toml.Decode
import BlankLines.Proofs.Toml.Strings

/-!
# Proofs — Toml — documents that are read back

A written document is a list of lines: the headers of its tables and the pairs in them.  Empty lines
and comments may stand between them.

* `value_write`: a written value is read as an item that holds it.
* `expressions_of_shows`: the expressions of a text are the lines that it shows.
* `document_of_shows`: they make up a table of the pairs before the first header and the tables
  of the headers.
* `recordEntries_of_perm`: a record does not depend on the order of a table.
-/

namespace BlankLines.Toml
open BlankLines.Text

variable {s : String} {rest : List Char} {fuel depth : Nat}

/-! ### Values -/

/-- A value that is written. -/
inductive Setting where
  | text (s : String)
  | bool (b : Bool)
  | texts (all : List String)

/-- A setting in TOML. -/
def Setting.write : Setting → List Char
  | .text s    => writeText s
  | .bool b    => writeBool b
  | .texts all => writeList all

/-- An item holds a setting, wherever it was written. -/
inductive Item.Holds : Item → Setting → Prop where
  | text (e : Extent) (s : String) : Item.Holds (.text e s) (.text s)
  | bool (e : Extent) (b : Bool) : Item.Holds (.bool e b) (.bool b)
  | texts (e : Extent) {items : List Item} {all : List String}
      (h : List.Forall₂ (fun item s => ∃ e, item = .text e s) items all) :
      Item.Holds (.array e false items) (.texts all)

/-- A written string starts with a quote. -/
theorem writeText_eq_cons (s : String) :
    ∃ quote body, writeText s = quote :: body ∧ (quote = '"' ∨ quote = '\x27') := by
  unfold writeText
  cases quotesFor s.toList with
  | basic => exact ⟨_, _, rfl, .inl rfl⟩
  | literal => exact ⟨_, _, rfl, .inr rfl⟩
  | longBasic => exact ⟨_, _, rfl, .inl rfl⟩
  | longLiteral => exact ⟨_, _, rfl, .inr rfl⟩

theorem endsText_cons {c : Char} (hd : c ≠ '"') (hs : c ≠ '\x27') (rest : List Char) :
    EndsText (c :: rest) :=
  ⟨fun h => hd (Option.some.inj h), fun h => hs (Option.some.inj h)⟩

theorem value_writeText (fuel depth : Nat) (s : String) (hrest : EndsText rest) :
    value (fuel + 1) depth (writeText s ++ rest) =
      some (.text ⟨writeText s ++ rest, rest⟩ s, rest) := by
  have hread := textChars_writeText s hrest
  obtain ⟨quote, body, hwrite, rfl | rfl⟩ := writeText_eq_cons s
  all_goals
    rw [hwrite, List.cons_append] at hread ⊢
    simp [value, scalar, hread]

theorem dropTrivia_writeText (s : String) (rest : List Char) :
    dropTrivia false (writeText s ++ rest) = some (writeText s ++ rest) := by
  obtain ⟨quote, body, hwrite, rfl | rfl⟩ := writeText_eq_cons s
  all_goals
    rw [hwrite]
    rfl

theorem dropSpaces_writeText (s : String) (rest : List Char) :
    dropSpaces (writeText s ++ rest) = writeText s ++ rest := by
  obtain ⟨quote, body, hwrite, rfl | rfl⟩ := writeText_eq_cons s
  all_goals
    rw [hwrite]
    rfl

/-- The last item of an array on one line. -/
theorem arrayItems_last (s : String) (rest : List Char) :
    arrayItems (fuel + 2) depth (writeText s ++ ']' :: rest) =
      some ([.text ⟨writeText s ++ ']' :: rest, ']' :: rest⟩ s], rest) := by
  have hvalue := value_writeText fuel depth s
    (endsText_cons (c := ']') (by decide) (by decide) rest)
  rw [arrayItems, dropTrivia_writeText]
  obtain ⟨quote, body, hwrite, rfl | rfl⟩ := writeText_eq_cons s
  all_goals
    rw [hwrite, List.cons_append] at hvalue ⊢
    simp [hvalue, dropTrivia]

/-- A string on a line of its own in an array. -/
def listRow (s : String) : List Char :=
  [' ', ' ', ' ', ' '] ++ writeText s ++ [',', '\n']

theorem arrayItems_listRow {items : List Item} {after : List Char} (s : String)
    (h : arrayItems (fuel + 1) depth ('\n' :: rest) = some (items, after)) :
    arrayItems (fuel + 2) depth ('\n' :: (listRow s ++ rest)) =
      some (.text ⟨writeText s ++ ',' :: '\n' :: rest, ',' :: '\n' :: rest⟩ s :: items, after) := by
  have hvalue := value_writeText fuel depth s
    (endsText_cons (c := ',') (by decide) (by decide) ('\n' :: rest))
  have hdrop : dropTrivia false ('\n' :: (listRow s ++ rest)) =
      some (writeText s ++ ',' :: '\n' :: rest) := by
    rw [← dropTrivia_writeText, listRow, List.append_assoc, List.append_assoc]
    rfl
  rw [arrayItems, hdrop]
  obtain ⟨quote, body, hwrite, rfl | rfl⟩ := writeText_eq_cons s
  all_goals
    rw [hwrite, List.cons_append] at hvalue ⊢
    simp [hvalue, dropTrivia, h]

theorem arrayItems_listRows {all : List String} (hfuel : all.length < fuel) (rest : List Char) :
    ∃ items, arrayItems (fuel + 1) depth ('\n' :: (all.flatMap listRow ++ ']' :: rest)) =
        some (items, rest) ∧
      List.Forall₂ (fun item s => ∃ e, item = .text e s) items all := by
  induction all generalizing fuel with
  | nil => exact ⟨[], rfl, .nil⟩
  | cons s all ih =>
      obtain ⟨fuel, rfl⟩ : ∃ n, fuel = n + 1 := Nat.exists_eq_succ_of_ne_zero (by omega)
      obtain ⟨items, hitems, hall⟩ := ih (Nat.lt_of_succ_lt_succ hfuel)
      have hrow := arrayItems_listRow s hitems
      rw [← List.append_assoc, ← List.flatMap_cons] at hrow
      exact ⟨_, hrow, .cons ⟨_, rfl⟩ hall⟩

theorem length_le_length_listRows (all : List String) :
    all.length ≤ (all.flatMap listRow).length := by
  induction all with
  | nil => exact Nat.le_refl 0
  | cons s all ih =>
      have hrow : 1 ≤ (listRow s).length := by simp [listRow]
      rw [List.flatMap_cons, List.length_append, List.length_cons]
      omega

/-- What follows the bracket of a written list is read as its items: each takes more than one
character, so the length of the text is fuel enough. -/
theorem arrayItems_writeList (depth : Nat) {all : List String} {text : List Char}
    (hwrite : writeList all = '[' :: text) (hfuel : text.length < fuel) (rest : List Char) :
    ∃ items, arrayItems fuel depth (text ++ rest) = some (items, rest) ∧
      List.Forall₂ (fun item s => ∃ e, item = .text e s) items all := by
  rcases all with _ | ⟨s, _ | ⟨s', all⟩⟩
  · obtain rfl : [']'] = text := (List.cons.inj hwrite).2
    obtain ⟨fuel, rfl⟩ : ∃ n, fuel = n + 1 := Nat.exists_eq_succ_of_ne_zero (by omega)
    exact ⟨[], rfl, .nil⟩
  · obtain rfl : writeText s ++ [']'] = text := (List.cons.inj hwrite).2
    obtain ⟨quote, body, hquote, -⟩ := writeText_eq_cons s
    obtain ⟨fuel, rfl⟩ : ∃ n, fuel = n + 2 := ⟨fuel - 2, by simp [hquote] at hfuel; omega⟩
    rw [List.append_assoc, List.singleton_append]
    exact ⟨_, arrayItems_last s rest, .cons ⟨_, rfl⟩ .nil⟩
  · obtain rfl : '\n' :: ((s :: s' :: all).flatMap listRow ++ [']']) = text :=
      (List.cons.inj hwrite).2
    have hrows := length_le_length_listRows (s :: s' :: all)
    rw [List.length_cons, List.length_append, List.length_singleton] at hfuel
    obtain ⟨fuel, rfl⟩ : ∃ n, fuel = n + 1 := Nat.exists_eq_succ_of_ne_zero (by omega)
    rw [List.cons_append, List.append_assoc, List.singleton_append]
    exact arrayItems_listRows (by omega) rest

/-- **A written value is read back**, given as much fuel as it has characters. -/
theorem value_write (setting : Setting) (hrest : EndsText rest) (hdepth : depth < nestingLimit)
    (hfuel : setting.write.length < fuel) :
    ∃ item, value fuel depth (setting.write ++ rest) = some (item, rest) ∧ item.Holds setting := by
  obtain ⟨fuel, rfl⟩ : ∃ n, fuel = n + 1 := Nat.exists_eq_succ_of_ne_zero (by omega)
  cases setting with
  | text s => exact ⟨_, value_writeText _ _ s hrest, .text _ s⟩
  | bool b =>
      cases b with
      | true => exact ⟨_, rfl, .bool _ true⟩
      | false => exact ⟨_, rfl, .bool _ false⟩
  | texts all =>
      obtain ⟨text, hwrite⟩ : ∃ text, writeList all = '[' :: text := by
        unfold writeList
        split <;> exact ⟨_, rfl⟩
      simp only [Setting.write, hwrite, List.length_cons] at hfuel ⊢
      obtain ⟨items, hitems, hall⟩ := arrayItems_writeList (depth + 1) hwrite
        (Nat.lt_of_succ_lt_succ hfuel) rest
      refine ⟨.array ⟨'[' :: (text ++ rest), rest⟩ false items, ?_, .texts _ hall⟩
      rw [List.cons_append, value, if_neg (Nat.not_le.2 hdepth), hitems]
      rfl

/-! ### Keys -/

/-- A name that is written without quotes. -/
def IsBareName (name : String) : Prop :=
  name.toList ≠ [] ∧ ∀ c ∈ name.toList, isBare c = true

/-- A key ends here: neither a character nor a part of it follows. -/
def EndsKey (rest : List Char) : Prop :=
  (∀ c ∈ rest.head?, isBare c = false) ∧ (dropSpaces rest).head? ≠ some '.'

/-- A character of a name is none of those that a line of another kind starts with. -/
theorem not_mem_of_isBare {c : Char} (h : isBare c = true) :
    c ∉ ['\n', '\r', ' ', '\t', '#', '[', '"', '\x27'] := by
  intro hc
  simp only [List.mem_cons, List.not_mem_nil, or_false] at hc
  rcases hc with rfl | rfl | rfl | rfl | rfl | rfl | rfl | rfl <;> exact absurd h (by decide)

theorem IsBareName.eq_cons {name : String} (h : IsBareName name) :
    ∃ c cs, name.toList = c :: cs ∧ isBare c = true := by
  obtain ⟨c, cs, hname⟩ := List.exists_cons_of_ne_nil h.1
  exact ⟨c, cs, hname, h.2 c (by simp [hname])⟩

theorem keyPart_bare {name : String} (hname : IsBareName name)
    (hrest : ∀ c ∈ rest.head?, isBare c = false) :
    keyPart (name.toList ++ rest) = some (⟨name, ⟨name.toList ++ rest, rest⟩⟩, rest) := by
  have htake : (name.toList ++ rest).takeWhile isBare = name.toList := by
    rw [List.takeWhile_append_of_pos hname.2]
    cases rest with
    | nil => simp
    | cons c rest => simp [hrest c rfl]
  have hdrop : (name.toList ++ rest).dropWhile isBare = rest := by
    rw [List.dropWhile_append_of_pos hname.2]
    cases rest with
    | nil => rfl
    | cons c rest => simp [hrest c rfl]
  obtain ⟨c, cs, hcons, hc⟩ := hname.eq_cons
  have hquote := not_mem_of_isBare hc
  simp only [List.mem_cons, List.not_mem_nil, or_false, not_or] at hquote
  unfold keyPart
  split
  next h => simp [hcons, hquote] at h
  next h => simp [hcons, hquote] at h
  next => simp [htake, hdrop, hname.1]

theorem dottedKey_bare (fuel : Nat) {name : String} (hname : IsBareName name) (rest : List Char)
    (hrest : EndsKey rest) :
    ∃ e, dottedKey (fuel + 1) (name.toList ++ rest) = some ([⟨name, e⟩], rest) := by
  refine ⟨⟨name.toList ++ rest, rest⟩, ?_⟩
  rw [dottedKey, keyPart_bare hname hrest.1]
  simp only [Option.bind_eq_bind, Option.bind_some]
  split
  next h => exact absurd (congrArg List.head? h) hrest.2
  next => rfl

/-! ### Lines -/

/-- A line of a document that says something. -/
inductive Line where
  | header (name : String)
  | pair (name : String) (setting : Setting)

namespace Line

/-- The name on a line. -/
def name : Line → String
  | header name => name
  | pair name _ => name

/-- A line in TOML. -/
def write : Line → List Char
  | header name       => writeHeader name
  | pair name setting => writePair name setting.write

end Line

/-- An expression says what a line does, wherever it was written. -/
inductive Expression.Says : Expression → Line → Prop where
  | header (name : String) (e extent : Extent) :
      Expression.Says (.header [] ⟨name, e⟩ extent) (.header name)
  | pair (name : String) (e : Extent) {item : Item} {setting : Setting} (h : item.Holds setting) :
      Expression.Says (.pair [] ⟨name, e⟩ item) (.pair name setting)

theorem header_writeHeader (fuel : Nat) {name : String} (hname : IsBareName name)
    (rest : List Char) :
    ∃ e extent, header (fuel + 1) (writeHeader name ++ rest) =
      some (.header [] ⟨name, e⟩ extent, '\n' :: rest) := by
  obtain ⟨e, hkey⟩ := dottedKey_bare fuel hname (']' :: '\n' :: rest)
    ⟨by rintro _ ⟨⟩; rfl, by simp [dropSpaces]⟩
  have hwrite : writeHeader name ++ rest = '[' :: (name.toList ++ ']' :: '\n' :: rest) := by
    simp [writeHeader]
  obtain ⟨c, cs, hcons, hc⟩ := hname.eq_cons
  have hfirst := not_mem_of_isBare hc
  simp only [List.mem_cons, List.not_mem_nil, or_false, not_or] at hfirst
  have hspaces : dropSpaces (name.toList ++ ']' :: '\n' :: rest) =
      name.toList ++ ']' :: '\n' :: rest := by
    simp [hcons, dropSpaces, hfirst]
  refine ⟨e, ⟨writeHeader name ++ rest, '\n' :: rest⟩, ?_⟩
  rw [hwrite]
  unfold header
  split
  next h => simp [hcons, hfirst] at h
  next h =>
    obtain rfl := (List.cons.inj h).2
    have hbracket : dropSpaces (']' :: '\n' :: rest) = ']' :: '\n' :: rest := rfl
    simp [hspaces, hkey, splitKey, hbracket, expect]
  next h => exact absurd rfl (h _)

theorem dropSpaces_write (setting : Setting) (rest : List Char) :
    dropSpaces (' ' :: (setting.write ++ rest)) = setting.write ++ rest := by
  cases setting with
  | text s => exact dropSpaces_writeText s rest
  | bool b => cases b <;> rfl
  | texts all => rcases all with _ | ⟨s, _ | ⟨s', all⟩⟩ <;> rfl

theorem pair_writePair {name : String} {setting : Setting} (hname : IsBareName name)
    (hfuel : setting.write.length < fuel) (rest : List Char) :
    ∃ e item, pair fuel (writePair name setting.write ++ rest) =
      some (.pair [] ⟨name, e⟩ item, '\n' :: rest) ∧ item.Holds setting := by
  obtain ⟨fuel, rfl⟩ : ∃ n, fuel = n + 1 := Nat.exists_eq_succ_of_ne_zero (by omega)
  obtain ⟨e, hkey⟩ := dottedKey_bare fuel hname
    (' ' :: '=' :: ' ' :: (setting.write ++ '\n' :: rest))
    ⟨by rintro _ ⟨⟩; rfl, by simp [dropSpaces]⟩
  have hwrite : writePair name setting.write ++ rest =
      name.toList ++ ' ' :: '=' :: ' ' :: (setting.write ++ '\n' :: rest) := by
    simp [writePair]
  have hequals : dropSpaces (' ' :: '=' :: ' ' :: (setting.write ++ '\n' :: rest)) =
      '=' :: ' ' :: (setting.write ++ '\n' :: rest) := rfl
  obtain ⟨item, hitem, hholds⟩ := value_write setting
    (endsText_cons (c := '\n') (by decide) (by decide) rest) (by decide : 0 < nestingLimit) hfuel
  refine ⟨e, item, ?_, hholds⟩
  rw [hwrite, pair, hkey]
  simp [splitKey, hequals, expect, dropSpaces_write, hitem]

/-! ### Documents -/

/-- A text shows lines: comments and empty lines may stand between them. -/
inductive Shows : List Line → List Char → Prop where
  | nil : Shows [] []
  | blank {doc : List Line} {text : List Char} (h : Shows doc text) : Shows doc ('\n' :: text)
  | comment {doc : List Line} {remark text : List Char} (hp : ∀ c ∈ remark, isPlain c = true)
      (h : Shows doc text) : Shows doc ('#' :: (remark ++ '\n' :: text))
  | line {line : Line} {doc : List Line} {text : List Char} (hname : IsBareName line.name)
      (h : Shows doc text) : Shows (line :: doc) (line.write ++ text)

theorem Shows.append {lines doc : List Line} {text : List Char}
    (hnames : ∀ line ∈ lines, IsBareName line.name) (h : Shows doc text) :
    Shows (lines ++ doc) (lines.flatMap Line.write ++ text) := by
  induction lines with
  | nil => exact h
  | cons line lines ih =>
      rw [List.forall_mem_cons] at hnames
      rw [List.cons_append, List.flatMap_cons, List.append_assoc]
      exact .line hnames.1 (ih hnames.2)

theorem expressions_congr {lines : Nat} {cs cs' : List Char}
    (h : dropTrivia false cs = dropTrivia false cs') :
    expressions fuel lines cs = expressions fuel lines cs' := by
  cases lines with
  | zero => rfl
  | succ lines => rw [expressions, expressions, h]

theorem dropTrivia_comment {remark : List Char} (hp : ∀ c ∈ remark, isPlain c = true) :
    dropTrivia true (remark ++ '\n' :: rest) = dropTrivia false rest := by
  induction remark with
  | nil => rfl
  | cons c remark ih =>
      rw [List.forall_mem_cons] at hp
      have hn : c ≠ '\n' := by
        rintro rfl
        exact absurd hp.1 (by decide)
      have hr : c ≠ '\r' := by
        rintro rfl
        exact absurd hp.1 (by decide)
      rw [List.cons_append, dropTrivia]
      · simp [hp.1, ih hp.2]
      · exact hn
      · exact fun _ h => absurd h hr

/-- What starts an expression is read, and then the rest of the text behind its line. -/
theorem expressions_cons {lines : Nat} {c : Char} {cs : List Char} {e : Expression}
    (hdrop : dropTrivia false (c :: cs) = some (c :: cs))
    (hread : (if c = '[' then header fuel (c :: cs) else pair fuel (c :: cs)) =
      some (e, '\n' :: rest)) :
    expressions fuel (lines + 1) (c :: cs) = (expressions fuel lines rest).map (e :: ·) := by
  have hend : lineEnd ('\n' :: rest) = some rest := rfl
  rw [expressions, hdrop]
  split at hread
  next hc => cases hmore : expressions fuel lines rest <;> simp [hc ▸ hread, hc, hend, hmore]
  next hc => cases hmore : expressions fuel lines rest <;> simp [hread, hc, hend, hmore]

/-- A line of a document is its next expression. -/
theorem expressions_line {line : Line} (lines : Nat) (hname : IsBareName line.name)
    (hfuel : line.write.length < fuel) (rest : List Char) :
    ∃ e : Expression, e.Says line ∧ expressions fuel (lines + 1) (line.write ++ rest) =
      (expressions fuel lines rest).map (e :: ·) := by
  cases line with
  | header name =>
      obtain ⟨fuel, rfl⟩ : ∃ n, fuel = n + 1 := Nat.exists_eq_succ_of_ne_zero (by omega)
      obtain ⟨e, extent, hread⟩ := header_writeHeader fuel hname rest
      exact ⟨_, .header name e extent, expressions_cons rfl hread⟩
  | pair name setting =>
      have hname : IsBareName name := hname
      have hvalue : setting.write.length < fuel := by
        simp only [Line.write, writePair, List.length_append] at hfuel
        omega
      obtain ⟨e, item, hread, hholds⟩ := pair_writePair hname hvalue rest
      obtain ⟨c, cs, hcons, hc⟩ := hname.eq_cons
      have hfirst := not_mem_of_isBare hc
      simp only [List.mem_cons, List.not_mem_nil, or_false, not_or] at hfirst
      have hwrite : writePair name setting.write ++ rest =
          c :: (cs ++ [' ', '=', ' '] ++ setting.write ++ ['\n'] ++ rest) := by
        simp [writePair, hcons]
      refine ⟨_, .pair name e hholds, ?_⟩
      rw [hwrite] at hread
      rw [Line.write, hwrite]
      exact expressions_cons (by simp [dropTrivia, hfirst])
        (by rw [if_neg (by simp [hfirst]), hread])

theorem Line.length_write_pos (line : Line) : 1 ≤ line.write.length := by
  cases line with
  | header => simp [write, writeHeader]
  | pair =>
      simp only [write, writePair, List.length_append, List.length_singleton]
      omega

/-- **The expressions of a text are the lines that it shows.** -/
theorem expressions_of_shows {doc : List Line} {text : List Char} (h : Shows doc text)
    {lines : Nat} (hfuel : text.length < fuel) (hlines : text.length < lines) :
    ∃ es, expressions fuel lines text = some es ∧ List.Forall₂ Expression.Says es doc := by
  induction h generalizing lines with
  | nil =>
      obtain ⟨lines, rfl⟩ : ∃ n, lines = n + 1 := Nat.exists_eq_succ_of_ne_zero (by omega)
      exact ⟨[], rfl, .nil⟩
  | @blank doc text h ih =>
      have hskip : dropTrivia false ('\n' :: text) = dropTrivia false text := rfl
      rw [List.length_cons] at hfuel hlines
      rw [expressions_congr hskip]
      exact ih (by omega) (by omega)
  | @comment doc remark text hp h ih =>
      have hskip : dropTrivia false ('#' :: (remark ++ '\n' :: text)) = dropTrivia false text :=
        dropTrivia_comment hp
      simp only [List.length_cons, List.length_append] at hfuel hlines
      rw [expressions_congr hskip]
      exact ih (by omega) (by omega)
  | @line line doc text hname h ih =>
      have hwrite := line.length_write_pos
      rw [List.length_append] at hfuel hlines
      obtain ⟨lines, rfl⟩ : ∃ n, lines = n + 1 := Nat.exists_eq_succ_of_ne_zero (by omega)
      have hline : line.write.length < fuel := by omega
      have htext : text.length < lines := by omega
      obtain ⟨e, hsays, hread⟩ := expressions_line lines hname hline text
      obtain ⟨es, hes, hall⟩ := ih (by omega) htext
      refine ⟨e :: es, ?_, .cons hsays hall⟩
      rw [hread, hes]
      rfl

/-! ### The table of a document -/

/-- No entry has a name. -/
def Entries.Lack (entries : Entries) (name : String) : Prop :=
  name ∉ entries.map (·.1.name)

/-- Entries hold named settings, in order. -/
def EntriesHold (entries : Entries) (pairs : List (String × Setting)) : Prop :=
  List.Forall₂ (fun entry pair => entry.1.name = pair.1 ∧ entry.2.Holds pair.2) entries pairs

theorem EntriesHold.map_name {entries : Entries} {pairs : List (String × Setting)}
    (h : EntriesHold entries pairs) : entries.map (·.1.name) = pairs.map Prod.fst := by
  induction h with
  | nil => rfl
  | cons hpair _ ih => rw [List.map_cons, List.map_cons, hpair.1, ih]

/-- The change of an entry passes over entries with other names. -/
theorem update_append {part : KeyPart} {f : Option Item → Option Item} {entries : Entries}
    (h : entries.Lack part.name) (rest : Entries) :
    (entries ++ rest).update part f = (rest.update part f).map (entries ++ ·) := by
  induction entries with
  | nil => simp
  | cons entry entries ih =>
      obtain ⟨hne, hrest⟩ := not_or.1 (List.mem_cons.not.1 h)
      rw [List.cons_append, Entries.update, if_neg (Ne.symm hne), ih hrest, Option.map_map]
      rfl

theorem update_of_lack {part : KeyPart} {f : Option Item → Option Item} {item : Item}
    {entries : Entries} (h : entries.Lack part.name) (hf : f none = some item) :
    entries.update part f = some (entries ++ [(part, item)]) := by
  have hupdate := update_append (f := f) h []
  rw [List.append_nil] at hupdate
  rw [hupdate, Entries.update, hf]
  rfl

/-- A path leads from the table of a document to one that stands where `put` puts it. -/
def LeadsTo (path : List KeyPart) (put : Entries → Entries) : Prop :=
  ∀ change entries, Entries.descend false change path .header (put entries) =
    (change .header entries).map put

theorem leadsTo_nil : LeadsTo [] id := by
  intro change entries
  rw [Entries.descend]
  exact (congrFun Option.map_id _).symm

theorem leadsTo_last (part : KeyPart) {entries : Entries} (h : entries.Lack part.name)
    (extent : Extent) : LeadsTo [part] fun es => entries ++ [(part, .table extent .header es)] := by
  intro change es
  rw [Entries.descend, update_append h, Entries.update, if_pos rfl]
  simp [Entries.descend]
  rfl

/-- A pair goes to the end of the table that the path leads to. -/
theorem add_pair {path : List KeyPart} {put : Entries → Entries} (hput : LeadsTo path put)
    {part : KeyPart} {entries : Entries} (h : entries.Lack part.name) (item : Item) :
    Assembly.add ⟨path, put entries⟩ (.pair [] part item) =
      some ⟨path, put (entries ++ [(part, item)])⟩ := by
  have hinsert : entries.insert .header [] part item = some (entries ++ [(part, item)]) := by
    rw [Entries.insert, Entries.descend]
    exact update_of_lack h rfl
  rw [Assembly.add, hput, hinsert]
  rfl

/-- A header puts a new table at the end of the document, and leads to it. -/
theorem add_header (part : KeyPart) {entries : Entries} (h : entries.Lack part.name)
    (path : List KeyPart) (extent : Extent) :
    Assembly.add ⟨path, entries⟩ (.header [] part extent) =
      some ⟨[part], entries ++ [(part, .table extent .header [])]⟩ := by
  have hopen : entries.openTable [] part extent =
      some (entries ++ [(part, .table extent .header [])]) := by
    rw [Entries.openTable, Entries.descend]
    exact update_of_lack h rfl
  rw [Assembly.add, hopen]
  rfl

/-- The lines of pairs. -/
def pairLines (pairs : List (String × Setting)) : List Line :=
  pairs.map fun p => .pair p.1 p.2

theorem foldlM_pairLines {path : List KeyPart} {put : Entries → Entries} (hput : LeadsTo path put)
    (entries : Entries) {es : List Expression} {pairs : List (String × Setting)}
    (hes : List.Forall₂ Expression.Says es (pairLines pairs))
    (hnames : (entries.map (·.1.name) ++ pairs.map Prod.fst).Nodup) :
    ∃ new, es.foldlM Assembly.add ⟨path, put entries⟩ = some ⟨path, put (entries ++ new)⟩ ∧
      EntriesHold new pairs := by
  induction pairs generalizing es entries with
  | nil =>
      cases hes
      exact ⟨[], by simp, .nil⟩
  | cons pair pairs ih =>
      obtain ⟨name, setting⟩ := pair
      obtain ⟨e, es, hsays, htail, rfl⟩ := List.forall₂_cons_right_iff.1 hes
      obtain _ | ⟨_, extent, hholds⟩ := hsays
      rename_i item
      have hlack : entries.Lack name := fun hmem =>
        (List.nodup_append.1 hnames).2.2 name hmem name List.mem_cons_self rfl
      obtain ⟨new, hrun, hnew⟩ := ih (entries ++ [(⟨name, extent⟩, item)]) htail
        (by simpa using hnames)
      refine ⟨(⟨name, extent⟩, item) :: new, ?_, .cons ⟨rfl, hholds⟩ hnew⟩
      rw [List.foldlM_cons, add_pair hput hlack]
      simpa using hrun

theorem exists_of_says_append {es : List Expression} {doc doc' : List Line}
    (h : List.Forall₂ Expression.Says es (doc ++ doc')) :
    ∃ first rest, es = first ++ rest ∧ List.Forall₂ Expression.Says first doc ∧
      List.Forall₂ Expression.Says rest doc' :=
  ⟨_, _, (List.take_append_drop doc.length es).symm, List.forall₂_take_append _ _ _ h,
    List.forall₂_drop_append _ _ _ h⟩

/-- An entry is the table of a header, with its name, and holds its pairs. -/
def TableHolds (entry : KeyPart × Item) (table : String × List (String × Setting)) : Prop :=
  entry.1.name = table.1 ∧
    ∃ extent entries, entry.2 = .table extent .header entries ∧ EntriesHold entries table.2

/-- The lines of a table. -/
def tableLines (table : String × List (String × Setting)) : List Line :=
  .header table.1 :: pairLines table.2

theorem foldlM_tableLines (path : List KeyPart) (entries : Entries) {es : List Expression}
    {tables : List (String × List (String × Setting))}
    (hes : List.Forall₂ Expression.Says es (tables.flatMap tableLines))
    (hnames : (entries.map (·.1.name) ++ tables.map Prod.fst).Nodup)
    (hpairs : ∀ table ∈ tables, (table.2.map Prod.fst).Nodup) :
    ∃ path' new, es.foldlM Assembly.add ⟨path, entries⟩ = some ⟨path', entries ++ new⟩ ∧
      List.Forall₂ TableHolds new tables := by
  induction tables generalizing es path entries with
  | nil =>
      cases hes
      exact ⟨path, [], by simp, .nil⟩
  | cons table tables ih =>
      obtain ⟨name, pairs⟩ := table
      rw [List.forall_mem_cons] at hpairs
      rw [List.flatMap_cons, tableLines, List.cons_append] at hes
      obtain ⟨e, es, hsays, htail, rfl⟩ := List.forall₂_cons_right_iff.1 hes
      obtain ⟨_, extent, whole⟩ | _ := hsays
      have hlack : entries.Lack name := fun hmem =>
        (List.nodup_append.1 hnames).2.2 name hmem name List.mem_cons_self rfl
      obtain ⟨es, rest, rfl, hfirst, hrest⟩ := exists_of_says_append htail
      obtain ⟨new, hrun, hnew⟩ := foldlM_pairLines (leadsTo_last ⟨name, extent⟩ hlack whole) []
        hfirst (by simpa using hpairs.1)
      obtain ⟨path', more, hmore, hall⟩ := ih [⟨name, extent⟩]
        (entries ++ [(⟨name, extent⟩, .table whole .header new)]) hrest
        (by simpa using hnames) hpairs.2
      refine ⟨path', (⟨name, extent⟩, .table whole .header new) :: more, ?_,
        .cons ⟨rfl, _, _, rfl, hnew⟩ hall⟩
      simp only [List.nil_append] at hrun
      simp [add_header ⟨name, extent⟩ hlack, hrun, hmore]

/-- **A document is read as the table that it shows**: the pairs before the first header, then the
tables of the headers, each in the order of the text. -/
theorem document_of_shows {pairs : List (String × Setting)}
    {tables : List (String × List (String × Setting))} {text : List Char}
    (h : Shows (pairLines pairs ++ tables.flatMap tableLines) text)
    (hnames : (pairs.map Prod.fst ++ tables.map Prod.fst).Nodup)
    (hpairs : ∀ table ∈ tables, (table.2.map Prod.fst).Nodup) :
    ∃ first more, document text = some (first ++ more) ∧ EntriesHold first pairs ∧
      List.Forall₂ TableHolds more tables := by
  obtain ⟨es, hread, hes⟩ := expressions_of_shows h
    (by omega : text.length < 2 * text.length + 2) text.length.lt_succ_self
  obtain ⟨es, rest, rfl, htop, hrest⟩ := exists_of_says_append hes
  obtain ⟨first, hfirst, hholds⟩ := foldlM_pairLines leadsTo_nil [] htop
    (List.nodup_append.1 hnames).1
  obtain ⟨path, more, hmore, hall⟩ := foldlM_tableLines [] first hrest
    (by rwa [hholds.map_name]) hpairs
  refine ⟨first, more, ?_, hholds, hall⟩
  have hrun : (es ++ rest).foldlM Assembly.add {} = some ⟨path, first ++ more⟩ := by
    rw [List.foldlM_append]
    exact (congrArg (· >>= _) hfirst).trans hmore
  rw [document, hread]
  simp [hrun]

/-! ### Records -/

namespace Item.Holds

variable {item : Item}

theorem text_eq (h : item.Holds (.text s)) : Toml.text item = .ok s := by
  cases h
  rfl

theorem bool_eq {b : Bool} (h : item.Holds (.bool b)) : Toml.bool item = .ok b := by
  cases h
  rfl

theorem list_eq {all : List String} (h : item.Holds (.texts all)) :
    Toml.list Toml.text item = .ok all := by
  obtain _ | _ | ⟨extent, h⟩ := h
  rw [Toml.list]
  induction h with
  | nil => rfl
  | cons hitem _ ih =>
      obtain ⟨e, rfl⟩ := hitem
      rw [List.mapM_cons, ih]
      rfl

theorem choice_eq {α : Type} {table : List (String × α)} {a : α} (h : item.Holds (.text s))
    (hs : table.lookup s = some a) : choice table item = .ok a := by
  cases h
  rw [choice, lookUp, hs]

end Item.Holds

/-- Reads an entry into a record, if it has the name of a part. -/
def Parts.read {σ : Type} (parts : Parts σ) (s : σ) (entry : KeyPart × Item) : Except Fault σ :=
  match parts.lookup entry.1.name with
  | some read => read s entry.2
  | none      => .ok s

section
variable {σ : Type} {parts : Parts σ} {s s' : σ} {entry : KeyPart × Item}

theorem Parts.read_eq {name : String} {read : σ → Decoder σ} (hname : entry.1.name = name)
    (hpart : parts.lookup name = some read) : parts.read s entry = read s entry.2 := by
  rw [Parts.read, hname, hpart]

theorem Parts.foldlM_read_cons (h : parts.read s entry = .ok s') (rest : Entries) :
    (entry :: rest).foldlM parts.read s = rest.foldlM parts.read s' := by
  rw [List.foldlM_cons, h]
  rfl

end

/-- The order in which the entries of a table are met. -/
def metBefore (a b : KeyPart × Item) : Bool :=
  decide (a.1.name ≤ b.1.name)

/-- **A record does not depend on the order of its table**: entries with different names are met in
the order of the alphabet, whatever their order in the document. -/
theorem recordEntries_of_perm {σ : Type} {entries sorted : Entries} (hperm : entries.Perm sorted)
    (hsorted : (sorted.map (·.1.name)).Pairwise (· < ·)) (parts : Parts σ) (s : σ) :
    recordEntries parts s entries = sorted.foldlM parts.read s := by
  have hmerge : (entries.mergeSort metBefore).Perm sorted :=
    (List.mergeSort_perm entries metBefore).trans hperm
  have hmet : (entries.mergeSort metBefore).Pairwise fun a b => metBefore a b = true := by
    refine List.pairwise_mergeSort (fun a b c h h' => ?_) (fun a b => ?_) entries
    · simp only [metBefore, decide_eq_true_eq] at h h' ⊢
      exact String.le_trans h h'
    · simpa [metBefore] using String.le_total a.1.name b.1.name
  have hmet' : sorted.Pairwise fun a b => metBefore a b = true :=
    (List.pairwise_map.1 hsorted).imp fun h =>
      decide_eq_true (String.not_lt.1 (String.lt_asymm h))
  have hnames : (sorted.map (·.1.name)).Nodup := by
    refine List.Pairwise.imp (fun h => ?_) hsorted
    rintro rfl
    exact String.lt_irrefl _ h
  have heq : entries.mergeSort metBefore = sorted := by
    refine List.Perm.eq_of_pairwise (fun a b ha hb hab hba => ?_) hmet hmet' hmerge
    simp only [metBefore, decide_eq_true_eq] at hab hba
    exact List.inj_on_of_nodup_map hnames (hmerge.mem_iff.1 ha) hb (String.le_antisymm hab hba)
  rw [← heq]
  rfl

end BlankLines.Toml
