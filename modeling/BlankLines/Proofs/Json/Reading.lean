import Mathlib.Data.List.DropRight
import BlankLines.Proofs.Json.Literals

/-!
# Proofs — Json — reading what is in the grammar

The reader knows where a text of the grammar ends, and reads the document it stands for.
`Node.Holds` says that a node holds a document, whatever it remembers of its text; `Node.Shows` says
the same of a value that the writer can write.

* `Node.read_of_value`: given three steps for each of its characters, a value is read as a node that
  holds its document, and reading stops behind it.
* `ofText_of_element`: a whole text is read, and nothing but blanks is left.
* `ofText_compact`: a written value is read back.
-/

namespace BlankLines.Json

variable {cs text rest : List Char}

/-! ### What a node holds -/

mutual

/-- A node holds a document, and can be passed over.  A number is held as it is spelled there. -/
inductive Node.Holds : Node → Document → Prop where
  | null (here after : List Char) : Node.Holds (.scalar here after (.ok .null) none) .null
  | bool (here after : List Char) (b : Bool) :
      Node.Holds (.scalar here after (.ok (.bool b)) none) (.bool b)
  | number (here after : List Char) (n : Numeral) (h : Numeral.read here = .ok (n, after)) :
      Node.Holds (.scalar here after ((n.value after).map .number) none) (.number n)
  | text (here after : List Char) (s : String) :
      Node.Holds (.scalar here after (.ok (.text s)) none) (.text s)
  | array (here : List Char) {items : Items} {ds : List Document} (h : ItemsHold items ds) :
      Node.Holds (.array here items) (.array ds)
  | object (here : List Char) {fields : Fields} {fs : List (String × Document)}
      (h : FieldsHold fields fs) : Node.Holds (.object here fields) (.object fs)

/-- A closed list of items holds a list of documents. -/
inductive ItemsHold : Items → List Document → Prop where
  | closed (after : List Char) : ItemsHold (.closed after) []
  | item {node : Node} {rest : Items} {d : Document} {ds : List Document} (hd : node.Holds d)
      (hr : ItemsHold rest ds) : ItemsHold (.item node rest) (d :: ds)

/-- A closed list of fields holds a list of named documents. -/
inductive FieldsHold : Fields → List (String × Document) → Prop where
  | closed (after : List Char) : FieldsHold (.closed after) []
  | field {key : Key} {node : Node} {rest : Fields} {name : String} {d : Document}
      {fs : List (String × Document)} (hk : key.name = .ok name) (hs : key.skip = none)
      (hd : node.Holds d) (hr : FieldsHold rest fs) :
      FieldsHold (.field key node rest) ((name, d) :: fs)

end

mutual

/-- What holds a document can be passed over. -/
theorem Node.Holds.skip_eq {node : Node} {d : Document} : node.Holds d → node.skip = none
  | .null _ _ => rfl
  | .bool _ _ _ => rfl
  | .number _ _ _ _ => rfl
  | .text _ _ _ => rfl
  | .array _ h => h.skipItems_eq
  | .object _ h => h.skipFields_eq

theorem ItemsHold.skipItems_eq {items : Items} {ds : List Document} :
    ItemsHold items ds → Node.skipItems items = none
  | .closed _ => rfl
  | .item hd hr => by rw [Node.skipItems, hd.skip_eq, hr.skipItems_eq]; rfl

theorem FieldsHold.skipFields_eq {fields : Fields} {fs : List (String × Document)} :
    FieldsHold fields fs → Node.skipFields fields = none
  | .closed _ => rfl
  | .field _ hs hd hr => by rw [Node.skipFields, hs, hd.skip_eq, hr.skipFields_eq]; rfl

end

/-! ### How texts start -/

/-- A character that starts a value. -/
def StartsValue (c : Char) : Prop :=
  isBlank c = false ∧ c ≠ ']' ∧ c ≠ '}' ∧ c ≠ ','

theorem startsValue_of_isDigit {c : Char} (h : c.isDigit = true) : StartsValue c := by
  refine ⟨?_, ?_, ?_, ?_⟩
  · simp only [isBlank, Bool.or_eq_false_iff, decide_eq_false_iff_not]
    refine ⟨⟨⟨?_, ?_⟩, ?_⟩, ?_⟩ <;> rintro rfl <;> cases h
  all_goals rintro rfl; cases h

theorem dropBlanks_of_startsValue {c : Char} (h : StartsValue c) (cs : List Char) :
    dropBlanks (c :: cs) = c :: cs := by
  simp [dropBlanks, h.1]

theorem dropBlanks_idem (text : List Char) : dropBlanks (dropBlanks text) = dropBlanks text :=
  List.dropWhile_idempotent _ text

theorem dropBlanks_append {ws : List Char} (h : Grammar.Blanks ws) (rest : List Char) :
    dropBlanks (ws ++ rest) = dropBlanks rest :=
  List.dropWhile_append_of_pos h

theorem endsNumeral_of_isBlank {c : Char} (h : isBlank c = true) (rest : List Char) :
    EndsNumeral (c :: rest) := by
  rintro _ ⟨⟩
  simp only [isBlank, Bool.or_eq_true, decide_eq_true_eq] at h
  rcases h with ((rfl | rfl) | rfl) | rfl <;> exact ⟨rfl, by decide, by decide, by decide⟩

theorem EndsNumeral.append {ws : List Char} (h : Grammar.Blanks ws) (hr : EndsNumeral rest) :
    EndsNumeral (ws ++ rest) := by
  cases ws with
  | nil => exact hr
  | cons c ws => exact endsNumeral_of_isBlank (h c List.mem_cons_self) _

theorem exists_start_of_value {d : Document} (h : Grammar.Value d text) :
    ∃ c cs, text = c :: cs ∧ StartsValue c := by
  cases h with
  | null => exact ⟨'n', _, rfl, by simp [StartsValue, isBlank]⟩
  | bool b => cases b <;> exact ⟨_, _, rfl, by simp [StartsValue, isBlank]⟩
  | number h =>
      obtain ⟨c, cs, rfl, rfl | hc⟩ := exists_start_of_number h
      · exact ⟨'-', cs, rfl, by simp [StartsValue, isBlank]⟩
      · exact ⟨c, cs, rfl, startsValue_of_isDigit hc⟩
  | text h =>
      obtain ⟨inner, rfl, -⟩ := key_read_of_quoted h
      exact ⟨'"', inner, rfl, by simp [StartsValue, isBlank]⟩
  | array => exact ⟨'[', _, rfl, by simp [StartsValue, isBlank]⟩
  | object => exact ⟨'{', _, rfl, by simp [StartsValue, isBlank]⟩

theorem dropBlanks_of_value {d : Document} (h : Grammar.Value d text) (rest : List Char) :
    dropBlanks (text ++ rest) = text ++ rest := by
  obtain ⟨c, cs, rfl, hc⟩ := exists_start_of_value h
  exact dropBlanks_of_startsValue hc _

theorem exists_start_of_element {d : Document} (h : Grammar.Element d text) (rest : List Char) :
    ∃ c cs, dropBlanks (text ++ rest) = c :: cs ∧ StartsValue c := by
  cases h with
  | intro hb hv ha =>
      obtain ⟨c, cs, rfl, hc⟩ := exists_start_of_value hv
      rw [List.append_assoc, List.append_assoc, dropBlanks_append hb]
      exact ⟨c, _, dropBlanks_of_startsValue hc _, hc⟩

theorem length_pos_of_element {d : Document} (h : Grammar.Element d text) : 0 < text.length := by
  cases h with
  | intro hb hv ha =>
      obtain ⟨c, cs, rfl, -⟩ := exists_start_of_value hv
      simp only [List.length_append, List.length_cons]
      omega

theorem exists_start_of_member {f : String × Document} (h : Grammar.Member f text)
    (rest : List Char) : ∃ cs, dropBlanks (text ++ rest) = '"' :: cs := by
  cases h with
  | intro hb hk ha hd =>
      obtain ⟨inner, rfl, -⟩ := key_read_of_quoted hk
      simp only [List.append_assoc]
      rw [dropBlanks_append hb]
      exact ⟨_, rfl⟩

theorem length_pos_of_member {f : String × Document} (h : Grammar.Member f text) :
    0 < text.length := by
  cases h with
  | intro =>
      simp only [List.length_append, List.length_cons]
      omega

theorem endsNumeral_moreElements {ds : List Document} (h : Grammar.MoreElements ds text)
    (rest : List Char) : EndsNumeral (text ++ ']' :: rest) := by
  cases h with
  | nil => exact endsNumeral_cons (by decide) _
  | cons => exact endsNumeral_cons (by decide) _

theorem endsNumeral_moreMembers {fs : List (String × Document)} (h : Grammar.MoreMembers fs text)
    (rest : List Char) : EndsNumeral (text ++ '}' :: rest) := by
  cases h with
  | nil => exact endsNumeral_cons (by decide) _
  | cons => exact endsNumeral_cons (by decide) _

/-! ### Reading -/

namespace Node

variable {fuel : Nat} {mid next : List Char} {c : Char}

theorem read_plain (hc : StartsValue c) (ha : c ≠ '[') (ho : c ≠ '{') :
    read (fuel + 1) (c :: cs) = (plain (c :: cs), (plain (c :: cs)).after) := by
  simp [read, dropBlanks_of_startsValue hc, ha, ho]

theorem read_array {items : Items} (h : readItems fuel true text = (items, rest)) :
    read (fuel + 1) ('[' :: text) = (.array ('[' :: text) items, rest) := by
  simp [read, dropBlanks, isBlank, h]

theorem read_object {fields : Fields} (h : readFields fuel true text = (fields, rest)) :
    read (fuel + 1) ('{' :: text) = (.object ('{' :: text) fields, rest) := by
  simp [read, dropBlanks, isBlank, h]

theorem readItems_closed (first : Bool) (h : dropBlanks text = ']' :: rest) :
    readItems (fuel + 1) first text = (.closed rest, rest) := by
  simp only [readItems, h]

theorem readItems_first (h : dropBlanks text = c :: cs) (hc : StartsValue c) :
    readItems (fuel + 1) true text = readItem fuel (c :: cs) := by
  simp [readItems, h, hc.2.1]

theorem readItems_next (h : dropBlanks text = ',' :: next) (hn : dropBlanks next = c :: cs)
    (hc : StartsValue c) : readItems (fuel + 1) false text = readItem fuel (c :: cs) := by
  simp [readItems, h, hn, hc.2.1]

theorem readItem_eq {node : Node} {items : Items} (h : read fuel text = (node, mid))
    (hm : readItems fuel false mid = (items, rest)) :
    readItem (fuel + 1) text = (.item node items, rest) := by
  simp only [readItem, h, hm]

theorem readFields_closed (first : Bool) (h : dropBlanks text = '}' :: rest) :
    readFields (fuel + 1) first text = (.closed rest, rest) := by
  simp only [readFields, h]

theorem readFields_first (h : dropBlanks text = '"' :: cs) :
    readFields (fuel + 1) true text = readField fuel ('"' :: cs) := by
  simp [readFields, h]

theorem readFields_next (h : dropBlanks text = ',' :: next) (hn : dropBlanks next = '"' :: cs) :
    readFields (fuel + 1) false text = readField fuel ('"' :: cs) := by
  simp [readFields, h, hn]

theorem read_dropBlanks (text : List Char) :
    read (fuel + 1) (dropBlanks text) = read (fuel + 1) text := by
  rw [read, read, dropBlanks_idem]

/-- A number is read as a node that holds it. -/
theorem read_number {n : Numeral} (h : Grammar.Number n text) (hr : EndsNumeral rest) :
    ∃ node, read (fuel + 1) (text ++ rest) = (node, rest) ∧ node.Holds (.number n) := by
  have hnumber : number (text ++ rest) =
      .scalar (text ++ rest) rest ((n.value rest).map .number) none := by
    rw [number, read_of_number h hr]
  obtain ⟨c, cs, rfl, hc⟩ := exists_start_of_number h
  -- no other value starts with a minus sign or a digit
  have hne : ∀ c' : Char, c' ≠ '-' → c'.isDigit = false → c ≠ c' := by
    rintro _ hm hd rfl
    exact hc.elim hm fun h => by rw [h] at hd; cases hd
  have hplain : plain (c :: cs ++ rest) = number (c :: cs ++ rest) := by
    rw [List.cons_append, plain, if_neg (hne 'n' (by decide) rfl), if_neg (hne 't' (by decide) rfl),
      if_neg (hne 'f' (by decide) rfl), if_neg (hne '"' (by decide) rfl), if_pos (by simpa using hc)]
  have hstart : StartsValue c := by
    rcases hc with rfl | hc
    · simp [StartsValue, isBlank]
    · exact startsValue_of_isDigit hc
  have hread : read (fuel + 1) (c :: (cs ++ rest)) = _ :=
    read_plain hstart (hne '[' (by decide) rfl) (hne '{' (by decide) rfl)
  rw [← List.cons_append, hplain, hnumber] at hread
  exact ⟨_, hread, .number _ _ n (read_of_number h hr)⟩

/-- A quoted string is read as a node that holds it. -/
theorem read_quoted {s : String} (h : Grammar.Quoted s text) :
    ∃ node, read (fuel + 1) (text ++ rest) = (node, rest) ∧ node.Holds (.text s) := by
  obtain ⟨inner, rfl, hk⟩ := key_read_of_quoted h
  have hplain : plain ('"' :: inner ++ rest) =
      .scalar ('"' :: inner ++ rest) rest (.ok (.text s)) none := by
    simp [plain, string, hk, Except.map]
  have hread : read (fuel + 1) ('"' :: (inner ++ rest)) = _ :=
    read_plain (by simp [StartsValue, isBlank]) (by decide) (by decide)
  rw [← List.cons_append, hplain] at hread
  exact ⟨_, hread, .text _ _ s⟩

theorem read_dropBlanks_of_pos (h : 0 < fuel) (text : List Char) :
    read fuel (dropBlanks text) = read fuel text := by
  obtain ⟨fuel, rfl⟩ := Nat.exists_eq_succ_of_ne_zero (Nat.ne_of_gt h)
  exact read_dropBlanks text

theorem readField_of_key {key : Key} {node : Node} {fields : Fields} (hk : Key.read cs = key)
    (hc : dropBlanks key.after = ':' :: next) (h : read fuel next = (node, mid))
    (hm : readFields fuel false mid = (fields, rest)) :
    readField (fuel + 1) ('"' :: cs) = (.field key node fields, rest) := by
  simp only [readField, hk, hc, h, hm]

/-! An item takes two steps besides those of its value, which the bracket or the comma in front of it
pays for: so the bounds on the steps of the four lists below. -/

mutual

/-- A value is read, given three steps for each of its characters. -/
theorem read_of_value {d : Document} {text : List Char} :
    Grammar.Value d text → ∀ fuel, 3 * text.length ≤ fuel → ∀ {rest}, EndsNumeral rest →
      ∃ node, read fuel (text ++ rest) = (node, rest) ∧ node.Holds d
  -- a value is never empty, so there is always a first step
  | h, 0, hf, _, _ => by
      obtain ⟨c, cs, rfl, -⟩ := exists_start_of_value h
      rw [List.length_cons] at hf
      omega
  | .null, fuel + 1, _, rest, _ =>
      ⟨_, read_plain (by simp [StartsValue, isBlank]) (by decide) (by decide), .null _ _⟩
  | .bool true, fuel + 1, _, rest, _ =>
      ⟨_, read_plain (by simp [StartsValue, isBlank]) (by decide) (by decide), .bool _ _ true⟩
  | .bool false, fuel + 1, _, rest, _ =>
      ⟨_, read_plain (by simp [StartsValue, isBlank]) (by decide) (by decide), .bool _ _ false⟩
  | .number h, fuel + 1, _, _, hr => read_number h hr
  | .text h, fuel + 1, _, _, _ => read_quoted h
  | .array h, fuel + 1, hf, rest, _ => by
      simp only [List.length_append, List.length_cons, List.length_nil] at hf
      obtain ⟨items, hi, hd⟩ := readItems_of_elements h fuel (by omega) rest
      rw [List.append_assoc, List.cons_append]
      exact ⟨_, read_array hi, .array _ hd⟩
  | .object h, fuel + 1, hf, rest, _ => by
      simp only [List.length_append, List.length_cons, List.length_nil] at hf
      obtain ⟨fields, hi, hd⟩ := readFields_of_members h fuel (by omega) rest
      rw [List.append_assoc, List.cons_append]
      exact ⟨_, read_object hi, .object _ hd⟩

/-- A value is read past the blanks before it; those behind it are left. -/
theorem read_of_element {d : Document} {text : List Char} :
    Grammar.Element d text → ∀ fuel, 3 * text.length ≤ fuel → ∀ {rest}, EndsNumeral rest →
      ∃ node ws, Grammar.Blanks ws ∧ read fuel (text ++ rest) = (node, ws ++ rest) ∧ node.Holds d
  | h, 0, hf, _, _ => absurd (length_pos_of_element h) (by omega)
  | @Grammar.Element.intro _ before text after hb hv ha, fuel + 1, hf, rest, hr => by
      simp only [List.length_append] at hf
      obtain ⟨node, hread, hd⟩ := read_of_value hv (fuel + 1) (by omega) (hr.append ha)
      refine ⟨node, after, ha, ?_, hd⟩
      rw [List.append_assoc, List.append_assoc, ← read_dropBlanks, dropBlanks_append hb,
        dropBlanks_of_value hv, hread]

/-- Items are read up to and including the closing bracket. -/
theorem readItems_of_elements {ds : List Document} {text : List Char} :
    Grammar.Elements ds text → ∀ fuel, 3 * text.length + 3 ≤ fuel → ∀ rest,
      ∃ items, readItems fuel true (text ++ ']' :: rest) = (items, rest) ∧ ItemsHold items ds
  | _, 0, hf, _ => absurd hf (by omega)
  | _, 1, hf, _ => absurd hf (by omega)
  | .nil h, fuel + 1, _, rest =>
      ⟨_, readItems_closed true (by rw [dropBlanks_append h]; rfl), .closed _⟩
  | @Grammar.Elements.cons _ _ text more hd hm, fuel + 2, hf, rest => by
      simp only [List.length_append] at hf
      have hpos := length_pos_of_element hd
      obtain ⟨c, cs, hcs, hc⟩ := exists_start_of_element hd (more ++ ']' :: rest)
      obtain ⟨node, ws, hws, hread, hn⟩ :=
        read_of_element hd fuel (by omega) (endsNumeral_moreElements hm rest)
      obtain ⟨items, hi, his⟩ := readItems_of_moreElements hm fuel (by omega) hws rest
      refine ⟨_, ?_, .item hn his⟩
      rw [← read_dropBlanks_of_pos (by omega)] at hread
      rw [List.append_assoc, readItems_first hcs hc, ← hcs]
      exact readItem_eq hread hi

/-- Further items are read, past the blanks that the item before has left. -/
theorem readItems_of_moreElements {ds : List Document} {text : List Char} :
    Grammar.MoreElements ds text → ∀ fuel, 3 * text.length + 1 ≤ fuel →
      ∀ {ws}, Grammar.Blanks ws → ∀ rest,
      ∃ items, readItems fuel false (ws ++ (text ++ ']' :: rest)) = (items, rest) ∧
        ItemsHold items ds
  | _, 0, hf, _, _, _ => absurd hf (by omega)
  | .nil, fuel + 1, _, _, hws, rest =>
      ⟨_, readItems_closed false (by rw [dropBlanks_append hws]; rfl), .closed _⟩
  | .cons _ _, 1, hf, _, _, _ => by
      rw [List.length_append, List.length_cons] at hf
      omega
  | @Grammar.MoreElements.cons _ _ text more hd hm, fuel + 2, hf, ws, hws, rest => by
      rw [List.length_append, List.length_cons] at hf
      have hpos := length_pos_of_element hd
      obtain ⟨c, cs, hcs, hc⟩ := exists_start_of_element hd (more ++ ']' :: rest)
      obtain ⟨node, ws', hws', hread, hn⟩ :=
        read_of_element hd fuel (by omega) (endsNumeral_moreElements hm rest)
      obtain ⟨items, hi, his⟩ := readItems_of_moreElements hm fuel (by omega) hws' rest
      have hcomma : dropBlanks (ws ++ (',' :: text ++ more ++ ']' :: rest)) =
          ',' :: (text ++ (more ++ ']' :: rest)) := by
        rw [dropBlanks_append hws, List.append_assoc]
        rfl
      refine ⟨_, ?_, .item hn his⟩
      rw [← read_dropBlanks_of_pos (by omega)] at hread
      rw [readItems_next hcomma hcs hc, ← hcs]
      exact readItem_eq hread hi

/-- Fields are read up to and including the closing brace. -/
theorem readFields_of_members {fs : List (String × Document)} {text : List Char} :
    Grammar.Members fs text → ∀ fuel, 3 * text.length + 3 ≤ fuel → ∀ rest,
      ∃ fields, readFields fuel true (text ++ '}' :: rest) = (fields, rest) ∧ FieldsHold fields fs
  | _, 0, hf, _ => absurd hf (by omega)
  | _, 1, hf, _ => absurd hf (by omega)
  | .nil h, fuel + 1, _, rest =>
      ⟨_, readFields_closed true (by rw [dropBlanks_append h]; rfl), .closed _⟩
  | @Grammar.Members.cons _ _ text more hp hm, fuel + 2, hf, rest => by
      rw [List.length_append] at hf
      have hpos := length_pos_of_member hp
      obtain ⟨cs, hcs⟩ := exists_start_of_member hp (more ++ '}' :: rest)
      obtain ⟨key, node, ws, hk, hs, hn, hws, hread⟩ :=
        readField_of_member hp fuel (by omega) (endsNumeral_moreMembers hm rest)
      obtain ⟨fields, hi, his⟩ := readFields_of_moreMembers hm fuel (by omega) hws rest
      refine ⟨_, ?_, .field hk hs hn his⟩
      rw [List.append_assoc, readFields_first hcs, ← hcs]
      exact hread hi

/-- Further fields are read, past the blanks that the field before has left. -/
theorem readFields_of_moreMembers {fs : List (String × Document)} {text : List Char} :
    Grammar.MoreMembers fs text → ∀ fuel, 3 * text.length + 1 ≤ fuel →
      ∀ {ws}, Grammar.Blanks ws → ∀ rest,
      ∃ fields, readFields fuel false (ws ++ (text ++ '}' :: rest)) = (fields, rest) ∧
        FieldsHold fields fs
  | _, 0, hf, _, _, _ => absurd hf (by omega)
  | .nil, fuel + 1, _, _, hws, rest =>
      ⟨_, readFields_closed false (by rw [dropBlanks_append hws]; rfl), .closed _⟩
  | .cons _ _, 1, hf, _, _, _ => by
      rw [List.length_append, List.length_cons] at hf
      omega
  | @Grammar.MoreMembers.cons _ _ text more hp hm, fuel + 2, hf, ws, hws, rest => by
      rw [List.length_append, List.length_cons] at hf
      have hpos := length_pos_of_member hp
      obtain ⟨cs, hcs⟩ := exists_start_of_member hp (more ++ '}' :: rest)
      obtain ⟨key, node, ws', hk, hs, hn, hws', hread⟩ :=
        readField_of_member hp fuel (by omega) (endsNumeral_moreMembers hm rest)
      obtain ⟨fields, hi, his⟩ := readFields_of_moreMembers hm fuel (by omega) hws' rest
      have hcomma : dropBlanks (ws ++ (',' :: text ++ more ++ '}' :: rest)) =
          ',' :: (text ++ (more ++ '}' :: rest)) := by
        rw [dropBlanks_append hws, List.append_assoc]
        rfl
      refine ⟨_, ?_, .field hk hs hn his⟩
      rw [readFields_next hcomma hcs, ← hcs]
      exact hread hi

/-- A field is read as its name and a node that holds its value, whatever fields follow. -/
theorem readField_of_member {f : String × Document} {text : List Char} :
    Grammar.Member f text → ∀ fuel, 3 * text.length ≤ fuel → ∀ {rest}, EndsNumeral rest →
      ∃ key node ws, key.name = .ok f.1 ∧ key.skip = none ∧ node.Holds f.2 ∧ Grammar.Blanks ws ∧
        ∀ {fields after}, readFields fuel false (ws ++ rest) = (fields, after) →
          readField (fuel + 1) (dropBlanks (text ++ rest)) = (.field key node fields, after)
  | @Grammar.Member.intro name d before key after text hb hk ha hd, fuel, hf, rest, hr => by
      simp only [List.length_append, List.length_cons] at hf
      obtain ⟨node, ws, hws, hread, hn⟩ := read_of_element hd fuel (by omega) hr
      obtain ⟨inner, rfl, hkey⟩ := key_read_of_quoted hk
      have hcolon : dropBlanks (after ++ (':' :: text ++ rest)) = ':' :: (text ++ rest) := by
        rw [dropBlanks_append ha]
        rfl
      have hstart : dropBlanks (before ++ '"' :: inner ++ after ++ ':' :: text ++ rest) =
          '"' :: (inner ++ (after ++ (':' :: text ++ rest))) := by
        simp only [List.append_assoc]
        rw [dropBlanks_append hb]
        rfl
      -- the reader passes over the blanks behind the colon by itself
      refine ⟨⟨.ok name, none, after ++ (':' :: text ++ rest)⟩, node, ws, rfl, rfl, hn, hws,
        fun hm => ?_⟩
      rw [hstart]
      exact readField_of_key (hkey _) hcolon hread hm

end

end Node

/-- **A text of the grammar is read**: as a node that holds its document, and nothing but blanks is
left. -/
theorem ofText_of_element {d : Document} (h : Grammar.Element d text) :
    ∃ node after, Node.ofText text = (node, after) ∧ node.Holds d ∧ dropBlanks after = [] := by
  obtain ⟨node, ws, hws, hread, hd⟩ := Node.read_of_element h (Node.steps text)
    (by simp only [Node.steps]; omega) endsNumeral_nil
  rw [List.append_nil] at hread
  exact ⟨node, _, hread, hd, by rw [dropBlanks_append hws]; rfl⟩

/-! ### Written values -/

mutual

/-- A node holds a value. -/
inductive Node.Shows : Node → Value → Prop where
  | null (here after : List Char) : Node.Shows (.scalar here after (.ok .null) none) .null
  | bool (here after : List Char) (b : Bool) :
      Node.Shows (.scalar here after (.ok (.bool b)) none) (.bool b)
  | number (here after : List Char) (n : UInt64) :
      Node.Shows (.scalar here after (.ok (.number (.natural n))) none) (.number n.toNat)
  | text (here after : List Char) (s : String) :
      Node.Shows (.scalar here after (.ok (.text s)) none) (.text s)
  | array (here : List Char) {items : Items} {vs : List Value} (h : ItemsShow items vs) :
      Node.Shows (.array here items) (.array vs)
  | object (here : List Char) {fields : Fields} {fs : List (String × Value)}
      (h : FieldsShow fields fs) : Node.Shows (.object here fields) (.object fs)

/-- A closed list of items holds a list of values. -/
inductive ItemsShow : Items → List Value → Prop where
  | closed (after : List Char) : ItemsShow (.closed after) []
  | item {node : Node} {rest : Items} {v : Value} {vs : List Value} (hv : node.Shows v)
      (hr : ItemsShow rest vs) : ItemsShow (.item node rest) (v :: vs)

/-- A closed list of fields holds a list of named values. -/
inductive FieldsShow : Fields → List (String × Value) → Prop where
  | closed (after : List Char) : FieldsShow (.closed after) []
  | field {key : Key} {node : Node} {rest : Fields} {name : String} {v : Value}
      {fs : List (String × Value)} (hk : key.name = .ok name) (hs : key.skip = none)
      (hv : node.Shows v) (hr : FieldsShow rest fs) :
      FieldsShow (.field key node rest) ((name, v) :: fs)

end

mutual

/-- Every number in a value is a 64-bit word. -/
def Value.FitsWords : Value → Prop
  | .null => True
  | .bool _ => True
  | .number n => n < UInt64.size
  | .text _ => True
  | .array vs => ItemsFitWords vs
  | .object fs => FieldsFitWords fs

/-- Every number in a list of values is a 64-bit word. -/
def ItemsFitWords : List Value → Prop
  | [] => True
  | v :: vs => v.FitsWords ∧ ItemsFitWords vs

/-- Every number in a list of fields is a 64-bit word. -/
def FieldsFitWords : List (String × Value) → Prop
  | [] => True
  | (_, v) :: fs => v.FitsWords ∧ FieldsFitWords fs

end

theorem itemsFitWords_map {α : Type} {enc : α → Value} {as : List α}
    (h : ∀ a ∈ as, (enc a).FitsWords) : ItemsFitWords (as.map enc) := by
  induction as with
  | nil => exact trivial
  | cons a as ih =>
      exact ⟨h a List.mem_cons_self, ih fun b hb => h b (List.mem_cons_of_mem a hb)⟩

mutual

/-- What holds the document a value is written as shows that value, if its numbers are words. -/
theorem Node.Holds.shows {node : Node} :
    ∀ {v : Value}, node.Holds v.toDocument → v.FitsWords → node.Shows v
  | .null, .null here after, _ => .null here after
  | .bool b, .bool here after _, _ => .bool here after b
  | .number n, .number here after _ _, hv => by
      have hn := Node.Shows.number here after (UInt64.ofNat n)
      rw [UInt64.toNat_ofNat_of_lt' hv] at hn
      rw [value_digits hv]
      exact hn
  | .text s, .text here after _, _ => .text here after s
  | .array _, .array here h, hv => .array here (h.shows hv)
  | .object _, .object here h, hv => .object here (h.shows hv)

theorem ItemsHold.shows {items : Items} :
    ∀ {vs : List Value}, ItemsHold items (itemsToDocuments vs) → ItemsFitWords vs →
      ItemsShow items vs
  | [], .closed after, _ => .closed after
  | _ :: _, .item hd hr, ⟨hv, hvs⟩ => .item (hd.shows hv) (hr.shows hvs)

theorem FieldsHold.shows {fields : Fields} :
    ∀ {fs : List (String × Value)}, FieldsHold fields (fieldsToDocuments fs) →
      FieldsFitWords fs → FieldsShow fields fs
  | [], .closed after, _ => .closed after
  | (_, _) :: _, .field hk hs hd hr, ⟨hv, hfs⟩ => .field hk hs (hd.shows hv) (hr.shows hfs)

end

/-- **A written value is read back.** -/
theorem ofText_compact {v : Value} (hv : v.FitsWords) :
    ∃ node, Node.ofText v.compact = (node, []) ∧ node.Shows v := by
  obtain ⟨node, hread, hd⟩ := Node.read_of_value (Grammar.value_compact v)
    (Node.steps v.compact) (by simp only [Node.steps]; omega) endsNumeral_nil
  rw [List.append_nil] at hread
  exact ⟨node, hread, hd.shows hv⟩

end BlankLines.Json
