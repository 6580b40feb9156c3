import BlankLines.Proofs.Json.Reading

/-!
# Proofs — Json — values written for people

The form with one item or field a line differs from the compact one in its blanks alone.  Each line
break belongs to the blanks around a value: that before an item stands in front of it, that before a
closing bracket stands behind the last item.

* `Grammar.value_pretty`: what the writer makes of a value is in the grammar.
* `ofText_pretty`: it is read back, also with blanks behind it.
-/

namespace BlankLines.Json

namespace Grammar

theorem blanks_newLine (level : Nat) : Blanks (newLine level) := by
  intro c hc
  rcases List.mem_cons.mp hc with rfl | hc
  · rfl
  · rw [List.eq_of_mem_replicate hc]
    rfl

/-- A written name, a colon and a value with blanks around them make a field. -/
theorem Value.spacedMember {name : String} {d : Document} {text before after : List Char}
    (h : Value d text) (hb : Blanks before) (ha : Blanks after) :
    Member (name, d) (before ++ (quote name ++ ':' :: ' ' :: text) ++ after) := by
  have hspace : Blanks [' '] := by simp [Blanks, isBlank]
  simpa using Member.intro hb (quoted_quote name) blanks_nil (Element.intro hspace h ha)

mutual

/-- **The form of a value for people is in the grammar.** -/
theorem value_pretty : ∀ (v : Json.Value) (level : Nat), Value v.toDocument (v.pretty level)
  | .null, _ => .null
  | .bool b, _ => .bool b
  | .number n, _ => .number (number_digits n)
  | .text s, _ => .text (quoted_quote s)
  | .array vs, level => by
      obtain ⟨text, ht, h⟩ := elements_pretty vs level
      rw [Json.Value.pretty, ht]
      exact .array h
  | .object fs, level => by
      obtain ⟨text, ht, h⟩ := members_pretty fs level
      rw [Json.Value.pretty, ht]
      exact .object h

theorem elements_pretty : ∀ (vs : List Json.Value) (level : Nat),
    ∃ text, Json.Value.prettyItems level vs = text ++ [']'] ∧ Elements (itemsToDocuments vs) text
  | [], _ => ⟨[], rfl, .nil blanks_nil⟩
  | v :: vs, level => by
      obtain ⟨ws, more, ht, hws, h⟩ := moreElements_pretty vs level
      refine ⟨newLine (level + 1) ++ v.pretty (level + 1) ++ ws ++ more, ?_,
        .cons (.intro (blanks_newLine _) (value_pretty v _) hws) h⟩
      simp only [Json.Value.prettyItems, ht, List.append_assoc]

/-- The blanks in front belong to the item before. -/
theorem moreElements_pretty : ∀ (vs : List Json.Value) (level : Nat),
    ∃ ws text, Json.Value.prettyMore level vs = ws ++ text ++ [']'] ∧ Blanks ws ∧
      MoreElements (itemsToDocuments vs) text
  | [], level => ⟨newLine level, [], by simp [Json.Value.prettyMore], blanks_newLine _, .nil⟩
  | v :: vs, level => by
      obtain ⟨ws, more, ht, hws, h⟩ := moreElements_pretty vs level
      refine ⟨[], ',' :: (newLine (level + 1) ++ v.pretty (level + 1) ++ ws) ++ more, ?_,
        blanks_nil, .cons (.intro (blanks_newLine _) (value_pretty v _) hws) h⟩
      simp only [Json.Value.prettyMore, ht, List.append_assoc, List.cons_append, List.nil_append]

theorem members_pretty : ∀ (fs : List (String × Json.Value)) (level : Nat),
    ∃ text, Json.Value.prettyFields level fs = text ++ ['}'] ∧ Members (fieldsToDocuments fs) text
  | [], _ => ⟨[], rfl, .nil blanks_nil⟩
  | (name, v) :: fs, level => by
      obtain ⟨ws, more, ht, hws, h⟩ := moreMembers_pretty fs level
      refine ⟨newLine (level + 1) ++ (quote name ++ ':' :: ' ' :: v.pretty (level + 1)) ++ ws ++
        more, ?_, .cons ((value_pretty v _).spacedMember (blanks_newLine _) hws) h⟩
      simp only [Json.Value.prettyFields, Json.Value.prettyField, ht, List.append_assoc,
        List.cons_append]

/-- The blanks in front belong to the field before. -/
theorem moreMembers_pretty : ∀ (fs : List (String × Json.Value)) (level : Nat),
    ∃ ws text, Json.Value.prettyMoreFields level fs = ws ++ text ++ ['}'] ∧ Blanks ws ∧
      MoreMembers (fieldsToDocuments fs) text
  | [], level => ⟨newLine level, [], by simp [Json.Value.prettyMoreFields], blanks_newLine _, .nil⟩
  | (name, v) :: fs, level => by
      obtain ⟨ws, more, ht, hws, h⟩ := moreMembers_pretty fs level
      refine ⟨[], ',' :: (newLine (level + 1) ++
        (quote name ++ ':' :: ' ' :: v.pretty (level + 1)) ++ ws) ++ more, ?_, blanks_nil,
        .cons ((value_pretty v _).spacedMember (blanks_newLine _) hws) h⟩
      simp only [Json.Value.prettyMoreFields, Json.Value.prettyField, ht, List.append_assoc,
        List.cons_append, List.nil_append]

end

end Grammar

/-- **A value written for people is read back**, whatever blanks follow it. -/
theorem ofText_pretty {v : Value} (hv : v.FitsWords) {blanks : List Char}
    (hb : Grammar.Blanks blanks) :
    ∃ node after, Node.ofText (v.pretty 0 ++ blanks) = (node, after) ∧ node.Shows v ∧
      dropBlanks after = [] := by
  have hv' := Grammar.Element.intro Grammar.blanks_nil (Grammar.value_pretty v 0) hb
  obtain ⟨node, after, hread, hholds, hafter⟩ := ofText_of_element hv'
  exact ⟨node, after, hread, hholds.shows hv, hafter⟩

end BlankLines.Json
