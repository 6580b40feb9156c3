import BlankLines.Check.Files
import BlankLines.Proofs.Json.Accepting
import BlankLines.Proofs.Json.Reading

/-!
# Proofs — Tree — what is a tree at its top

A tree is read from an object that names its declarations, or from an array of what its fields
hold (`SourceTree.InFieldOrder`), and from nothing else.

* `SourceTree.ofFileText_eq_ok`: a text that is read has one of the two forms.
* `SourceTree.ofFileText_of_not_hasDeclarations`: a text whose top is no object with declarations
  is read exactly if it has the second, and is refused as a bad tree if it has not.
-/

namespace BlankLines
open Json (Decoder Items Layout Node dropBlanks)

namespace SourceTree

/-! ### The parts of a tree -/

/-- The source path of a tree. -/
def sourceOfJson : Decoder (Option Path) :=
  Json.nullable fun node => (Json.text "path string" node).map Path.mk

/-- The declarations of a tree. -/
def declarationsOfJson : Decoder (List Declaration) :=
  Json.list 126 (Declaration.ofJson 125)

/-- The comments of a tree. -/
def commentsOfJson : Decoder (List Comment) :=
  Json.list 126 (Comment.ofJson 125)

/-- The parts of a tree that is the outermost value of its text. -/
def layout :
    Layout (Option (Option Path) × Option (List Declaration) × Option (List Comment) × Unit)
      (Option Path × List Declaration × List Comment × Unit) :=
  .part ⟨"source", sourceOfJson, some none⟩ <|
  .part ⟨"declarations", declarationsOfJson, none⟩ <|
  .part ⟨"comments", commentsOfJson, some []⟩ .done

theorem ofJson_eq (node : Node) :
    ofJson Json.depthLimit node = (Json.record 127 "SourceFile" true layout node).map
      fun (source, declarations, comments, _) => ⟨source, declarations, comments⟩ :=
  rfl

/-! ### The two forms -/

/-- The top of a text is an object that names its declarations. -/
def HasDeclarations (text : String) : Prop :=
  ∃ here fields, (Node.ofText text.toList).1 = .object here fields ∧
    fields.HasName "declarations"

/-- The items of an array are what the fields of a tree hold, in order: a source path or null, the
declarations, and the comments unless they are left out. -/
inductive Listed : Items → SourceTree → Prop where
  | two {first second : Node} {after : List Char} {source : Option Path}
      {declarations : List Declaration} (hs : sourceOfJson first = .ok source)
      (hd : declarationsOfJson second = .ok declarations) :
      Listed (.item first (.item second (.closed after))) ⟨source, declarations, []⟩
  | three {first second third : Node} {after : List Char} {source : Option Path}
      {declarations : List Declaration} {comments : List Comment}
      (hs : sourceOfJson first = .ok source) (hd : declarationsOfJson second = .ok declarations)
      (hc : commentsOfJson third = .ok comments) :
      Listed (.item first (.item second (.item third (.closed after))))
        ⟨source, declarations, comments⟩

/-- A text is an array of what the fields of a tree hold. -/
def InFieldOrder (text : String) (t : SourceTree) : Prop :=
  ∃ here items after, Node.ofText text.toList = (.array here items, after) ∧ Listed items t ∧
    dropBlanks after = []

theorem recordItems_layout_iff {wanted : String} {items : Items} {source : Option Path}
    {declarations : List Declaration} {comments : List Comment} :
    Json.recordItems wanted layout 0 items = .ok (source, declarations, comments, ()) ↔
      Listed items ⟨source, declarations, comments⟩ := by
  simp only [layout, Json.recordItems_part_iff, Json.recordItems_done_iff]
  constructor
  · -- an array that ends before its second item lacks the declarations
    rintro (⟨_, _, rfl, hs, ⟨_, _, rfl, hd, h⟩ | ⟨_, rfl, ⟨⟩, _⟩⟩ |
      ⟨_, rfl, _, ⟨_, _, ⟨⟩, _⟩ | ⟨_, _, ⟨⟩, _⟩⟩)
    rcases h with ⟨_, _, rfl, hc, _, rfl⟩ | ⟨_, rfl, ⟨⟩, _⟩
    · exact .three hs hd hc
    · exact .two hs hd
  · intro h
    cases h with
    | two hs hd =>
        exact .inl ⟨_, _, rfl, hs, .inl ⟨_, _, rfl, hd, .inr ⟨_, rfl, rfl, _, rfl⟩⟩⟩
    | three hs hd hc =>
        exact .inl ⟨_, _, rfl, hs, .inl ⟨_, _, rfl, hd, .inl ⟨_, _, rfl, hc, _, rfl⟩⟩⟩

/-- An array is a tree exactly if its items are what the fields hold. -/
theorem ofJson_array_iff {here : List Char} {items : Items} {t : SourceTree} :
    ofJson Json.depthLimit (.array here items) = .ok t ↔ Listed items t := by
  rw [ofJson_eq, map_eq_ok_iff]
  constructor
  · rintro ⟨⟨source, declarations, comments, _⟩, h, rfl⟩
    exact recordItems_layout_iff.mp h
  · intro h
    exact ⟨(t.source, t.declarations, t.comments, ()), recordItems_layout_iff.mpr h, rfl⟩

/-- An object that is a tree names its declarations. -/
theorem hasName_of_ofJson {here : List Char} {fields : Json.Fields} {t : SourceTree}
    (h : ofJson Json.depthLimit (.object here fields) = .ok t) : fields.HasName "declarations" := by
  obtain ⟨x, hx, -⟩ := map_eq_ok_iff.mp h
  exact Json.hasName_of_recordFields (l := layout) rfl fields (layout.isRead_start _) hx

/-- What is no array and no object is no tree. -/
theorem array_or_object_of_ofJson {node : Node} {t : SourceTree}
    (h : ofJson Json.depthLimit node = .ok t) :
    (∃ here items, node = .array here items) ∨ ∃ here fields, node = .object here fields := by
  obtain ⟨_, h, -⟩ := map_eq_ok_iff.mp h
  cases node with
  | array here items => exact .inl ⟨here, items, rfl⟩
  | object here fields => exact .inr ⟨here, fields, rfl⟩
  | absent here => exact absurd h (Json.mismatch_ne_ok _ _ _)
  | scalar here after value skip => exact absurd h (Json.mismatch_ne_ok _ _ _)

/-! ### Whole texts -/

theorem ofFileText_eq_ok_iff {origin : Path} {text : String} {t : SourceTree} :
    ofFileText origin text = .ok t ↔
      ofJson Json.depthLimit (Node.ofText text.toList).1 = .ok t ∧
        dropBlanks (Node.ofText text.toList).2 = [] := by
  have hd : ofFileText origin text = .ok t ↔
      Json.decodeChars (ofJson Json.depthLimit) text.toList = .ok t := by
    simp only [ofFileText, ofText, Json.decodeText]
    cases Json.decodeChars (ofJson Json.depthLimit) text.toList <;> simp [Except.mapError]
  rw [hd, Json.decodeChars, bind_eq_ok_iff]
  constructor
  · rintro ⟨t', ht, h⟩
    split at h
    next hb =>
      cases h
      exact ⟨ht, hb⟩
    next => cases h
  · rintro ⟨ht, hb⟩
    refine ⟨t, ht, ?_⟩
    simp only [hb]
    rfl

/-- A text that is not read is a bad tree. -/
theorem exists_badTree {origin : Path} {text : String}
    (h : ∀ t, ofFileText origin text ≠ .ok t) :
    ∃ c, ofFileText origin text = .error (.badTree origin c) := by
  cases hr : ofText text with
  | ok t => exact absurd (by simp [ofFileText, hr, Except.mapError]) (h t)
  | error c => exact ⟨c, by simp [ofFileText, hr, Except.mapError]⟩

theorem InFieldOrder.ofFileText {text : String} {t : SourceTree} (h : InFieldOrder text t)
    (origin : Path) : ofFileText origin text = .ok t := by
  obtain ⟨here, items, after, hr, hi, hb⟩ := h
  rw [ofFileText_eq_ok_iff, hr]
  exact ⟨ofJson_array_iff.mpr hi, hb⟩

/-- A text that is read has one of the two forms. -/
theorem ofFileText_eq_ok {origin : Path} {text : String} {t : SourceTree}
    (h : ofFileText origin text = .ok t) : HasDeclarations text ∨ InFieldOrder text t := by
  obtain ⟨ht, hb⟩ := ofFileText_eq_ok_iff.mp h
  rcases array_or_object_of_ofJson ht with ⟨here, items, hn⟩ | ⟨here, fields, hn⟩
  · rw [hn] at ht
    exact .inr ⟨here, items, _, Prod.ext hn rfl, ofJson_array_iff.mp ht, hb⟩
  · rw [hn] at ht
    exact .inl ⟨here, fields, hn, hasName_of_ofJson ht⟩

/-- **Apart from objects with declarations, only arrays in field order are trees.**  A text whose
top is no object that names its declarations is read exactly if it is an array of what the fields
hold, and is refused as a bad tree otherwise. -/
theorem ofFileText_of_not_hasDeclarations (origin : Path) (text : String)
    (h : ¬ HasDeclarations text) :
    (∀ t, ofFileText origin text = .ok t ↔ InFieldOrder text t) ∧
    ((∀ t, ¬ InFieldOrder text t) →
      ∃ c, ofFileText origin text = .error (.badTree origin c)) := by
  have hiff : ∀ t, ofFileText origin text = .ok t ↔ InFieldOrder text t := fun t =>
    ⟨fun ht => (ofFileText_eq_ok ht).resolve_left h, fun ht => ht.ofFileText origin⟩
  exact ⟨hiff, fun hn => exists_badTree fun t ht => hn t ((hiff t).mp ht)⟩

/-- A text that is null is a bad tree. -/
theorem ofFileText_null :
    ∃ c, ofFileText ⟨"dump.json"⟩ "null" = .error (.badTree ⟨"dump.json"⟩ c) := by
  obtain ⟨node, hr, hs⟩ := Json.ofText_compact (v := .null) trivial
  have hr : Node.ofText "null".toList = (node, []) := hr
  cases hs with
  | null here after =>
      refine (ofFileText_of_not_hasDeclarations ⟨"dump.json"⟩ "null" ?_).2 ?_
      · rintro ⟨_, _, h, _⟩
        rw [hr] at h
        cases h
      · rintro t ⟨_, _, _, h, _⟩
        rw [hr] at h
        cases h

/-- The empty tree is read from an array. -/
theorem ofFileText_null_nil :
    ofFileText ⟨"dump.json"⟩ "[null,[]]" = .ok {} ∧ ¬ HasDeclarations "[null,[]]" := by
  obtain ⟨node, hr, hs⟩ := Json.ofText_compact (v := .array [.null, .array []])
    ⟨trivial, trivial, trivial⟩
  have hr : Node.ofText "[null,[]]".toList = (node, []) := hr
  obtain ⟨here, items, rfl, hi⟩ : ∃ here items, node = .array here items ∧ Listed items {} := by
    cases hs with
    | array here hi =>
        cases hi with
        | item hfirst hi =>
            cases hi with
            | item hsecond hi =>
                cases hfirst
                cases hsecond with
                | array _ hd =>
                    cases hd
                    cases hi
                    exact ⟨here, _, rfl, .two rfl rfl⟩
  refine ⟨InFieldOrder.ofFileText ⟨here, items, [], hr, hi, rfl⟩ _, fun ⟨_, _, h, _⟩ => ?_⟩
  rw [hr] at h
  cases h

end SourceTree

end BlankLines
