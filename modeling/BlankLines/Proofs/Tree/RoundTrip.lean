import BlankLines.Proofs.Json.Decoding
import BlankLines.Proofs.Tree.TopLevel
import BlankLines.Tree.Encode

/-!
# Proofs — Tree — written and read again

A tree that is written and read again is the same tree, or is refused for its depth.

Reading opens at most `Json.depthLimit` arrays and objects at once.  The tree, its declarations and
a declaration open three, a block one, and each statement two for itself and the block around the
next; a statement's span and its positions need two more inside it.  So a statement is reached with
levels to spare exactly when it lies at most 61 blocks deep.

* **One statement** is read within any number of levels it fits in (`Statement.ofJson_reads`),
  by recursion on the statement.
* **A tree** fits in the limit exactly when no statement is deeper
  (`SourceTree.fitsIn_iff_atLevel`), and is then read back (`SourceTree.ofFileText_toText`).
-/

namespace BlankLines
open Json (Decoder Fault FieldsFitWords Layout Node Part ReadsWithin Value)

variable {node : Node}

/-! ### Positions, spans and comments -/

/-- A line and a column, as positions and comments write them. -/
theorem writes_place (line column : UInt64) :
    (Layout.part ⟨"line", Json.word, none⟩ <| .part ⟨"column", Json.word, some 1⟩ .done).Writes
      [("line", .number line.toNat), ("column", .number column.toNat)] (True ∧ True ∧ True)
      (line, column, ()) :=
  .present (fun _ h => .of_eq (Json.word_reads h)) <|
    .present (fun _ h => .of_eq (Json.word_reads h)) .done

theorem Position.ofJson_reads (p : Position) (levels : Nat) (h : node.Shows p.toJson) :
    ReadsWithin (Position.ofJson levels node) (levels ≠ 0) p := by
  have hw := writes_place p.line p.column
  have hr := Json.record_reads levels "Position" false hw (by decide) h
  have hp : ReadsWithin (Position.ofJson levels node) _ p := hr.map _
  exact hp.of_iff (by simp)

theorem Comment.ofJson_reads (c : Comment) (levels : Nat) (h : node.Shows c.toJson) :
    ReadsWithin (Comment.ofJson levels node) (levels ≠ 0) c := by
  have hw := writes_place c.line c.column
  have hr := Json.record_reads levels "CommentSpan" true hw (by decide) h
  have hc : ReadsWithin (Comment.ofJson levels node) _ c := hr.map _
  exact hc.of_iff (by simp)

theorem Span.ofJson_reads (s : Span) (levels : Nat) (h : node.Shows s.toJson) :
    ReadsWithin (Span.ofJson levels node) (2 ≤ levels) s := by
  have hw : (Layout.part ⟨"start", Position.ofJson (levels - 1), none⟩ <|
      .part ⟨"end", Position.ofJson (levels - 1), none⟩ .done).Writes
      [("start", s.start.toJson), ("end", s.stop.toJson)]
      (levels - 1 ≠ 0 ∧ levels - 1 ≠ 0 ∧ True) (s.start, s.stop, ()) :=
    .present (fun _ hn => s.start.ofJson_reads _ hn) <|
      .present (fun _ hn => s.stop.ofJson_reads _ hn) .done
  have hr := Json.record_reads levels "Span" false hw (by simp [Layout.names]) h
  have hs : ReadsWithin (Span.ofJson levels node) _ s := hr.map _
  refine hs.of_iff ⟨?_, fun h => ⟨by omega, by omega, by omega, trivial⟩⟩
  rintro ⟨-, h, -⟩
  omega

/-! ### Statements and declarations -/

namespace Statement

mutual

/-- A statement can be read within a number of levels: it takes three itself, and two less are left
for those in its body. -/
def FitsIn (levels : Nat) : Statement → Prop
  | ⟨_, _, body⟩ => 3 ≤ levels ∧ BodyFitsIn (levels - 2) body

/-- The statements of a body, if there is one, can be read within a number of levels. -/
def BodyFitsIn (levels : Nat) : Option (List Statement) → Prop
  | none => True
  | some block => BlockFitsIn levels block

/-- The statements of a block can be read within a number of levels. -/
def BlockFitsIn (levels : Nat) : List Statement → Prop
  | [] => True
  | s :: rest => FitsIn levels s ∧ BlockFitsIn levels rest

end

theorem blockFitsIn_iff {levels : Nat} {block : Block} :
    BlockFitsIn levels block ↔ ∀ s ∈ block, FitsIn levels s := by
  induction block with
  | nil => simp [BlockFitsIn]
  | cons s rest ih => rw [BlockFitsIn, ih, List.forall_mem_cons]

theorem fitsIn_iff {levels : Nat} {s : Statement} :
    s.FitsIn levels ↔
      3 ≤ levels ∧ ∀ block, s.body = some block → ∀ t ∈ block, t.FitsIn (levels - 2) := by
  obtain ⟨_, _, _ | block⟩ := s
  · simp [FitsIn, BodyFitsIn]
  · simp [FitsIn, BodyFitsIn, blockFitsIn_iff]

/-- One level in which no list is opened refuses every block alike. -/
theorem ofJson_eq (levels : Nat) :
    ofJson levels = ofParts levels (blockOfJson (levels - 1)) := by
  have hz : ∀ d : Decoder Statement, Json.list 0 d = Json.list 0 (ofJson 0) := by
    intro d
    funext node
    cases node <;> rfl
  match levels with
  | 0 => rw [ofJson, hz, blockOfJson]
  | 1 => rw [ofJson, hz, blockOfJson]
  | levels + 2 => rw [ofJson, blockOfJson]; rfl

end Statement

/-- A kind, a span and perhaps a block are read with three levels and those the block needs. -/
theorem nodeOfJson_reads {κ : Type} {kinds : List (String × κ)} {kindName : String} {kind : κ}
    {span : Span} {body : Option Block} {block : Decoder Block} {fits : Block → Prop}
    (hk : kinds.lookup kindName = some kind)
    (hb : ∀ b, body = some b → ∀ node : Node, node.Shows (.array (Statement.blockToJson b)) →
      ReadsWithin (block node) (fits b) b)
    (levels : Nat) (name : String)
    (h : node.Shows (.object (("kind", .text kindName) :: ("span", span.toJson) ::
      Statement.bodyFields body))) :
    ReadsWithin (nodeOfJson levels name kinds block node)
      (3 ≤ levels ∧ ∀ b, body = some b → fits b) (kind, span, body, ()) := by
  have hbody : (Layout.part ⟨"body", Json.nullable block, some none⟩ .done).Writes
      (Statement.bodyFields body) (∀ b, body = some b → fits b) (body, ()) := by
    cases body with
    | none => exact Layout.Writes.of_iff (.absent rfl .done) (by simp)
    | some b =>
        have hv : ∀ n : Node, n.Shows (.array (Statement.blockToJson b)) →
            ReadsWithin (Json.nullable block n) (fits b) (some b) :=
          fun n hn => Json.nullable_reads hn (by simp) (hb b rfl n hn)
        exact Layout.Writes.of_iff (.present hv .done) (by simp)
  have hw : (Layout.part ⟨"kind", Json.choice (levels - 1) kinds, none⟩ <|
      .part ⟨"span", Span.ofJson (levels - 1), none⟩ <|
      .part ⟨"body", Json.nullable block, some none⟩ .done).Writes
      (("kind", .text kindName) :: ("span", span.toJson) :: Statement.bodyFields body)
      (True ∧ 2 ≤ levels - 1 ∧ ∀ b, body = some b → fits b) (kind, span, body, ()) :=
    .present (fun _ hn => .of_eq (Json.choice_reads hk _ hn)) <|
      .present (fun _ hn => span.ofJson_reads _ hn) hbody
  have hr := Json.record_reads levels name true hw (by simp [Layout.names]) h
  refine hr.of_iff ⟨?_, ?_⟩
  · rintro ⟨-, -, hs, hb⟩
    exact ⟨by omega, hb⟩
  · rintro ⟨hl, hb⟩
    exact ⟨by omega, trivial, by omega, hb⟩

theorem StatementKind.lookup_name (k : StatementKind) : table.lookup k.name = some k := by
  cases k <;> rfl

theorem DeclarationKind.lookup_name (k : DeclarationKind) : table.lookup k.name = some k := by
  cases k <;> rfl

namespace Statement

theorem blockOfJson_reads {block : Block}
    (hs : ∀ s ∈ block, ∀ (levels : Nat) (node : Node), node.Shows s.toJson →
      ReadsWithin (ofJson levels node) (s.FitsIn levels) s)
    (levels : Nat) (h : node.Shows (.array (blockToJson block))) :
    ReadsWithin (blockOfJson levels node) (levels ≠ 0 ∧ ∀ s ∈ block, s.FitsIn (levels - 1))
      block := by
  rw [blockToJson_eq_map] at h
  exact Json.list_reads levels h fun s hm node hn => hs s hm _ node hn

/-- **A statement is read within the levels it fits in**, and in no fewer. -/
theorem ofJson_reads (s : Statement) : ∀ (levels : Nat) (node : Node), node.Shows s.toJson →
    ReadsWithin (ofJson levels node) (s.FitsIn levels) s := by
  induction s using induct with
  | h s ih =>
  obtain ⟨kind, span, body⟩ := s
  intro levels node h
  have hb : ∀ b, body = some b → ∀ node : Node, node.Shows (.array (blockToJson b)) →
      ReadsWithin (blockOfJson (levels - 1) node)
        (levels - 1 ≠ 0 ∧ ∀ t ∈ b, t.FitsIn (levels - 2)) b :=
    fun b hb _ hn => blockOfJson_reads (ih b hb) (levels - 1) hn
  have hn := nodeOfJson_reads kind.lookup_name hb levels "Statement" h
  have hs : ReadsWithin (ofParts levels (blockOfJson (levels - 1)) node) _ ⟨kind, span, body⟩ :=
    hn.map _
  rw [ofJson_eq]
  -- a statement that fits has levels left for its block, which need not be asked for again
  refine hs.of_iff ⟨?_, fun hf => ?_⟩
  · rintro ⟨hl, hb⟩
    exact fitsIn_iff.mpr ⟨hl, fun b hbody => (hb b hbody).2⟩
  · obtain ⟨hl, hb⟩ := fitsIn_iff.mp hf
    exact ⟨hl, fun b hbody => ⟨by omega, hb b hbody⟩⟩

end Statement

/-- The statements of a declaration's body, if there is one, fit in a number of levels. -/
def Declaration.FitsIn (levels : Nat) (d : Declaration) : Prop :=
  ∀ block, d.body = some block → ∀ s ∈ block, s.FitsIn levels

theorem Declaration.ofJson_reads (d : Declaration) {levels : Nat} (hl : 3 ≤ levels)
    (h : node.Shows d.toJson) :
    ReadsWithin (Declaration.ofJson levels node) (d.FitsIn (levels - 2)) d := by
  have hb : ∀ b, d.body = some b → ∀ node : Node,
      node.Shows (.array (Statement.blockToJson b)) →
      ReadsWithin (Statement.blockOfJson (levels - 1) node)
        (levels - 1 ≠ 0 ∧ ∀ s ∈ b, s.FitsIn (levels - 2)) b :=
    fun b _ _ hn => Statement.blockOfJson_reads (fun s _ => s.ofJson_reads) (levels - 1) hn
  have hn := nodeOfJson_reads d.kind.lookup_name hb levels "Declaration" h
  have hd : ReadsWithin (Declaration.ofJson levels node) _ d := hn.map _
  refine hd.of_iff ⟨?_, fun hf => ⟨hl, fun b hbody => ⟨by omega, hf b hbody⟩⟩⟩
  rintro ⟨-, hb⟩ b hbody
  exact (hb b hbody).2

/-! ### Trees -/

namespace SourceTree

theorem writes_comments (cs : List Comment) :
    (Layout.part ⟨"comments", commentsOfJson, some []⟩ .done).Writes
      [("comments", .array (cs.map Comment.toJson))] True (cs, ()) := by
  refine Layout.Writes.of_iff (.present (fun n hn => ?_) .done) (iff_of_eq (and_true _))
  have hr := Json.list_reads 126 hn fun c _ _ hn => c.ofJson_reads 125 hn
  exact hr.of_iff (by simp)

theorem writes_declarations (ds : List Declaration) (cs : List Comment) :
    (Layout.part ⟨"declarations", declarationsOfJson, none⟩ <|
      .part ⟨"comments", commentsOfJson, some []⟩ .done).Writes
      [("declarations", .array (ds.map Declaration.toJson)),
        ("comments", .array (cs.map Comment.toJson))]
      (∀ d ∈ ds, d.FitsIn 123) (ds, cs, ()) := by
  refine Layout.Writes.of_iff (.present (fun n hn => ?_) (writes_comments cs))
    (iff_of_eq (and_true _))
  have hl : 3 ≤ 125 := by decide
  have hr := Json.list_reads 126 hn fun d _ _ hn => d.ofJson_reads hl hn
  exact hr.of_iff (by simp)

theorem writes_layout (t : SourceTree) :
    layout.Writes (optionalField "source" (t.source.map fun p => .text p.text) ++
        [("declarations", .array (t.declarations.map Declaration.toJson)),
          ("comments", .array (t.comments.map Comment.toJson))])
      (∀ d ∈ t.declarations, d.FitsIn 123) (t.source, t.declarations, t.comments, ()) := by
  have hd := writes_declarations t.declarations t.comments
  cases t.source with
  | none => exact .absent rfl hd
  | some p =>
      refine Layout.Writes.of_iff (.present (fun n hn => ?_) hd) (iff_of_eq (true_and _))
      have hp : (Json.text "path string" n).map Path.mk = .ok p := by
        rw [Json.text_reads _ hn]
        rfl
      exact Json.nullable_reads hn (by simp) (.of_eq hp)

/-- A tree is read whenever its declarations fit: three of the levels go into the tree, the list of
declarations and a declaration, one into its block, and the statements have what is left. -/
theorem ofJson_reads (t : SourceTree) (h : node.Shows t.toJson) :
    ReadsWithin (ofJson Json.depthLimit node) (∀ d ∈ t.declarations, d.FitsIn 123) t := by
  have hn : layout.names.Nodup := by simp [layout, Layout.names]
  have hr := Json.record_reads 127 "SourceFile" true t.writes_layout hn h
  have ht : ReadsWithin (ofJson Json.depthLimit node) _ t := hr.map _
  exact ht.of_iff (by simp)

/-! ### Levels -/

/-- A statement lies at a level of a tree: at level one in the body of a declaration, and one level
deeper in the body of a statement, whatever the kind of either. -/
inductive AtLevel (t : SourceTree) : Nat → Statement → Prop where
  | top {d : Declaration} {block : Block} {s : Statement} (hd : d ∈ t.declarations)
      (hb : d.body = some block) (hs : s ∈ block) : AtLevel t 1 s
  | inner {n : Nat} {s : Statement} {block : Block} {s' : Statement} (h : AtLevel t n s)
      (hb : s.body = some block) (hs : s' ∈ block) : AtLevel t (n + 1) s'

theorem AtLevel.fitsIn {t : SourceTree} {n : Nat} {s : Statement}
    (ht : ∀ d ∈ t.declarations, d.FitsIn 123) (h : t.AtLevel n s) : s.FitsIn (125 - 2 * n) := by
  induction h with
  | top hd hb hs => exact ht _ hd _ hb _ hs
  | @inner n _ _ _ _ hb hs ih =>
      have hf := (Statement.fitsIn_iff.mp ih).2 _ hb _ hs
      rwa [show 125 - 2 * (n + 1) = 125 - 2 * n - 2 by omega]

/-- A statement fits in the levels left at its own level, if none in it lies too deep. -/
theorem AtLevel.fitsIn_of_le {t : SourceTree} (ht : ∀ n s, t.AtLevel n s → n ≤ 61)
    (s : Statement) : ∀ n, t.AtLevel n s → s.FitsIn (125 - 2 * n) := by
  induction s using Statement.induct with
  | h s ih =>
  intro n h
  have hn := ht n s h
  refine Statement.fitsIn_iff.mpr ⟨by omega, fun block hb s' hs => ?_⟩
  rw [show 125 - 2 * n - 2 = 125 - 2 * (n + 1) by omega]
  exact ih block hb s' hs (n + 1) (h.inner hb hs)

/-- **A tree fits exactly when no statement lies deeper than 61.** -/
theorem fitsIn_iff_atLevel (t : SourceTree) :
    (∀ d ∈ t.declarations, d.FitsIn 123) ↔ ∀ n s, t.AtLevel n s → n ≤ 61 := by
  refine ⟨fun ht n s h => ?_, fun ht d hd block hb s hs => ?_⟩
  · have hl := (Statement.fitsIn_iff.mp (h.fitsIn ht)).1
    omega
  · exact AtLevel.fitsIn_of_le ht s 1 (.top hd hb hs)

end SourceTree

/-! ### Words -/

theorem Position.toJson_fitsWords (p : Position) : p.toJson.FitsWords :=
  ⟨p.line.toNat_lt_size, p.column.toNat_lt_size, trivial⟩

theorem Comment.toJson_fitsWords (c : Comment) : c.toJson.FitsWords :=
  ⟨c.line.toNat_lt_size, c.column.toNat_lt_size, trivial⟩

theorem Span.toJson_fitsWords (s : Span) : s.toJson.FitsWords :=
  ⟨s.start.toJson_fitsWords, s.stop.toJson_fitsWords, trivial⟩

namespace Statement

theorem bodyFields_fitWords {body : Option Block}
    (h : ∀ b, body = some b → ∀ s ∈ b, s.toJson.FitsWords) : FieldsFitWords (bodyFields body) := by
  cases body with
  | none => exact trivial
  | some b =>
      refine ⟨?_, trivial⟩
      rw [blockToJson_eq_map]
      exact Json.itemsFitWords_map (h b rfl)

theorem toJson_fitsWords (s : Statement) : s.toJson.FitsWords := by
  induction s using induct with
  | h s ih =>
  obtain ⟨kind, span, body⟩ := s
  exact ⟨trivial, span.toJson_fitsWords, bodyFields_fitWords ih⟩

end Statement

theorem Declaration.toJson_fitsWords (d : Declaration) : d.toJson.FitsWords :=
  ⟨trivial, d.span.toJson_fitsWords,
    Statement.bodyFields_fitWords fun _ _ s _ => s.toJson_fitsWords⟩

namespace SourceTree

theorem toJson_fitsWords (t : SourceTree) : t.toJson.FitsWords := by
  have h : FieldsFitWords [("declarations", .array (t.declarations.map Declaration.toJson)),
      ("comments", .array (t.comments.map Comment.toJson))] :=
    ⟨Json.itemsFitWords_map fun d _ => d.toJson_fitsWords,
      Json.itemsFitWords_map fun c _ => c.toJson_fitsWords, trivial⟩
  obtain ⟨_ | p, _, _⟩ := t
  · exact h
  · exact ⟨trivial, h⟩

/-! ### Reading back -/

/-- A written tree whose declarations fit is read back. -/
theorem ofFileText_of_fitsIn {t : SourceTree} (h : ∀ d ∈ t.declarations, d.FitsIn 123)
    (origin : Path) : ofFileText origin t.toJson.toText = .ok t := by
  obtain ⟨node, hread, hshows⟩ := Json.ofText_compact t.toJson_fitsWords
  have ht : t.toJson.toText.toList = t.toJson.compact := String.toList_ofList
  rw [ofFileText_eq_ok_iff, ht, hread]
  exact ⟨(t.ofJson_reads hshows).value h, rfl⟩

/-- **A written tree is read back**, or refused for its depth: it is the same tree if no statement
lies deeper than level 61, and a complaint about the depth if one does. -/
theorem ofFileText_toText (origin : Path) (t : SourceTree) :
    ((∀ n s, t.AtLevel n s → n ≤ 61) → ofFileText origin t.toJson.toText = .ok t) ∧
    ((∃ n s, t.AtLevel n s ∧ 62 ≤ n) → ∃ c : Json.Complaint, c.cause = .tooDeep ∧
      ofFileText origin t.toJson.toText = .error (.badTree origin c)) := by
  obtain ⟨node, hread, hshows⟩ := Json.ofText_compact t.toJson_fitsWords
  have hr := (t.ofJson_reads hshows).of_iff t.fitsIn_iff_atLevel
  have ht : t.toJson.toText.toList = t.toJson.compact := String.toList_ofList
  refine ⟨fun h => ?_, fun ⟨n, s, hs, hn⟩ => ?_⟩
  · simp only [ofFileText, ofText, Json.decodeText, Json.decodeChars, ht, hread, hr.value h]
    rfl
  · obtain ⟨f, hf, hc⟩ := hr.depth fun h => by have := h n s hs; omega
    refine ⟨f.locate t.toJson.compact, hc, ?_⟩
    simp only [ofFileText, ofText, Json.decodeText, Json.decodeChars, ht, hread, hf]
    rfl

/-- A function whose body holds one statement inside `count` blocks. -/
def nested (count : Nat) : SourceTree :=
  { declarations :=
      [⟨.function, .lines 1 1, some [Statement.wrapped ⟨.simple, .lines 1 1, none⟩ count]⟩] }

/-- Each level of a nested tree holds what is left of its blocks, down to the statement. -/
theorem atLevel_nested {count n : Nat} {s : Statement} :
    (nested count).AtLevel n s ↔
      ∃ k, k + n = count + 1 ∧ n ≠ 0 ∧ s = Statement.wrapped ⟨.simple, .lines 1 1, none⟩ k := by
  constructor
  · intro h
    induction h with
    | top hd hb hs =>
        obtain rfl := List.mem_singleton.mp hd
        obtain rfl := Option.some.inj hb
        exact ⟨count, rfl, by decide, List.mem_singleton.mp hs⟩
    | inner h hb hs ih =>
        obtain ⟨_ | k, hk, -, rfl⟩ := ih
        · cases hb
        · obtain rfl := Option.some.inj hb
          exact ⟨k, by omega, by omega, List.mem_singleton.mp hs⟩
  · rintro ⟨k, hk, hn, rfl⟩
    induction n generalizing k with
    | zero => exact absurd rfl hn
    | succ n ih =>
        rcases Nat.eq_zero_or_pos n with rfl | hn
        · obtain rfl : k = count := by omega
          exact .top List.mem_cons_self rfl List.mem_cons_self
        · exact .inner (ih (k + 1) (by omega) (by omega)) rfl List.mem_cons_self

/-- The depth at which reading back begins to fail. -/
theorem ofFileText_toText_nested :
    ofFileText ⟨"tree.json"⟩ (nested 60).toJson.toText = .ok (nested 60) ∧
    ∃ c : Json.Complaint, c.cause = .tooDeep ∧
      ofFileText ⟨"tree.json"⟩ (nested 61).toJson.toText = .error (.badTree ⟨"tree.json"⟩ c) := by
  refine ⟨(ofFileText_toText ⟨"tree.json"⟩ (nested 60)).1 fun n s h => ?_,
    (ofFileText_toText ⟨"tree.json"⟩ (nested 61)).2
      ⟨62, _, atLevel_nested.mpr ⟨0, rfl, by decide, rfl⟩, by decide⟩⟩
  obtain ⟨k, hk, -, -⟩ := atLevel_nested.mp h
  omega

end SourceTree

end BlankLines
