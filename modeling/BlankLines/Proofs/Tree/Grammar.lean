import BlankLines.Proofs.Json.Judging
import BlankLines.Proofs.Tree.RoundTrip

/-!
# Proofs — Tree — the grammar of trees

Which JSON texts are trees, said without the reader.

A record may also be written as an array of its parts in order, and a kind as an object with the
kind's name for its only field.  Of the texts that do neither (`Document.TreeUnlisted`) and do not
nest deeper than the reader goes, exactly those are trees whose document follows the grammar below,
at every depth and whatever the kinds of the nodes around.

* `Document.IsPosition`, `Document.IsSpan`, `Document.IsComment`: positions and spans may have
  further fields, comments may not.
* `Document.IsStatement`, `Document.IsDeclaration`: a kind, a span, and perhaps a body.
* `Document.IsTree`: a file.
* `SourceTree.ofFileText_isTree`: the reader accepts these and refuses all others.
-/

namespace BlankLines
open Json (Decoder Document FieldRule Layout Node Obeys)

namespace Json.Document

/-! ### The grammar -/

/-- What is asked of a line and a column; the column may be left out. -/
def placeRules : List FieldRule :=
  [⟨"line", true, IsWord⟩, ⟨"column", false, IsWord⟩]

/-- A position. -/
def IsPosition (d : Document) : Prop :=
  d.IsRecord false placeRules

/-- A comment. -/
def IsComment (d : Document) : Prop :=
  d.IsRecord true placeRules

/-- A span. -/
def IsSpan (d : Document) : Prop :=
  d.IsRecord false [⟨"start", true, IsPosition⟩, ⟨"end", true, IsPosition⟩]

/-- A list of what `item` holds of. -/
def IsList (item : Document → Prop) (d : Document) : Prop :=
  ∃ ds, d = .array ds ∧ ∀ e ∈ ds, item e

/-- Null, or what `value` holds of. -/
def IsNullOr (value : Document → Prop) (d : Document) : Prop :=
  d = .null ∨ value d

/-- One of the names. -/
def IsName (names : List String) (d : Document) : Prop :=
  ∃ s ∈ names, d = .text s

/-- What is asked of a declaration or a statement: a kind, a span, and perhaps a body of
statements. -/
def nodeRules (kinds : List String) (statement : Document → Prop) : List FieldRule :=
  [⟨"kind", true, IsName kinds⟩, ⟨"span", true, IsSpan⟩,
    ⟨"body", false, IsNullOr (IsList statement)⟩]

/-- The kinds of statements. -/
def statementKinds : List String :=
  ["if", "for", "range", "switch", "type_switch", "select", "block", "clause", "simple"]

/-- The kinds of declarations. -/
def declarationKinds : List String :=
  ["function", "type", "var", "const", "import"]

/-- A statement: its own fields obey their rules, and what its body lists are statements. -/
inductive IsStatement : Document → Prop where
  | intro {fs : List (String × Document)}
      (h : Obeys true (nodeRules statementKinds fun _ => True) fs)
      (hb : ∀ ds, ("body", .array ds) ∈ fs → ∀ e ∈ ds, IsStatement e) : IsStatement (.object fs)

/-- A declaration. -/
def IsDeclaration (d : Document) : Prop :=
  d.IsRecord true (nodeRules declarationKinds IsStatement)

/-- A file: its declarations, and perhaps the path of its source and its comments. -/
def IsTree (d : Document) : Prop :=
  d.IsRecord true
    [⟨"source", false, IsNullOr fun v => ∃ s, v = .text s⟩,
      ⟨"declarations", true, IsList IsDeclaration⟩, ⟨"comments", false, IsList IsComment⟩]

/-! ### Records that are no arrays -/

/-- Not an array. -/
def Unlisted (d : Document) : Prop :=
  ∀ ds, d ≠ .array ds

/-- Neither the span nor its positions are arrays. -/
def SpanUnlisted (d : Document) : Prop :=
  d.Unlisted ∧ ∀ fs, d = .object fs → ∀ v, ("start", v) ∈ fs ∨ ("end", v) ∈ fs → v.Unlisted

/-- Neither the node, its span and its positions nor those of the statements in it are arrays, and
none of their kinds is an object. -/
inductive NodeUnlisted : Document → Prop where
  | intro {d : Document} (hd : d.Unlisted)
      (hk : ∀ fs, d = .object fs → ∀ v, ("kind", v) ∈ fs → ∀ fs', v ≠ .object fs')
      (hs : ∀ fs, d = .object fs → ∀ v, ("span", v) ∈ fs → v.SpanUnlisted)
      (hb : ∀ fs, d = .object fs → ∀ ds, ("body", .array ds) ∈ fs → ∀ e ∈ ds, NodeUnlisted e) :
      NodeUnlisted d

/-- No record of the tree is an array, and no kind is an object. -/
structure TreeUnlisted (d : Document) : Prop where
  tree : d.Unlisted
  declarations : ∀ fs, d = .object fs → ∀ ds, ("declarations", .array ds) ∈ fs →
    ∀ e ∈ ds, e.NodeUnlisted
  comments : ∀ fs, d = .object fs → ∀ ds, ("comments", .array ds) ∈ fs → ∀ e ∈ ds, e.Unlisted

section
variable {kinds : List String} {statement : Document → Prop} {fs : List (String × Document)}

theorem allowed_nodeRules_iff :
    (∀ r ∈ nodeRules kinds statement, ∀ v, (r.name, v) ∈ fs → r.allows v) ↔
      (∀ v, ("kind", v) ∈ fs → v.IsName kinds) ∧ (∀ v, ("span", v) ∈ fs → v.IsSpan) ∧
        ∀ v, ("body", v) ∈ fs → v.IsNullOr (IsList statement) := by
  simp [nodeRules]

theorem allowed_body_iff :
    (∀ v, ("body", v) ∈ fs → v.IsNullOr (IsList statement)) ↔
      (∀ v, ("body", v) ∈ fs → v.IsNullOr (IsList fun _ => True)) ∧
        ∀ ds, ("body", .array ds) ∈ fs → ∀ e ∈ ds, statement e := by
  constructor
  · intro h
    refine ⟨fun v hv => (h v hv).imp_right fun ⟨ds, hds, _⟩ => ⟨ds, hds, fun _ _ => trivial⟩, ?_⟩
    intro ds hds
    obtain hnull | ⟨ds', he, hstatements⟩ := h _ hds
    · cases hnull
    · cases he
      exact hstatements
  · rintro ⟨h, hb⟩ v hv
    refine (h v hv).imp_right ?_
    rintro ⟨ds, rfl, -⟩
    exact ⟨ds, rfl, hb ds hv⟩

/-- The rules of a node, apart from what is asked of each statement in its body. -/
theorem obeys_nodeRules_iff :
    Obeys true (nodeRules kinds statement) fs ↔
      Obeys true (nodeRules kinds fun _ => True) fs ∧
        ∀ ds, ("body", .array ds) ∈ fs → ∀ e ∈ ds, statement e := by
  constructor
  · intro h
    obtain ⟨hkind, hspan, hbody⟩ := allowed_nodeRules_iff.mp h.allowed
    obtain ⟨hbody, hstatements⟩ := allowed_body_iff.mp hbody
    exact ⟨⟨by simpa [nodeRules] using h.present, by simpa [nodeRules] using h.once,
      allowed_nodeRules_iff.mpr ⟨hkind, hspan, hbody⟩, by simpa [nodeRules] using h.known⟩,
      hstatements⟩
  · rintro ⟨h, hstatements⟩
    obtain ⟨hkind, hspan, hbody⟩ := allowed_nodeRules_iff.mp h.allowed
    have hbody := allowed_body_iff.mpr ⟨hbody, hstatements⟩
    exact ⟨by simpa [nodeRules] using h.present, by simpa [nodeRules] using h.once,
      allowed_nodeRules_iff.mpr ⟨hkind, hspan, hbody⟩, by simpa [nodeRules] using h.known⟩

end

/-- A statement is a record like a declaration, with statements in its body. -/
theorem isStatement_iff {d : Document} :
    d.IsStatement ↔ d.IsRecord true (nodeRules statementKinds IsStatement) := by
  constructor
  · rintro ⟨h, hb⟩
    exact ⟨_, rfl, obeys_nodeRules_iff.mpr ⟨h, hb⟩⟩
  · rintro ⟨fs, rfl, h⟩
    obtain ⟨h, hb⟩ := obeys_nodeRules_iff.mp h
    exact ⟨h, hb⟩

end Json.Document

/-! ### Positions, spans and comments -/

variable {node : Node} {d : Document} {levels : Nat}

theorem follows_place (fs : List (String × Document)) :
    (Layout.part ⟨"line", Json.word, none⟩ <|
      .part ⟨"column", Json.word, some (1 : UInt64)⟩ .done).Follows fs Document.placeRules :=
  .part rfl rfl (fun _ _ _ hn => Json.succeeds_word_iff hn) <|
    .part rfl rfl (fun _ _ _ hn => Json.succeeds_word_iff hn) .done

theorem Position.succeeds_ofJson_iff (h : node.Holds d) (hdepth : d.depth ≤ levels)
    (hd : d.Unlisted) : Succeeds (Position.ofJson levels node) ↔ d.IsPosition := by
  rw [Position.ofJson, succeeds_map]
  exact Json.succeeds_record_iff h hdepth hd (fun fs _ => follows_place fs) (by decide)

theorem Comment.succeeds_ofJson_iff (h : node.Holds d) (hdepth : d.depth ≤ levels)
    (hd : d.Unlisted) : Succeeds (Comment.ofJson levels node) ↔ d.IsComment := by
  rw [Comment.ofJson, succeeds_map]
  exact Json.succeeds_record_iff h hdepth hd (fun fs _ => follows_place fs) (by decide)

/-- What stands in an object leaves it a level. -/
theorem depth_le_pred_of_mem {name : String} {v : Document} {fs : List (String × Document)}
    (hv : (name, v) ∈ fs) (hdepth : (Document.object fs).depth ≤ levels) :
    v.depth ≤ levels - 1 :=
  Nat.le_sub_one_of_lt (Nat.lt_of_lt_of_le (Document.depth_lt_of_mem_object hv) hdepth)

theorem Span.succeeds_ofJson_iff (h : node.Holds d) (hdepth : d.depth ≤ levels)
    (hd : d.SpanUnlisted) : Succeeds (Span.ofJson levels node) ↔ d.IsSpan := by
  have hposition : ∀ fs, d = .object fs → ∀ name, name = "start" ∨ name = "end" →
      ∀ v, (name, v) ∈ fs → ∀ node : Node, node.Holds v →
        (Succeeds (Position.ofJson (levels - 1) node) ↔ v.IsPosition) := by
    rintro fs rfl name hname v hv node hn
    refine Position.succeeds_ofJson_iff hn (depth_le_pred_of_mem hv hdepth) ?_
    refine hd.2 fs rfl v ?_
    rcases hname with rfl | rfl
    · exact .inl hv
    · exact .inr hv
  rw [Span.ofJson, succeeds_map]
  exact Json.succeeds_record_iff h hdepth hd.1
    (fun fs hfs => .part rfl rfl (hposition fs hfs "start" (.inl rfl)) <|
      .part rfl rfl (hposition fs hfs "end" (.inr rfl)) .done) (by simp [Layout.names])

/-! ### Statements and declarations -/

/-- A kind, a span and perhaps a block are accepted if they obey the rules of a node whose
statements the block's reader accepts. -/
theorem succeeds_nodeOfJson_iff {κ : Type} {kinds : List (String × κ)} {block : Decoder Block}
    {statement : Document → Prop} (h : node.Holds d) (hdepth : d.depth ≤ levels)
    (hd : d.NodeUnlisted)
    (hblock : ∀ fs, d = .object fs → ∀ v, ("body", v) ∈ fs → ∀ node : Node, node.Holds v →
      (Succeeds (block node) ↔ v.IsList statement)) (name : String) :
    Succeeds (nodeOfJson levels name kinds block node) ↔
      d.IsRecord true (Document.nodeRules (kinds.map Prod.fst) statement) := by
  obtain ⟨hd, hkind, hspan, -⟩ := hd
  refine Json.succeeds_record_iff h hdepth hd (fun fs hfs => ?_) (by simp [Layout.names])
  subst hfs
  refine .part rfl rfl (fun v hv node hn => ?_) <| .part rfl rfl (fun v hv node hn => ?_) <|
    .part rfl rfl (fun v hv node hn => ?_) .done
  · exact Json.succeeds_choice_iff hn (hkind fs rfl v hv)
  · exact Span.succeeds_ofJson_iff hn (depth_le_pred_of_mem hv hdepth) (hspan fs rfl v hv)
  · rw [Json.succeeds_nullable_iff hn, hblock fs rfl v hv node hn]
    exact Iff.rfl

/-- A block is accepted if what it lists is. -/
theorem Statement.succeeds_blockOfJson_iff {statement : Document → Prop} (h : node.Holds d)
    (hdepth : d.depth ≤ levels)
    (hstatement : ∀ ds, d = .array ds → ∀ e ∈ ds, ∀ node : Node, node.Holds e →
      e.depth ≤ levels - 1 → (Succeeds (Statement.ofJson (levels - 1) node) ↔ statement e)) :
    Succeeds (Statement.blockOfJson levels node) ↔ d.IsList statement := by
  refine Json.succeeds_list_iff h hdepth fun ds hds e he node hn => ?_
  subst hds
  refine hstatement ds rfl e he node hn ?_
  exact Nat.le_sub_one_of_lt (Nat.lt_of_lt_of_le (Document.depth_lt_of_mem_array he) hdepth)

/-- **A statement is accepted exactly if it follows the grammar**, within any number of levels that
its depth does not exceed. -/
theorem Statement.succeeds_ofJson_iff (hd : d.NodeUnlisted) :
    ∀ {levels : Nat} {node : Node}, node.Holds d → d.depth ≤ levels →
      (Succeeds (Statement.ofJson levels node) ↔ d.IsStatement) := by
  -- along the statements in the body, which the reader meets two levels further down
  induction hd with
  | @intro d hd hk hs hb ih =>
  intro levels node h hdepth
  rw [Document.isStatement_iff, Statement.ofJson_eq, Statement.ofParts, succeeds_map]
  refine succeeds_nodeOfJson_iff h hdepth ⟨hd, hk, hs, hb⟩ (fun fs hfs v hv node hn => ?_) _
  subst hfs
  refine Statement.succeeds_blockOfJson_iff hn (depth_le_pred_of_mem hv hdepth) ?_
  rintro ds rfl e he node hn hle
  exact ih fs rfl ds hv e he hn hle

theorem Declaration.succeeds_ofJson_iff (h : node.Holds d) (hdepth : d.depth ≤ levels)
    (hd : d.NodeUnlisted) : Succeeds (Declaration.ofJson levels node) ↔ d.IsDeclaration := by
  rw [Declaration.ofJson, succeeds_map]
  refine succeeds_nodeOfJson_iff h hdepth hd (fun fs hfs v hv node hn => ?_) _
  subst hfs
  refine Statement.succeeds_blockOfJson_iff hn (depth_le_pred_of_mem hv hdepth) ?_
  rintro ds rfl e he node hn hle
  obtain ⟨-, -, -, hb⟩ := hd
  exact Statement.succeeds_ofJson_iff (hb fs rfl ds hv e he) hn hle

/-! ### Trees -/

namespace SourceTree

/-- **A tree is accepted exactly if it follows the grammar.** -/
theorem succeeds_ofJson_iff (h : node.Holds d) (hdepth : d.depth ≤ Json.depthLimit)
    (hd : d.TreeUnlisted) : Succeeds (ofJson Json.depthLimit node) ↔ d.IsTree := by
  rw [ofJson_eq, succeeds_map]
  refine Json.succeeds_record_iff h hdepth hd.tree (fun fs hfs => ?_)
    (by simp [layout, Layout.names])
  subst hfs
  have hinside : ∀ {name : String} {v : Document}, (name, v) ∈ fs → v.depth ≤ 126 :=
    fun hv => depth_le_pred_of_mem hv hdepth
  have hitem : ∀ {name : String} {ds : List Document}, (name, .array ds) ∈ fs → ∀ e ∈ ds,
      e.depth ≤ 125 := fun hds e he =>
    Nat.le_of_lt_succ (Nat.lt_of_lt_of_le (Document.depth_lt_of_mem_array he) (hinside hds))
  refine .part rfl rfl (fun v hv node hn => ?_) <| .part rfl rfl (fun v hv node hn => ?_) <|
    .part rfl rfl (fun v hv node hn => ?_) .done
  · rw [sourceOfJson, Json.succeeds_nullable_iff hn, succeeds_map, Json.succeeds_text_iff hn]
    exact Iff.rfl
  · refine Json.succeeds_list_iff hn (hinside hv) ?_
    rintro ds rfl e he node hn
    exact Declaration.succeeds_ofJson_iff hn (hitem hv e he) (hd.declarations fs rfl ds hv e he)
  · refine Json.succeeds_list_iff hn (hinside hv) ?_
    rintro ds rfl e he node hn
    exact Comment.succeeds_ofJson_iff hn (hitem hv e he) (hd.comments fs rfl ds hv e he)

/-- **The grammar of trees.**  A JSON text that does not nest deeper than 127 arrays and objects,
and in which no record is written as an array and no kind as an object, is read exactly if its
document is a tree, and is refused as a bad tree if it is not. -/
theorem ofFileText_isTree (origin : Path) {text : String} {d : Document}
    (htext : Json.Grammar.Element d text.toList) (hdepth : d.depth ≤ 127)
    (hd : d.TreeUnlisted) :
    ((∃ t, ofFileText origin text = .ok t) ↔ d.IsTree) ∧
    (¬ d.IsTree → ∃ c, ofFileText origin text = .error (.badTree origin c)) := by
  obtain ⟨node, after, hread, hn, hafter⟩ := Json.ofText_of_element htext
  have hiff : (∃ t, ofFileText origin text = .ok t) ↔ d.IsTree := by
    rw [← succeeds_ofJson_iff hn hdepth hd]
    simp only [ofFileText_eq_ok_iff, hread, hafter, and_true]
    exact Iff.rfl
  exact ⟨hiff, fun h => exists_badTree fun t ht => h (hiff.mp ⟨t, ht⟩)⟩

/-! ### A file with fields that nothing asks for -/

open Json (Value fieldsToDocuments itemsToDocuments)
open Json.Document

/-- A position with a field that nothing asks for. -/
def markedPlace : Value :=
  .object [("line", .number 1), ("file", .text "main.go")]

/-- A span between such positions. -/
def markedSpan : Value :=
  .object [("start", markedPlace), ("end", markedPlace)]

/-- A file with one variable, in whose body stands one statement of a kind. -/
def variableWith (kind : String) : Value :=
  .object [("declarations", .array [.object [("kind", .text "var"), ("span", markedSpan),
    ("body", .array [.object [("kind", .text kind), ("span", markedSpan), ("body", .null)]])]])]

theorem isSpan_markedSpan : markedSpan.toDocument.IsSpan := by
  have hline : (Document.number ⟨false, Json.digits 1, [], none⟩).IsWord :=
    ⟨_, rfl, rfl, rfl, rfl, by decide⟩
  have hplace : markedPlace.toDocument.IsPosition := by
    simp [markedPlace, Value.toDocument, fieldsToDocuments, IsPosition, IsRecord, Json.obeys_iff,
      placeRules, hline]
  simp [markedSpan, Value.toDocument, fieldsToDocuments, IsSpan, IsRecord, Json.obeys_iff, hplace]

/-- The kind of the statement is checked although no analysis looks at it. -/
theorem isTree_variableWith_iff (kind : String) :
    (variableWith kind).toDocument.IsTree ↔ kind ∈ statementKinds := by
  have hleaf : (Document.object [("kind", .text kind), ("span", markedSpan.toDocument),
      ("body", .null)]).IsStatement ↔ kind ∈ statementKinds := by
    simp [isStatement_iff, IsRecord, Json.obeys_iff, nodeRules, isSpan_markedSpan, IsName,
      IsNullOr, or_imp, forall_and]
  simp [variableWith, Value.toDocument, fieldsToDocuments, itemsToDocuments, IsTree, IsList,
    IsDeclaration, IsRecord, Json.obeys_iff, nodeRules, isSpan_markedSpan, IsName, IsNullOr,
    declarationKinds, hleaf, or_imp, forall_and]

theorem treeUnlisted_variableWith (kind : String) :
    (variableWith kind).toDocument.TreeUnlisted := by
  have hspan : markedSpan.toDocument.SpanUnlisted := by
    simp [markedSpan, markedPlace, Value.toDocument, fieldsToDocuments, SpanUnlisted, Unlisted]
  have hleaf : (Document.object [("kind", .text kind), ("span", markedSpan.toDocument),
      ("body", .null)]).NodeUnlisted :=
    ⟨by simp [Unlisted], by simp, by simp [hspan], by simp⟩
  have hvariable : (Document.object [("kind", .text "var"), ("span", markedSpan.toDocument),
      ("body", .array [.object [("kind", .text kind), ("span", markedSpan.toDocument),
        ("body", .null)]])]).NodeUnlisted :=
    ⟨by simp [Unlisted], by simp, by simp [hspan], by simp [hleaf]⟩
  exact ⟨by simp [variableWith, Value.toDocument, Unlisted],
    by simp [variableWith, Value.toDocument, fieldsToDocuments, itemsToDocuments, hvariable],
    by simp [variableWith, Value.toDocument, fieldsToDocuments]⟩

/-- The file is read with a kind that statements have, and refused with one they do not have. -/
theorem ofFileText_isTree_variableWith :
    (∃ t, ofFileText ⟨"dump.json"⟩ (variableWith "simple").toText = .ok t) ∧
    ∃ c, ofFileText ⟨"dump.json"⟩ (variableWith "goto").toText =
      .error (.badTree ⟨"dump.json"⟩ c) := by
  refine ⟨?_, ?_⟩
  · refine (ofFileText_isTree _ (Json.Grammar.element_toText _) (by decide)
      (treeUnlisted_variableWith _)).1.mpr ?_
    rw [isTree_variableWith_iff]
    decide
  · refine (ofFileText_isTree _ (Json.Grammar.element_toText _) (by decide)
      (treeUnlisted_variableWith _)).2 ?_
    rw [isTree_variableWith_iff]
    decide

end SourceTree

end BlankLines
