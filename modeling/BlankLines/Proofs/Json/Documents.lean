import BlankLines.Proofs.Json.Grammar

/-!
# Proofs — Json — what a document says

Readers that know documents alone: neither the text nor the order of fields matters to them.  They
are strict: a field that comes twice is as bad as one that is missing, and a number is one that is
written with digits alone.

* `Document.field?`, `Document.optional?`: what an object has under a name.
* `Document.list?_toDocument`: a written list is read if its items are.
* `Document.under_toDocument_cons`: what a written object has under a name, field by field.
-/

namespace BlankLines.Json.Document

variable {α : Type}

/-! ### Values -/

def bool? : Document → Option Bool
  | .bool b => some b
  | _       => none

def text? : Document → Option String
  | .text s => some s
  | _       => none

/-- The number that digits write. -/
def natural? : Document → Option Nat
  | .number ⟨false, whole, [], none⟩ => some (Nat.ofDigitChars 10 whole 0)
  | _                                => none

/-- A number that a 64-bit word holds. -/
def word? (d : Document) : Option UInt64 :=
  d.natural?.bind fun n => if n < UInt64.size then some (UInt64.ofNat n) else none

/-- A list, each of its items read. -/
def list? (read : Document → Option α) : Document → Option (List α)
  | .array ds => ds.mapM read
  | _         => none

/-- One of the values that a table has names for. -/
def choice? (name : α → String) (all : List α) (d : Document) : Option α :=
  d.text?.bind fun s => all.find? fun a => name a = s

@[simp] theorem bool?_toDocument (b : Bool) : (Value.bool b).toDocument.bool? = some b := rfl

@[simp] theorem text?_toDocument (s : String) : (Value.text s).toDocument.text? = some s := rfl

@[simp] theorem natural?_toDocument (n : Nat) : (Value.number n).toDocument.natural? = some n :=
  congrArg some Nat.ofDigitChars_ten_toDigits

@[simp] theorem word?_toDocument (n : UInt64) :
    (Value.number n.toNat).toDocument.word? = some n := by
  rw [word?, natural?_toDocument, Option.bind_some, if_pos n.toNat_lt, UInt64.ofNat_toNat]

/-- A written list is read item by item. -/
theorem list?_toDocument_map {β : Type} {read : Document → Option β} {write : α → Value}
    {f : α → β} {as : List α} (h : ∀ a ∈ as, read (write a).toDocument = some (f a)) :
    (Value.array (as.map write)).toDocument.list? read = some (as.map f) := by
  rw [Value.toDocument, list?]
  induction as with
  | nil => rfl
  | cons a as ih =>
      rw [List.map_cons, itemsToDocuments, List.mapM_cons, h a (.head _),
        ih fun b hb => h b (.tail _ hb)]
      rfl

theorem list?_toDocument {read : Document → Option α} {write : α → Value} {as : List α}
    (h : ∀ a ∈ as, read (write a).toDocument = some a) :
    (Value.array (as.map write)).toDocument.list? read = some as := by
  simpa using list?_toDocument_map h

@[simp] theorem list?_toDocument_singleton {read : Document → Option α} (v : Value) :
    (Value.array [v]).toDocument.list? read = (read v.toDocument).map fun a => [a] := by
  rw [Value.toDocument, list?, itemsToDocuments, itemsToDocuments, List.mapM_cons, List.mapM_nil]
  cases read v.toDocument <;> rfl

/-! ### Fields -/

/-- The values that an object has under a name. -/
def under (name : String) : Document → List Document
  | .object fs => (fs.filter (·.1 = name)).map Prod.snd
  | _          => []

/-- The value that an object has under a name, read.  There is exactly one. -/
def field? (name : String) (read : Document → Option α) (d : Document) : Option α :=
  match d.under name with
  | [v] => read v
  | _   => none

/-- The same of a field that may be left out. -/
def optional? (name : String) (read : Document → Option α) (d : Document) : Option (Option α) :=
  match d.under name with
  | []  => some none
  | [v] => (read v).map some
  | _   => none

@[simp] theorem under_toDocument_nil (name : String) :
    (Value.object []).toDocument.under name = [] := rfl

@[simp] theorem under_toDocument_cons (name name' : String) (v : Value)
    (fs : List (String × Value)) :
    (Value.object ((name', v) :: fs)).toDocument.under name =
      if name' = name then v.toDocument :: (Value.object fs).toDocument.under name
      else (Value.object fs).toDocument.under name := by
  simp only [Value.toDocument, fieldsToDocuments, under, List.filter_cons, decide_eq_true_eq]
  split <;> rfl

end BlankLines.Json.Document
