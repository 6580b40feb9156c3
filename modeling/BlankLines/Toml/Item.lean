import BlankLines.Text.Place

/-!
# Toml — Item

The values of a TOML document, each with the stretch of the text it was written in, and the tables
they make up.

How a table came about decides what may still be added to it.  `descend` walks a path of keys and
`insert`, `openTable`, `appendTable` change the table at its end; nothing means that the document
defines something twice or extends what is closed.
-/

namespace BlankLines.Toml
open BlankLines.Text

/-- A stretch of a text: what is left at its start and at its end. -/
structure Extent where
  here : List Char
  after : List Char
deriving DecidableEq, Repr, Inhabited

namespace Extent

/-- The length of a stretch in bytes. -/
def bytes (e : Extent) : Nat :=
  byteLength e.here - byteLength e.after

end Extent

/-- How a table came about. -/
inductive Origin where
  /-- By its own header; the whole document counts as one. -/
  | header
  /-- As a part of a longer header. -/
  | implied
  /-- As a part of a dotted key. -/
  | dotted
  /-- In braces. -/
  | inline
deriving DecidableEq, Repr

namespace Origin

/-- Whether dotted keys may pass through a table. -/
def isOpen : Origin → Bool
  | .implied | .dotted => true
  | .header | .inline => false

end Origin

/-- A part of a key and where it was written. -/
structure KeyPart where
  name : String
  extent : Extent
deriving DecidableEq, Repr

/-- A value and where it was written.  Dates and times are told apart from other values but not
from each other. -/
inductive Item where
  | text (extent : Extent) (s : String)
  | integer (extent : Extent) (n : Int)
  | float (extent : Extent) (x : Float)
  | bool (extent : Extent) (b : Bool)
  | moment (extent : Extent)
  /-- A list of values, or with `ofTables` the tables of one repeated header. -/
  | array (extent : Extent) (ofTables : Bool) (items : List Item)
  | table (extent : Extent) (origin : Origin) (entries : List (KeyPart × Item))
deriving Repr

/-- The named values of a table, in the order of the document. -/
abbrev Entries := List (KeyPart × Item)

/-- Where a value was written. -/
def Item.extent : Item → Extent
  | .text e _    => e
  | .integer e _ => e
  | .float e _   => e
  | .bool e _    => e
  | .moment e    => e
  | .array e _ _ => e
  | .table e _ _ => e

namespace Entries

/-- Replaces or adds the entry with the name of `part`; nothing if `f` refuses. -/
def update (part : KeyPart) (f : Option Item → Option Item) : Entries → Option Entries
  | [] => (f none).map fun item => [(part, item)]
  | (first, item) :: rest =>
    if first.name = part.name then (f (some item)).map fun item => (first, item) :: rest
    else (update part f rest).map fun rest => (first, item) :: rest

/-- Replaces the last item of a list; nothing if there is none or `f` refuses. -/
def updateLast (f : Item → Option Item) : List Item → Option (List Item)
  | []           => none
  | [item]       => (f item).map fun item => [item]
  | item :: rest => (updateLast f rest).map fun rest => item :: rest

/-- Walks `path` from a table with an origin and changes the table at its end.  Tables on the way
are made as needed; a repeated header stands for its last table.  With `dotted`, only tables that no
header and no braces defined are passed through. -/
def descend (dotted : Bool) (change : Origin → Entries → Option Entries) :
    List KeyPart → Origin → Entries → Option Entries
  | [], origin, entries => change origin entries
  | part :: path, _, entries =>
    entries.update part fun
      | none =>
        let origin := if dotted then .dotted else .implied
        (descend dotted change path origin []).map fun entries =>
          .table part.extent origin entries
      | some (.table extent origin entries) =>
        if origin = .inline || dotted && !origin.isOpen then none
        else
          (descend dotted change path origin entries).map fun entries =>
            .table extent origin entries
      | some (.array extent true items) =>
        (updateLast (fun
          | .table extent origin entries =>
            (descend dotted change path origin entries).map fun entries =>
              .table extent origin entries
          | _ => none) items).map fun items => .array extent true items
      | some _ => none

/-- Adds a value under a dotted key; a table that a dotted key reaches was made by dotted keys. -/
def insert (origin : Origin) (path : List KeyPart) (part : KeyPart) (item : Item)
    (entries : Entries) : Option Entries :=
  descend true
    (fun origin entries =>
      if decide (origin = .dotted) = path.isEmpty then none
      else entries.update part fun
        | none   => some item
        | some _ => none)
    path origin entries

/-- Defines the table of a header. -/
def openTable (path : List KeyPart) (part : KeyPart) (extent : Extent) (entries : Entries) :
    Option Entries :=
  descend false
    (fun _ entries => entries.update part fun
      | none                        => some (.table extent .header [])
      | some (.table _ .implied es) => some (.table extent .header es)
      | some _                      => none)
    path .header entries

/-- Adds a table to those of a repeated header. -/
def appendTable (path : List KeyPart) (part : KeyPart) (extent : Extent) (entries : Entries) :
    Option Entries :=
  let fresh : Item := .table extent .header []
  descend false
    (fun _ entries => entries.update part fun
      | none                     => some (.array extent true [fresh])
      | some (.array e true items) => some (.array e true (items ++ [fresh]))
      | some _                   => none)
    path .header entries

end Entries

end BlankLines.Toml
