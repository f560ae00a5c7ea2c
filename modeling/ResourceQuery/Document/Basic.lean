import ResourceQuery.Entries
import ResourceQuery.Text.Percent

/-!
# Documents

The common structure of the documents that a definition is read from, whatever notation they are
written in. A document is taken apart by what is expected of each part: a text, a count, a named
value, an optional part, a list, a record with known members. Every function here is a partial
reading, which is none when the part is not as expected.

What a part can be taken for is decided by its notation and kept in the part itself. A word without
quotes, for instance, may be a text in one place, a count in another and a null in a third. A part
that is well-formed but has no value, such as a number beyond all doubles, is *unreadable*, which
only matters where the part is looked at.

The notations also share how scalars give numbers in a base of up to sixteen, and characters by the
hexadecimal digits of their code points.

## Main definitions

* `Document`, and `Document.Leaf` for its parts without parts.
* `Document.text?`, `Document.count?`, `Document.named?`, `Document.optional?`, `Document.list?`,
  `Document.table?`, `Document.record?`: what may be expected.
* `Document.field?`: a member of a record, with the value it has when it is missing.
* `Document.isReadable`: what a part must be where anything may stand.
* `Document.digitsIn?`, `Document.codePoint?`: a number in a base, and a character by its code point.
-/

namespace ResourceQuery

namespace Document

/-- What a leaf means where any value may stand. -/
inductive Meaning
  | text (value : String)
  /-- A whole number; as the name of a member it gives the member by its place. -/
  | whole (value : UInt64)
  /-- Null, a truth value or a number of another kind. -/
  | other
  | unreadable

/-- A part without parts, by what it can be taken for. -/
structure Leaf where
  meaning : Meaning
  /-- The text it is, where a text is expected. -/
  text : Option String := none
  /-- The name it is, where one of a set of named values is expected. -/
  name : Option String := none
  /-- The count it is, where a count is expected. -/
  count : Option UInt64 := none
  /-- Whether it leaves an optional part out; none when it is neither null nor a value. -/
  isNull : Option Bool := some false
  /-- Whether it stands for a list, a table or a record without anything in it. -/
  isEmpty : Bool := false

/-- Whether a list may be taken for a record, its items for the members in their order. -/
inductive Positional
  | never
  /-- It may, if there is a member for each item. -/
  | exact
  /-- It may; items beyond the last member do not matter. -/
  | loose
deriving DecidableEq

end Document

/-- A document, or a part of one. -/
inductive Document
  | leaf (value : Document.Leaf)
  | list (positional : Document.Positional) (items : List Document)
  /-- A table, with the named value that it may be taken for as a whole. -/
  | table (name : Option String) (members : List (Document × Document))
  /-- A list or a table that is marked as of a kind of its own: it is taken for a list or a table
  where one is expected, but cannot stand where any value may. -/
  | marked (part : Document)
  | unreadable

namespace Document

/-! ### Leaves of every notation -/

/-- A text that is nothing else. -/
def ofText (value : String) : Document :=
  .leaf { meaning := .text value, text := some value, name := some value }

/-- A count that is nothing else. -/
def ofCount (value : UInt64) : Document :=
  .leaf { meaning := .whole value, count := some value }

/-- A truth value, or a number that is no count. -/
def otherScalar : Document :=
  .leaf { meaning := .other }

/-- Null. -/
def null : Document :=
  .leaf { meaning := .other, isNull := some true }

/-! ### What may be expected -/

/-- A part without its mark. -/
def unmarked : Document → Document
  | .marked part => part
  | part => part

/-- A text. -/
def text? : Document → Option String
  | .leaf l => l.text
  | _ => none

/-- A count. -/
def count? : Document → Option UInt64
  | .leaf l => l.count
  | _ => none

/-- One of a set of named values. -/
def named? {α : Type} (ofName? : String → Option α) : Document → Option α
  | .leaf l => l.name.bind ofName?
  | .table name _ => name.bind ofName?
  | _ => none

/-- A part that may be null instead. -/
def optional? {α : Type} (read : Document → Option α) (part : Document) : Option (Option α) :=
  match part with
  | .leaf l =>
    match l.isNull with
    | some true => some none
    | some false => (read part).map some
    | none => none
  | _ => (read part).map some

/-- Whether the part stands for a collection without anything in it. -/
def isEmptyLeaf : Document → Bool
  | .leaf l => l.isEmpty
  | _ => false

/-- A list whose items are all as expected. -/
def list? {α : Type} (read : Document → Option α) (part : Document) : Option (List α) :=
  match part.unmarked with
  | .list _ items => items.mapM read
  | part => if part.isEmptyLeaf then some [] else none

/-- The members of a table by their names, which must be texts. -/
def namedMembers? (members : List (Document × Document)) : Option (Entries Document) :=
  members.mapM fun (key, part) => key.text?.map fun name => (name, part)

/-- A table whose members are all as expected, under any names. -/
def table? {α : Type} (read : Document → Option α) (part : Document) :
    Option (List (String × α)) :=
  match part.unmarked with
  | .table _ members =>
    (namedMembers? members).bind fun members =>
      members.mapM fun (name, part) => (read part).map fun v => (name, v)
  | part => if part.isEmptyLeaf then some [] else none

/-- A record with known members, each at most once; other members do not matter. A list may be
taken for a record if its notation says so; its last members may be missing then. -/
def record? (names : List String) (part : Document) : Option (Entries Document) :=
  match part.unmarked with
  | .table _ members =>
    (namedMembers? members).bind fun members =>
      let known := members.filter fun (name, _) => name ∈ names
      if (Entries.keys known).Nodup then some known else none
  | .list .exact items => if items.length ≤ names.length then some (names.zip items) else none
  | .list .loose items => some (names.zip items)
  | part => if part.isEmptyLeaf then some [] else none

/-- A member of a record; its default when it is missing. -/
def field? {α : Type} (record : Entries Document) (name : String) (default : α)
    (read : Document → Option α) : Option α :=
  match record.get? name with
  | some part => read part
  | none => some default

/-- A member that must not be missing. -/
def required? {α : Type} (record : Entries Document) (name : String)
    (read : Document → Option α) : Option α :=
  (record.get? name).bind read

/-! ### Where any value may stand -/

/-- What a part means where any value may stand, if it is a leaf. -/
def meaning? : Document → Option Meaning
  | .leaf l => some l.meaning
  | _ => none

/-- A text where any value may stand. -/
def properText? (part : Document) : Option String :=
  match part.meaning? with
  | some (.text value) => some value
  | _ => none

mutual

/-- Whether every part has a value. -/
def isReadable : Document → Bool
  | .leaf l =>
    match l.meaning with
    | .unreadable => false
    | _ => true
  | .list _ items => areReadable items
  | .table _ members => membersAreReadable members
  | .marked _ => false
  | .unreadable => false

/-- Whether every item has a value. -/
def areReadable : List Document → Bool
  | [] => true
  | item :: items => item.isReadable && areReadable items

/-- Whether every name and every member has a value. -/
def membersAreReadable : List (Document × Document) → Bool
  | [] => true
  | (key, part) :: members => key.isReadable && part.isReadable && membersAreReadable members

end

/-! ### Digits in scalars -/

/-- The number that the digits of a base spell; there is at least one digit. -/
def digitsIn? (base : Nat) (cs : List Char) : Option Nat :=
  if cs = [] then none
  else
    cs.foldlM (fun n c =>
      match Text.hexValue? c with
      | some d => if d < base then some (n * base + d) else none
      | none => none) 0

/-- The character with a code point in hexadecimal, if there is one. -/
def codePoint? (cs : List Char) : Option Char :=
  match digitsIn? 16 cs with
  | some n => if n.isValidChar then some (Char.ofNat n) else none
  | none => none

end Document

end ResourceQuery
