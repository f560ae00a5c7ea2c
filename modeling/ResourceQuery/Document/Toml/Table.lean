import ResourceQuery.Document.Basic

/-!
# Tables while they are being built

The statements of a TOML text add to a tree of tables. What may be added to a table depends on how
it came about: by its own header, or braces; on the way to the header of a table inside it; or on
the way of a dotted name. A header completes only a table of the second kind, and a dotted name
adds only to a table of the third kind, and passes through no table of the first.

## Main definitions

* `Toml.Item`, `Toml.Members`: what names stand for so far.
* `Toml.define?`: gives a dotted name its value.
* `Toml.openTable?`, `Toml.openItem?`: what the two kinds of headers do.
* `Toml.changeAt?`: a change of the table that a header opened.
-/

namespace ResourceQuery.Toml

/-- How a table came about. -/
inductive Origin
  | header
  /-- On the way to the header of a table inside it. -/
  | path
  /-- On the way of a dotted name. -/
  | dotted
deriving DecidableEq

/-- What a name in a table stands for. -/
inductive Item
  | value (document : Document)
  | table (origin : Origin) (members : List (String × Item))
  /-- An array of tables, the latest first. -/
  | tables (items : List (List (String × Item)))

/-- The members of a table. -/
abbrev Members := List (String × Item)

/-! ### Changes -/

/-- Changes the members at a path of names; tables that are missing on the way are made, and an
array of tables stands for its latest one. -/
def changeAt? (change : Members → Option Members) : List String → Members → Option Members
  | [], members => change members
  | name :: path, members =>
    match Entries.get? members name with
    | none =>
      (changeAt? change path []).map fun inner => Entries.put members name (.table .path inner)
    | some (.table origin inner) =>
      (changeAt? change path inner).map fun inner =>
        Entries.put members name (.table origin inner)
    | some (.tables (latest :: earlier)) =>
      (changeAt? change path latest).map fun latest =>
        Entries.put members name (.tables (latest :: earlier))
    | some _ => none

/-- Changes the members at the path of all but the last name, given the last one. -/
def changeLast? (change : String → Members → Option Members) (path : List String)
    (members : Members) : Option Members :=
  path.getLast?.bind fun last => changeAt? (change last) path.dropLast members

/-- Gives a table its header. -/
def openTable? (name : String) (members : Members) : Option Members :=
  match Entries.get? members name with
  | none => some (Entries.put members name (.table .header []))
  | some (.table .path inner) => some (Entries.put members name (.table .header inner))
  | some _ => none

/-- Starts the next item of an array of tables. -/
def openItem? (name : String) (members : Members) : Option Members :=
  match Entries.get? members name with
  | none => some (Entries.put members name (.tables [[]]))
  | some (.tables items) => some (Entries.put members name (.tables ([] :: items)))
  | some _ => none

/-- Gives a dotted name its value. The table that holds the last name must be the one that the name
starts in, or one of dotted names. -/
def define? (v : Document) : List String → Members → Option Members
  | [], _ => none
  | [name], members =>
    if Entries.contains members name then none else some (Entries.put members name (.value v))
  | name :: next :: path, members =>
    match Entries.get? members name with
    | none =>
      (define? v (next :: path) []).map fun inner =>
        Entries.put members name (.table .dotted inner)
    | some (.table origin inner) =>
      if origin = .header || (origin = .path && path.isEmpty) then none
      else
        (define? v (next :: path) inner).map fun inner =>
          Entries.put members name (.table origin inner)
    | some (.tables (latest :: earlier)) =>
      if path.isEmpty then none
      else
        (define? v (next :: path) latest).map fun latest =>
          Entries.put members name (.tables (latest :: earlier))
    | some _ => none

/-! ### Documents -/

/-- The named value that a table may be taken for: its only name, with nothing behind it. -/
def nameOfMembers? : List (String × Document) → Option String
  | [(name, .table _ [])] | [(name, .list _ [])] => some name
  | _ => none

/-- The table with some members. -/
def tableOf (members : List (String × Document)) : Document :=
  .table (nameOfMembers? members) (members.map fun (name, v) => (.ofText name, v))

mutual

/-- The document of an item. -/
def Item.document : Item → Document
  | .value v => v
  | .table _ members => tableOf (membersDocument members)
  | .tables items => .list .loose (tablesDocument items).reverse

/-- The documents of members. -/
def membersDocument : List (String × Item) → List (String × Document)
  | [] => []
  | (name, item) :: rest => (name, item.document) :: membersDocument rest

/-- The documents of the items of an array of tables. -/
def tablesDocument : List (List (String × Item)) → List Document
  | [] => []
  | members :: rest => tableOf (membersDocument members) :: tablesDocument rest

end

end ResourceQuery.Toml
