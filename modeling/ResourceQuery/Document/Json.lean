import ResourceQuery.Document.Basic
import ResourceQuery.Json.Reader

/-!
# Documents written in JSON

A JSON text is read as a tree first. Strings and numbers without a value, names that are no text,
and whatever is nested deeper than `Json.nestingLimit` become unreadable parts of the document.
Members that an object repeats stay repeated: whether that matters depends on what is expected of
the object. An array may be taken for a record, and an object that holds one name with null for the
value of that name.
-/

namespace ResourceQuery.Document

/-- The part of a document that a number is. -/
def ofNumeral (numeral : Json.Numeral) : Document :=
  match numeral.number? with
  | some (.integer (.ofNat n)) =>
    match Text.countOf? n with
    | some count => ofCount count
    | none => otherScalar
  | some _ => otherScalar
  | none => .unreadable

/-- The part of a document that a string is. -/
def ofPieces (pieces : List Json.Piece) : Document :=
  match Json.text? pieces with
  | some s => ofText s
  | none => .unreadable

/-- The named value that an object may be taken for. -/
def nameOfMembers? : List (List Json.Piece × Json.Tree) → Option String
  | [(name, .null)] => Json.text? name
  | _ => none

mutual

/-- The document of a tree that stands inside `level` arrays and objects. -/
def ofTree (level : Nat) : Json.Tree → Document
  | .null => null
  | .bool _ => otherScalar
  | .number numeral => ofNumeral numeral
  | .string pieces => ofPieces pieces
  | .array items =>
    if level < Json.nestingLimit then .list .exact (ofTrees (level + 1) items) else .unreadable
  | .object members =>
    if level < Json.nestingLimit then
      .table (nameOfMembers? members) (ofMembers (level + 1) members)
    else .unreadable

/-- The documents of the items of an array. -/
def ofTrees (level : Nat) : List Json.Tree → List Document
  | [] => []
  | item :: items => ofTree level item :: ofTrees level items

/-- The documents of the members of an object. -/
def ofMembers (level : Nat) : List (List Json.Piece × Json.Tree) → List (Document × Document)
  | [] => []
  | (name, v) :: members => (ofPieces name, ofTree level v) :: ofMembers level members

end

/-- The document that a JSON text is. -/
def ofJson? (text : String) : Option Document :=
  (Json.Tree.ofText? text).map (ofTree 0)

end ResourceQuery.Document
