import ResourceQuery.Schema.Definition
import ResourceQuery.Document.Basic

/-!
# Reading a definition from a document

Each section is a record with known members; members that it does not know are ignored, and
members that are missing take their defaults. What is wrong with a document is not told apart: it
either is a definition or it is not.

## Main definitions

* `Definition.ofDocument?`, and `ofDocument?` for each section.
-/

namespace ResourceQuery

/-- The names of the request parameters. -/
def ParamNames.ofDocument? (part : Document) : Option ParamNames := do
  let record ← part.record? ["select", "filter", "limit", "offset", "sort", "search"]
  let select ← Document.field? record "select" "select" Document.text?
  let filter ← Document.field? record "filter" "filter" Document.text?
  let limit ← Document.field? record "limit" "limit" Document.text?
  let offset ← Document.field? record "offset" "offset" Document.text?
  let sort ← Document.field? record "sort" "sort" Document.text?
  let search ← Document.field? record "search" "search" Document.text?
  pure { select, filter, limit, offset, sort, search }

/-- The members of a declared field. -/
inductive FieldMember
  | name
  | children
deriving DecidableEq

/-- The member that a name in a table stands for; none in the inner option for one that does not
matter. A member is given by its name or by its place, and nothing else can be its name. -/
def FieldMember.ofKey? (key : Document) : Option (Option FieldMember) :=
  match key.meaning? with
  | some (.text "name") | some (.whole 0) => some (some .name)
  | some (.text "children") | some (.whole 1) => some (some .children)
  | some (.text _) | some (.whole _) => some none
  | _ => none

/-- The members of a declared field that have been seen: its name and its children. -/
structure NestedMembers where
  name : Option String := none
  children : Option (List FieldDeclaration) := none

mutual

/-- A declared field: a text, or a table with a name and children. Every part of it must be
readable, also where it is ignored. -/
def FieldDeclaration.ofDocument? : Document → Option FieldDeclaration
  | .table _ members =>
    match FieldDeclaration.ofMembers? members with
    | some ⟨some name, some children⟩ => some (.nested name children)
    | _ => none
  | part => part.properText?.map .atomic

/-- The children of a declared field. -/
def FieldDeclaration.childrenOfDocument? : Document → Option (List FieldDeclaration)
  | .list _ items => FieldDeclaration.ofDocuments? items
  | _ => none

/-- A list of declared fields. -/
def FieldDeclaration.ofDocuments? : List Document → Option (List FieldDeclaration)
  | [] => some []
  | part :: rest =>
    match FieldDeclaration.ofDocument? part, FieldDeclaration.ofDocuments? rest with
    | some declaration, some declarations => some (declaration :: declarations)
    | _, _ => none

/-- The name and the children among the members of a table, each at most once. -/
def FieldDeclaration.ofMembers? : List (Document × Document) → Option NestedMembers
  | [] => some {}
  | (key, part) :: rest =>
    match FieldMember.ofKey? key, FieldDeclaration.ofMembers? rest with
    | some (some .name), some seen =>
      if seen.name.isSome then none
      else part.properText?.map fun name => { seen with name := some name }
    | some (some .children), some seen =>
      if seen.children.isSome then none
      else
        (FieldDeclaration.childrenOfDocument? part).map fun children =>
          { seen with children := some children }
    | some none, some seen => if part.isReadable then some seen else none
    | _, _ => none

end

/-- How one field may be filtered. -/
def FilterDeclaration.ofDocument? (part : Document) : Option FilterDeclaration := do
  let record ← part.record? ["operators", "type"]
  let operators ← Document.field? record "operators" []
    (Document.list? (Document.named? Operator.ofDeclaration?))
  let type ← Document.field? record "type" none
    (Document.optional? (Document.named? ScalarType.ofName?))
  pure { operators, type }

/-- The bounds of pagination. -/
def PaginationDeclaration.ofDocument? (part : Document) : Option PaginationDeclaration := do
  let record ← part.record? ["max_limit"]
  let maxLimit ← Document.field? record "max_limit" none (Document.optional? Document.count?)
  pure { maxLimit }

/-- A default ordering. -/
def DefaultSort.ofDocument? (part : Document) : Option DefaultSort := do
  let record ← part.record? ["field", "direction"]
  let field ← Document.required? record "field" Document.text?
  let direction ← Document.field? record "direction" .ascending
    (Document.named? Direction.ofName?)
  pure { field, direction }

/-- The fields that can be sorted by. -/
def SortDeclaration.ofDocument? (part : Document) : Option SortDeclaration := do
  let record ← part.record? ["fields", "default"]
  let fields ← Document.field? record "fields" [] (Document.list? Document.text?)
  let fallback ← Document.field? record "default" none (Document.optional? DefaultSort.ofDocument?)
  pure { fields, fallback }

/-- What can be searched. -/
def SearchDeclaration.ofDocument? (part : Document) : Option SearchDeclaration := do
  let record ← part.record? ["fields", "targets", "default_target"]
  let fields ← Document.field? record "fields" [] (Document.list? Document.text?)
  let targets ← Document.field? record "targets" []
    (Document.table? (Document.list? Document.text?))
  let defaultTarget ← Document.field? record "default_target" none
    (Document.optional? Document.text?)
  pure { fields, targets := .ofWrites targets, defaultTarget }

/-- A list of declared fields. -/
def FieldDeclaration.listOfDocument? : Document → Option (List FieldDeclaration) :=
  Document.list? FieldDeclaration.ofDocument?

/-- A definition. -/
def Definition.ofDocument? (part : Document) : Option Definition := do
  let record ← part.record?
    ["resource", "table", "params", "fields", "filters", "pagination", "sort", "search"]
  let resource ← Document.required? record "resource" Document.text?
  let table ← Document.field? record "table" none (Document.optional? Document.text?)
  let params ← Document.field? record "params" {} ParamNames.ofDocument?
  let fields ← Document.field? record "fields" none
    (Document.optional? FieldDeclaration.listOfDocument?)
  let filters ← Document.field? record "filters" none
    (Document.optional? (Document.table? FilterDeclaration.ofDocument?))
  let pagination ← Document.field? record "pagination" none
    (Document.optional? PaginationDeclaration.ofDocument?)
  let sort ← Document.field? record "sort" none (Document.optional? SortDeclaration.ofDocument?)
  let search ← Document.field? record "search" none
    (Document.optional? SearchDeclaration.ofDocument?)
  pure
    { resource, table, params, fields, pagination, sort, search
      filters := filters.map .ofWrites }

end ResourceQuery
