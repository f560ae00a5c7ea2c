import ResourceQuery.Report
import ResourceQuery.Schema.FieldTree

/-!
# Schemas

A schema is a definition that has been checked: its field names are valid and unique, its default
ordering is by a sortable field, every search target stands for at least one field, and the default
target exists. Each section of a schema is there exactly when the definition has it; a section that
is missing offers nothing.

## Main definitions

* `Schema` and its sections `FilterRule`, `SortRules`, `SearchRules`.
* `Schema.ofDefinition`, with its failures `SchemaError`.
* `Schema.enabled`: the capabilities of a schema.
-/

namespace ResourceQuery

/-- Why a definition is not consistent. -/
inductive SchemaError
  | fields (error : FieldError)
  | unsortableDefault (field : String)
  | emptySearchTarget (target : String)
  | unknownDefaultTarget (target : String)
deriving DecidableEq

/-- What is wrong, for people. -/
def SchemaError.message : SchemaError → String
  | .fields (.invalidName name) => s!"invalid field name `{name}`"
  | .fields (.duplicate path) => s!"field `{path}` is declared more than once"
  | .unsortableDefault field => s!"default sort field `{field}` is not sortable"
  | .emptySearchTarget target => s!"search target `{target}` does not resolve to any field"
  | .unknownDefaultTarget target =>
    s!"default search target `{target}` is not a declared search target"

/-- How one field may be filtered. -/
structure FilterRule where
  /-- The operators that are allowed, when not all are. -/
  operators : Option (List Operator)
  type : Option ScalarType
deriving DecidableEq

namespace FilterRule

/-- The rule of a declaration: one that lists no operator allows all. -/
def ofDeclaration (d : FilterDeclaration) : FilterRule :=
  ⟨if d.operators.isEmpty then none else some d.operators, d.type⟩

/-- Whether an operator is allowed. -/
def allows (rule : FilterRule) (op : Operator) : Bool :=
  match rule.operators with
  | none => true
  | some operators => op ∈ operators

end FilterRule

/-- The fields that can be sorted by, and the ordering of requests that ask for none. -/
structure SortRules where
  fields : List String
  fallback : Option SortKey
deriving DecidableEq

/-- The search targets with the fields they stand for, and the target of requests that name
none. -/
structure SearchRules where
  targets : SortedEntries (List String)
  defaultTarget : Option String

/-- What a resource offers. -/
structure Schema where
  resource : String
  table : String
  params : ParamNames
  fieldTree : Option FieldTree
  filterRules : Option (List (String × FilterRule))
  bounds : Option PaginationDeclaration
  sortRules : Option SortRules
  searchRules : Option SearchRules

namespace SortRules

/-- The rules of a declaration, if its default ordering is by one of its fields. -/
def ofDeclaration (d : SortDeclaration) : Except SchemaError SortRules :=
  match d.fallback with
  | none => .ok ⟨d.fields, none⟩
  | some ⟨field, direction⟩ =>
    if field ∈ d.fields then .ok ⟨d.fields, some ⟨some field, direction⟩⟩
    else .error (.unsortableDefault field)

end SortRules

namespace SearchRules

/-- The targets of a declaration: each field by itself, and each named set, which replaces a field
of the same name. -/
def targetsOf (d : SearchDeclaration) : SortedEntries (List String) :=
  d.targets.entries.foldl (fun targets (name, fields) => targets.put name fields)
    (.ofWrites (d.fields.map fun field => (field, [field])))

/-- The rules of a declaration, if no named set is empty and the default target exists. -/
def ofDeclaration (d : SearchDeclaration) : Except SchemaError SearchRules :=
  match d.targets.entries.find? fun (_, fields) => fields.isEmpty with
  | some (name, _) => .error (.emptySearchTarget name)
  | none =>
    match d.defaultTarget with
    | none => .ok ⟨targetsOf d, none⟩
    | some target =>
      if (targetsOf d).contains target then .ok ⟨targetsOf d, some target⟩
      else .error (.unknownDefaultTarget target)

end SearchRules

namespace Schema

/-- The schema of a definition. The sections are checked in the order in which a definition lists
them, and the first failure is the answer. -/
def ofDefinition (d : Definition) : Except SchemaError Schema := do
  let fieldTree ← d.fields.mapM fun declarations =>
    (FieldTree.ofDeclarations declarations).mapError .fields
  let sortRules ← d.sort.mapM SortRules.ofDeclaration
  let searchRules ← d.search.mapM SearchRules.ofDeclaration
  pure
    { resource := d.resource
      table := d.table.getD d.resource
      params := d.params
      fieldTree
      filterRules := d.filters.map fun filters =>
        filters.entries.map fun (field, declaration) => (field, .ofDeclaration declaration)
      bounds := d.pagination
      sortRules
      searchRules }

/-! ### What a schema offers -/

/-- The section behind each capability is present. -/
def offers (schema : Schema) : Capability → Bool
  | .selection => schema.fieldTree.isSome
  | .filtering => schema.filterRules.isSome
  | .pagination => schema.bounds.isSome
  | .sorting => schema.sortRules.isSome
  | .search => schema.searchRules.isSome

/-- The capabilities of a schema. -/
def enabled (schema : Schema) : CapabilitySet :=
  .ofList (Capability.all.filter schema.offers)

/-- The declared fields. -/
def fields (schema : Schema) : FieldTree :=
  schema.fieldTree.getD .empty

/-- The rule for filtering by a field, if it can be filtered by. -/
def filterRule? (schema : Schema) (field : String) : Option FilterRule :=
  Entries.get? (schema.filterRules.getD []) field

/-- The largest limit. -/
def maxLimit (schema : Schema) : Option UInt64 :=
  schema.bounds.bind (·.maxLimit)

/-- Whether a field can be sorted by. -/
def isSortable (schema : Schema) (field : String) : Bool :=
  match schema.sortRules with
  | none => false
  | some rules => field ∈ rules.fields

/-- The ordering that is declared for requests that ask for none. -/
def defaultSort (schema : Schema) : Option SortKey :=
  schema.sortRules.bind (·.fallback)

/-- The fields that a search target stands for. -/
def searchTarget? (schema : Schema) (target : String) : Option (List String) :=
  schema.searchRules.bind (·.targets.get? target)

/-- The target of requests that name none. -/
def defaultTarget (schema : Schema) : Option String :=
  schema.searchRules.bind (·.defaultTarget)

/-- The enabled capabilities of a schema are those that it offers. -/
theorem isEnabled_enabled (schema : Schema) (c : Capability) :
    schema.enabled.isEnabled c = schema.offers c := by
  cases h : schema.offers c <;> simp [enabled, Capability.mem_all, h]

end Schema

end ResourceQuery
