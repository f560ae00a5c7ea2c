import ResourceQuery.Filter.Predicate
import ResourceQuery.Sorting.Basic

/-!
# Definitions of resources

A definition declares what a resource offers: which fields a client may select, which it may
filter, sort and search by, and how many rows it may ask for. Each section that is present enables
one capability. A definition may be inconsistent; `ResourceQuery.Schema.Basic` checks it.

Filter declarations and search targets are kept by increasing name, all other lists in the order
of their declaration.

## Main definitions

* `Definition` and the sections it is made of.
* `Definition.withField`, `Definition.withFilter` and so on: building a definition step by step.
* `Definition.toJson`: the JSON form of a definition.
-/

namespace ResourceQuery

/-- The names of the request parameters that the capabilities read. -/
structure ParamNames where
  select : String := "select"
  filter : String := "filter"
  limit : String := "limit"
  offset : String := "offset"
  sort : String := "sort"
  search : String := "search"
deriving DecidableEq

/-- A declared field. A bare name is atomic, a name with children groups other fields. -/
inductive FieldDeclaration
  | atomic (name : String)
  | nested (name : String) (children : List FieldDeclaration)

/-- The name of a declared field. -/
def FieldDeclaration.name : FieldDeclaration → String
  | .atomic name => name
  | .nested name _ => name

/-- How one field may be filtered. -/
structure FilterDeclaration where
  /-- The operators that are allowed; none listed means all. -/
  operators : List Operator := []
  /-- The type that operands are coerced to. -/
  type : Option ScalarType := none
deriving DecidableEq

/-- The bounds of pagination. -/
structure PaginationDeclaration where
  /-- The largest limit that is accepted. -/
  maxLimit : Option UInt64 := none
deriving DecidableEq

/-- The ordering of requests that ask for none. -/
structure DefaultSort where
  field : String
  direction : Direction := .ascending
deriving DecidableEq

/-- The fields that can be sorted by. -/
structure SortDeclaration where
  fields : List String := []
  fallback : Option DefaultSort := none
deriving DecidableEq

/-- What can be searched. -/
structure SearchDeclaration where
  /-- Fields that are targets of their own. -/
  fields : List String := []
  /-- Named sets of fields. -/
  targets : SortedEntries (List String) := .empty
  /-- The target of requests that name none. -/
  defaultTarget : Option String := none

/-- The definition of a resource. -/
structure Definition where
  resource : String
  /-- The table behind the resource, if it is not named like it. -/
  table : Option String := none
  params : ParamNames := {}
  fields : Option (List FieldDeclaration) := none
  filters : Option (SortedEntries FilterDeclaration) := none
  pagination : Option PaginationDeclaration := none
  sort : Option SortDeclaration := none
  search : Option SearchDeclaration := none

namespace Definition

/-! ### Building step by step -/

/-- Sets the table. -/
def withTable (d : Definition) (table : String) : Definition :=
  { d with table := some table }

/-- Sets the names of the request parameters. -/
def withParams (d : Definition) (params : ParamNames) : Definition :=
  { d with params }

/-- Declares one more field. -/
def withDeclaration (d : Definition) (declaration : FieldDeclaration) : Definition :=
  { d with fields := some (d.fields.getD [] ++ [declaration]) }

/-- Declares one more atomic field. -/
def withField (d : Definition) (name : String) : Definition :=
  d.withDeclaration (.atomic name)

/-- Declares a field with atomic children. -/
def withNested (d : Definition) (name : String) (children : List String) : Definition :=
  d.withDeclaration (.nested name (children.map .atomic))

/-- Declares how a field may be filtered, replacing what was declared for it. -/
def withFilter (d : Definition) (field : String) (rules : FilterDeclaration) : Definition :=
  { d with filters := some ((d.filters.getD .empty).put field rules) }

/-- Enables pagination, with or without a largest limit. -/
def withPagination (d : Definition) (maxLimit : Option UInt64) : Definition :=
  { d with pagination := some ⟨maxLimit⟩ }

/-- Declares more fields to sort by. -/
def withSort (d : Definition) (fields : List String) : Definition :=
  let sort := d.sort.getD {}
  { d with sort := some { sort with fields := sort.fields ++ fields } }

/-- Sets the default ordering. -/
def withDefaultSort (d : Definition) (field : String) (direction : Direction) : Definition :=
  { d with sort := some { d.sort.getD {} with fallback := some ⟨field, direction⟩ } }

/-- Declares one more searchable field. -/
def withSearchField (d : Definition) (field : String) : Definition :=
  let search := d.search.getD {}
  { d with search := some { search with fields := search.fields ++ [field] } }

/-- Declares a named set of fields to search, replacing what was declared for the name. -/
def withSearchTarget (d : Definition) (name : String) (fields : List String) : Definition :=
  let search := d.search.getD {}
  { d with search := some { search with targets := search.targets.put name fields } }

/-- Sets the target of requests that name none. -/
def withDefaultTarget (d : Definition) (target : String) : Definition :=
  { d with search := some { d.search.getD {} with defaultTarget := some target } }

/-- Gives a pagination section without a largest limit this one. -/
def withFallbackMaxLimit (d : Definition) (maxLimit : Option UInt64) : Definition :=
  { d with pagination := d.pagination.map fun p => ⟨p.maxLimit.or maxLimit⟩ }

end Definition

/-! ### The JSON form -/

/-- The JSON form of parameter names. -/
def ParamNames.toJson (p : ParamNames) : Json :=
  .object
    [("select", .string p.select), ("filter", .string p.filter), ("limit", .string p.limit),
      ("offset", .string p.offset), ("sort", .string p.sort), ("search", .string p.search)]

mutual

/-- The JSON form of a declared field: an atomic one is its name. -/
def FieldDeclaration.toJson : FieldDeclaration → Json
  | .atomic name => .string name
  | .nested name children =>
    .object [("name", .string name), ("children", .array (FieldDeclaration.listToJson children))]

/-- The JSON forms of declared fields. -/
def FieldDeclaration.listToJson : List FieldDeclaration → List Json
  | [] => []
  | declaration :: rest => declaration.toJson :: FieldDeclaration.listToJson rest

end

/-- The JSON form of a filter declaration. -/
def FilterDeclaration.toJson (d : FilterDeclaration) : Json :=
  .object
    [("operators", Json.ofStrings (d.operators.map Operator.name)),
      ("type", Json.ofOption (fun t => .string t.name) d.type)]

/-- The JSON form of the bounds of pagination. -/
def PaginationDeclaration.toJson (d : PaginationDeclaration) : Json :=
  .object [("max_limit", Json.ofOption Json.ofCount d.maxLimit)]

/-- The JSON form of a default ordering. -/
def DefaultSort.toJson (d : DefaultSort) : Json :=
  .object [("field", .string d.field), ("direction", .string d.direction.name)]

/-- The JSON form of a sort declaration. -/
def SortDeclaration.toJson (d : SortDeclaration) : Json :=
  .object
    [("fields", Json.ofStrings d.fields), ("default", Json.ofOption DefaultSort.toJson d.fallback)]

/-- The JSON form of a search declaration. -/
def SearchDeclaration.toJson (d : SearchDeclaration) : Json :=
  .object
    [("fields", Json.ofStrings d.fields),
      ("targets", .object (d.targets.entries.map fun (name, fields) =>
        (name, Json.ofStrings fields))),
      ("default_target", Json.ofOption .string d.defaultTarget)]

/-- The JSON form of a definition. Sections that are missing are null. -/
def Definition.toJson (d : Definition) : Json :=
  .object
    [("resource", .string d.resource), ("table", Json.ofOption .string d.table),
      ("params", d.params.toJson),
      ("fields", Json.ofOption (fun fs => .array (FieldDeclaration.listToJson fs)) d.fields),
      ("filters", Json.ofOption
        (fun fs => .object (fs.entries.map fun (field, rules) => (field, rules.toJson))) d.filters),
      ("pagination", Json.ofOption PaginationDeclaration.toJson d.pagination),
      ("sort", Json.ofOption SortDeclaration.toJson d.sort),
      ("search", Json.ofOption SearchDeclaration.toJson d.search)]

end ResourceQuery
