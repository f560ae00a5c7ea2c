import ResourceQuery.Json.Writer
import ResourceQuery.Request.Basic
import ResourceQuery.Schema.Basic

/-!
# Reading the ordering of a request

The sort parameter is a text, `field`, `-field` or `field:direction`, or an object with the members
`field` and `direction` (or `dir`). A parameter that names no field asks for the default ordering
of the schema. As soon as there is a fault the request has no ordering at all, not even the default
one.

## Main definitions

* `SortCause`: the causes of faults.
* `SortKey.validate`: the ordering by a field and a direction, if the schema allows it.
* `SortKey.read`: the ordering of a request, with its faults.
-/

namespace ResourceQuery

/-- Why an ordering was refused. -/
inductive SortCause
  | notSortable (field : String)
  | unknownDirection (token : String)
  | fieldNotText (given : Json)
  | directionNotText (given : Json)
  /-- The parameter is neither a text nor an object. -/
  | parameter (given : Json)

namespace SortCause

/-- The kind of fault that a cause makes. -/
def kind : SortCause → FaultKind
  | .unknownDirection _ | .directionNotText _ => .sortDirection
  | _ => .sortField

/-- The message about a cause. -/
def message : SortCause → String
  | .notSortable field => s!"`{field}` is not sortable"
  | .unknownDirection token => Direction.unknownMessage token
  | .fieldNotText given => "sort field must be a string, got " ++ given.compact
  | .directionNotText given => "sort direction must be a string, got " ++ given.compact
  | .parameter given => "expected a sort field or object, got " ++ given.compact

/-- The fault of a cause, about a field or the parameter. -/
def fault (cause : SortCause) (field : String) : Fault :=
  ⟨.sorting, field, cause.kind, cause.message⟩

end SortCause

namespace SortKey

/-- The ordering of requests that name no field. -/
def fallback (schema : Schema) : SortKey :=
  schema.defaultSort.getD unordered

/-- The reading of a parameter that was refused. -/
def refused (faults : List Fault) : Reading SortKey :=
  ⟨unordered, faults⟩

/-- The direction that a text asks for: ascending when it is missing or blank; none when it is no
direction, together with the fault about the field. -/
def readDirection (field : String) (token : Option String) : Reading (Option Direction) :=
  match token.map Text.trimmed with
  | none | some "" => .clean (some .ascending)
  | some token =>
    match Direction.ofToken? token with
    | some direction => .clean (some direction)
    | none => ⟨none, [(SortCause.unknownDirection token).fault field]⟩

/-- The faults of a field that cannot be sorted by. -/
def fieldFaults (schema : Schema) (field : String) : List Fault :=
  if schema.isSortable field then [] else [(SortCause.notSortable field).fault field]

/-- The ordering by a field and a direction. A bad field and a bad direction are both reported. -/
def validate (schema : Schema) (field : String) (token : Option String) : Reading SortKey :=
  let direction := readDirection field token
  match fieldFaults schema field ++ direction.faults, direction.output with
  | [], some direction => .clean ⟨some field, direction⟩
  | faults, _ => refused faults

/-- The field and the direction that a text without outer blanks names. -/
def splitText (text : List Char) : List Char × Option (List Char) :=
  match text with
  | '-' :: field => (field, some "desc".toList)
  | _ =>
    match Text.cutFirst ':' text with
    | some (field, direction) => (field, some direction)
    | none => (text, none)

/-- The ordering that a text asks for. -/
def ofText (schema : Schema) (text : String) : Reading SortKey :=
  let (field, direction) := splitText (Text.trim text.toList)
  let field := Text.trim field
  if field = [] then .clean (fallback schema)
  else validate schema (String.ofList field) (direction.map String.ofList)

/-- The direction member of an object: `direction`, or else `dir`. -/
def directionMember? (members : List (String × Json)) : Option Json :=
  (Entries.get? members "direction").or (Entries.get? members "dir")

/-- The ordering by a field, which is not empty, with the direction member of an object. -/
def ofDirectionMember (schema : Schema) (field : String) : Option Json → Reading SortKey
  | none | some .null => validate schema field none
  | some (.string direction) => validate schema field (some direction)
  | some given => refused [(SortCause.directionNotText given).fault field]

/-- The ordering that an object asks for. -/
def ofObject (schema : Schema) (members : List (String × Json)) : Reading SortKey :=
  match Entries.get? members "field" with
  | none | some .null => .clean (fallback schema)
  | some (.string field) =>
    if Text.isBlankText field then .clean (fallback schema)
    else ofDirectionMember schema (Text.trimmed field) (directionMember? members)
  | some given => refused [(SortCause.fieldNotText given).fault schema.params.sort]

/-- The ordering of a request. -/
def read (schema : Schema) (request : Request) : Reading SortKey :=
  match request.get? schema.params.sort with
  | none | some .null => .clean (fallback schema)
  | some (.string text) => ofText schema text
  | some (.object members) => ofObject schema members
  | some given => refused [(SortCause.parameter given).fault schema.params.sort]

end SortKey

end ResourceQuery
