import ResourceQuery.Specification

/-!
# Readers that share a report

The readers of the capabilities return their faults. The recorders below do the same work in another
way: they are handed a report that others have written to, and record each fault in it at the moment
they find it. One report then goes through all capabilities that are enabled.

## Main definitions

* `Recorder`: a reader that is handed a report.
* `Selection.record`, `Filter.record`, `Window.record`, `SortKey.record`, `SearchTerm.record`: the
  recorders of the capabilities, and `Capability.recorder`, each of them by its capability.
* `Specification.gather`: the specification of a request, with one report for all capabilities.
-/

namespace ResourceQuery

/-- A reader that is handed a report and records its faults in it. -/
abbrev Recorder (α : Type) := StateM Report α

namespace Recorder

/-- Records a fault and goes on with a value. -/
def refuse {α : Type} (fault : Fault) (value : α) : Recorder α := do
  modify fun report => report.record fault
  return value

/-- A recorder that runs if its capability is enabled. -/
def ifEnabled {α : Type} (schema : Schema) (c : Capability) (recorder : Recorder α) :
    Recorder (Option α) :=
  if schema.enabled.isEnabled c then some <$> recorder else pure none

end Recorder

/-! ### Selection -/

namespace Selection

/-- Adds the declared paths of an expression to a selection. -/
def recordExpression (schema : Schema) (selection : Selection) (expression : String) :
    Recorder Selection :=
  match Expression.paths expression with
  | .ok paths => pure (paths.foldl (insertDeclared schema.fields) selection)
  | .error e => .refuse ((SelectionCause.expression e).fault schema.params.select) selection

/-- Adds the declared paths of an item of a list to a selection. -/
def recordItem (schema : Schema) (selection : Selection) : Json → Recorder Selection
  | .string expression => recordExpression schema selection expression
  | given => .refuse ((SelectionCause.item given).fault schema.params.select) selection

/-- Records the selection of a request. -/
def record (schema : Schema) (request : Request) : Recorder Selection :=
  match request.get? schema.params.select with
  | none | some .null => pure empty
  | some (.string expression) => recordExpression schema empty expression
  | some (.array items) => items.foldlM (recordItem schema) empty
  | some given => .refuse ((SelectionCause.parameter given).fault schema.params.select) empty

end Selection

/-! ### Filters -/

/-- Records an operator entry: its predicate, or the first reason against it. -/
def Predicate.recordEntry (schema : Schema) (field token : String) (given : Option Json) :
    Recorder (Option Predicate) :=
  let refuse (cause : FilterCause) := Recorder.refuse (cause.fault field) none
  match schema.filterRule? field with
  | none => refuse (.notFilterable field)
  | some rule =>
    match Operator.ofToken? token with
    | none => refuse (.unknownOperator token)
    | some op =>
      if rule.allows op then
        match given with
        | none => refuse (.noOperand op)
        | some given =>
          match Operand.read op rule.type given with
          | .ok operand => pure (some ⟨field, op, operand⟩)
          | .error cause => refuse cause
      else refuse (.notAllowed op field)

namespace Filter

/-- Adds the predicate of an operator entry, if it has one. -/
def recordEntry (schema : Schema) (field : String) (predicates : List Predicate) (token : String)
    (given : Option Json) : Recorder (List Predicate) := do
  let predicate ← Predicate.recordEntry schema field token given
  return predicates ++ predicate.toList

/-- Adds the predicates of what is asked of a field. -/
def recordField (schema : Schema) (predicates : List Predicate) (field : String) :
    Json → Recorder (List Predicate)
  | .object members =>
    match tag? members with
    | some (.string token) =>
      recordEntry schema field predicates token (Entries.get? members "value")
    | some _ => .refuse (FilterCause.operatorNotText.fault field) predicates
    | none =>
      members.foldlM (fun predicates (token, given) =>
        recordEntry schema field predicates token (some given)) predicates
  | given => recordEntry schema field predicates "eq" (some given)

/-- Adds the predicate of an entry of a list. -/
def recordListEntry (schema : Schema) (predicates : List Predicate) (entry : Json) :
    Recorder (List Predicate) :=
  let refuse := Recorder.refuse ((FilterCause.entry entry).fault schema.params.filter) predicates
  match entry with
  | .object members =>
    match Entries.get? members "field" with
    | some (.string field) =>
      if (tag? members).isSome then recordField schema predicates field entry else refuse
    | _ => refuse
  | _ => refuse

/-- Records the filters of a request. -/
def record (schema : Schema) (request : Request) : Recorder (List Predicate) :=
  match request.get? schema.params.filter with
  | none | some .null => pure []
  | some (.object fields) =>
    fields.foldlM (fun predicates (field, asked) => recordField schema predicates field asked) []
  | some (.array entries) => entries.foldlM (recordListEntry schema) []
  | some given => .refuse ((FilterCause.parameter given).fault schema.params.filter) []

end Filter

/-! ### Pagination -/

namespace Window

/-- Records a count. -/
def recordCount (param : String) (value : Option Json) : Recorder (Option UInt64) :=
  match CountParam.ofValue value with
  | .unset => pure none
  | .count n => pure (some n)
  | .invalid given => .refuse ((PaginationCause.notACount param given).fault param) none

/-- Records a limit beyond the maximum, and leaves it unset. -/
def recordBounded (schema : Schema) (limit : Option UInt64) : Recorder (Option UInt64) :=
  match limit, schema.maxLimit with
  | some limit, some maximum =>
    if maximum < limit then
      .refuse ((PaginationCause.limitBeyond limit maximum).fault schema.params.limit) none
    else pure (some limit)
  | limit, _ => pure limit

/-- Records the window of a request: the limit, the offset, and then whether the limit is beyond the
maximum. -/
def record (schema : Schema) (request : Request) : Recorder Window := do
  let params := schema.params
  let limit ← recordCount params.limit (request.get? params.limit)
  let offset ← recordCount params.offset (request.get? params.offset)
  let limit ← recordBounded schema limit
  return ⟨limit, offset⟩

end Window

/-! ### Sorting -/

namespace SortKey

/-- Records a direction; none is recorded for a text that is no direction. -/
def recordDirection (field : String) (token : Option String) : Recorder (Option Direction) :=
  match token.map Text.trimmed with
  | none | some "" => pure (some .ascending)
  | some token =>
    match Direction.ofToken? token with
    | some direction => pure (some direction)
    | none => .refuse ((SortCause.unknownDirection token).fault field) none

/-- Records whether a field can be sorted by. -/
def recordSortable (schema : Schema) (field : String) : Recorder Bool :=
  if schema.isSortable field then pure true
  else .refuse ((SortCause.notSortable field).fault field) false

/-- Records the ordering by a field and a direction: first the field, then the direction, whether or
not the field can be sorted by. -/
def recordValidated (schema : Schema) (field : String) (token : Option String) :
    Recorder SortKey := do
  let sortable ← recordSortable schema field
  let direction ← recordDirection field token
  match sortable, direction with
  | true, some direction => return ⟨some field, direction⟩
  | _, _ => return unordered

/-- Records the ordering that a text asks for. -/
def recordText (schema : Schema) (text : String) : Recorder SortKey :=
  let (field, direction) := splitText (Text.trim text.toList)
  let field := Text.trim field
  if field = [] then pure (fallback schema)
  else recordValidated schema (String.ofList field) (direction.map String.ofList)

/-- Records the ordering that an object asks for. -/
def recordObject (schema : Schema) (members : List (String × Json)) : Recorder SortKey :=
  match Entries.get? members "field" with
  | none | some .null => pure (fallback schema)
  | some (.string field) =>
    let field := Text.trimmed field
    if field = "" then pure (fallback schema)
    else
      match directionMember? members with
      | none | some .null => recordValidated schema field none
      | some (.string direction) => recordValidated schema field (some direction)
      | some given => .refuse ((SortCause.directionNotText given).fault field) unordered
  | some given => .refuse ((SortCause.fieldNotText given).fault schema.params.sort) unordered

/-- Records the ordering of a request. -/
def record (schema : Schema) (request : Request) : Recorder SortKey :=
  match request.get? schema.params.sort with
  | none | some .null => pure (fallback schema)
  | some (.string text) => recordText schema text
  | some (.object members) => recordObject schema members
  | some given => .refuse ((SortCause.parameter given).fault schema.params.sort) unordered

end SortKey

/-! ### Search -/

namespace SearchTerm

/-- Records the search for a value in a target. -/
def recordResolved (schema : Schema) (named : Option String) (value : String) :
    Recorder (Option SearchTerm) :=
  if Text.isBlankText value then pure none
  else
    match targetOf? schema named with
    | none => .refuse (SearchCause.noTarget.fault schema.params.search) none
    | some target =>
      match schema.searchTarget? target with
      | some fields => pure (some ⟨target, fields, value⟩)
      | none => .refuse ((SearchCause.unknownTarget target).fault target) none

/-- Records the search for the value member of an object. -/
def recordValueMember (schema : Schema) (named : Option String) :
    Option Json → Recorder (Option SearchTerm)
  | none | some .null => pure none
  | some (.string value) => recordResolved schema named value
  | some (.number n) => recordResolved schema named (Json.number n).compact
  | some (.bool b) => recordResolved schema named (Json.bool b).compact
  | some given =>
    .refuse ((SearchCause.valueNotText given).fault (named.getD schema.params.search)) none

/-- Records the search of a request. -/
def record (schema : Schema) (request : Request) : Recorder (Option SearchTerm) :=
  match request.get? schema.params.search with
  | none | some .null => pure none
  | some (.string value) => recordResolved schema none value
  | some (.object members) =>
    match targetMember? members with
    | none | some .null => recordValueMember schema none (Entries.get? members "value")
    | some (.string target) =>
      recordValueMember schema (some target) (Entries.get? members "value")
    | some given => .refuse ((SearchCause.targetNotText given).fault schema.params.search) none
  | some given => .refuse ((SearchCause.parameter given).fault schema.params.search) none

end SearchTerm

/-! ### All capabilities -/

namespace Capability

/-- What the reader of a capability puts out. -/
def Output : Capability → Type
  | .selection => Selection
  | .filtering => List Predicate
  | .pagination => Window
  | .sorting => SortKey
  | .search => Option SearchTerm

/-- The recorder of a capability. -/
def recorder (schema : Schema) (request : Request) : (c : Capability) → Recorder c.Output
  | .selection => Selection.record schema request
  | .filtering => Filter.record schema request
  | .pagination => Window.record schema request
  | .sorting => SortKey.record schema request
  | .search => SearchTerm.record schema request

end Capability

namespace Specification

/-- The specification of a request, its parts being recorded in the report that is handed on. -/
def gathered (schema : Schema) (request : Request) : Recorder Specification := do
  let selection ← .ifEnabled schema .selection (Selection.record schema request)
  let filters ← .ifEnabled schema .filtering (Filter.record schema request)
  let window ← .ifEnabled schema .pagination (Window.record schema request)
  let sort ← .ifEnabled schema .sorting (SortKey.record schema request)
  let search ← .ifEnabled schema .search (SearchTerm.record schema request)
  let report ← get
  return { selection, filters := filters.getD [], window, sort, search := search.join, report }

/-- The specification of a request, gathered with one report for all capabilities. -/
def gather (schema : Schema) (request : Request) : Specification :=
  ((gathered schema request).run .empty).1

end Specification

end ResourceQuery
