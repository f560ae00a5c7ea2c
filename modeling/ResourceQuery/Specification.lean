import ResourceQuery.Filter.Reading
import ResourceQuery.Pagination
import ResourceQuery.Search
import ResourceQuery.Selection.Reading
import ResourceQuery.Sorting.Reading

/-!
# Specifications

The specification of a request says what it asks for, in the terms of its schema and without
regard to any backend. Each enabled capability reads its own parameters and contributes its part;
the part of a capability that is not enabled is missing, and filters are then empty. The report
holds the faults of the enabled capabilities, one capability after the other.

A backend is handed the parts of a specification one by one, in a fixed order.

## Main definitions

* `Specification.ofRequest`: the specification of a request.
* `Specification.faultsOf`: the faults of one capability.
* `Part`, `Specification.parts`: what a backend is handed.
* `Specification.toJson`: the published form.
-/

namespace ResourceQuery

/-- What a request asks for. -/
structure Specification where
  selection : Option Selection
  filters : List Predicate
  window : Option Window
  sort : Option SortKey
  search : Option SearchTerm
  report : Report

/-- One part of a specification, as a backend is handed it. -/
inductive Part
  /-- The columns that are selected; none means all. -/
  | columns (names : List String)
  | filter (predicate : Predicate)
  | window (window : Window)
  | sort (key : SortKey)
  | search (term : SearchTerm)

namespace Specification

/-- The faults that the reader of a capability finds in a request. -/
def faultsOf (schema : Schema) (request : Request) : Capability → List Fault
  | .selection => (Selection.read schema request).faults
  | .filtering => (Filter.read schema request).faults
  | .pagination => (Window.read schema request).faults
  | .sorting => (SortKey.read schema request).faults
  | .search => (SearchTerm.read schema request).faults

/-- A part, if its capability is enabled. -/
def ifEnabled {α : Type} (schema : Schema) (c : Capability) (part : α) : Option α :=
  if schema.enabled.isEnabled c then some part else none

/-- The specification of a request. -/
def ofRequest (schema : Schema) (request : Request) : Specification where
  selection := ifEnabled schema .selection (Selection.read schema request).output
  filters := (ifEnabled schema .filtering (Filter.read schema request).output).getD []
  window := ifEnabled schema .pagination (Window.read schema request).output
  sort := ifEnabled schema .sorting (SortKey.read schema request).output
  search := (ifEnabled schema .search (SearchTerm.read schema request).output).join
  report := ⟨schema.enabled.enabled.flatMap (faultsOf schema request)⟩

/-- A specification without faults. -/
def isValid (spec : Specification) : Bool :=
  spec.report.isEmpty

/-- The parts of a specification in the order in which a backend is handed them. -/
def parts (spec : Specification) : List Part :=
  (spec.selection.map fun s => Part.columns s.columns).toList
    ++ spec.filters.map Part.filter
    ++ (spec.window.map Part.window).toList
    ++ (spec.sort.map Part.sort).toList
    ++ (spec.search.map Part.search).toList

/-- The published form of a specification. -/
def toJson (spec : Specification) : Json :=
  .object
    [("fields", Json.ofOption Selection.toJson spec.selection),
      ("filters", .array (spec.filters.map Predicate.toJson)),
      ("pagination", Json.ofOption Window.toJson spec.window),
      ("sort", Json.ofOption SortKey.toJson spec.sort),
      ("search", Json.ofOption SearchTerm.toJson spec.search),
      ("errors", spec.report.toJson)]

end Specification

end ResourceQuery
