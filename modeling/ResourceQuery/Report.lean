import ResourceQuery.Capability
import ResourceQuery.Json.Basic

/-!
# The report of a request

Reading a request never fails. What a client asks for and cannot have becomes a *fault* in the
request's report, and reading goes on. A fault names the capability that refused, the field that
it is about (or the request parameter, when there is no field), the kind of the fault and a message
for people.

A report keeps its faults in the order in which they were found. It is published in groups: by
capability in their fixed order, then by field in increasing order, each group in the order found.

## Main definitions

* `FaultKind`, `Fault`, `Report`.
* `Report.grouped`, `Report.toJson`: the published form.
* `Reading`: what a reader returns, an output and the faults found on the way.
-/

namespace ResourceQuery

/-- The kinds of faults. -/
inductive FaultKind
  | fieldSelection
  | unknownField
  | filterOperator
  | filterValueShape
  | paginationValue
  | sortField
  | sortDirection
  | searchTarget
deriving DecidableEq

namespace FaultKind

/-- All kinds. -/
def all : List FaultKind :=
  [.fieldSelection, .unknownField, .filterOperator, .filterValueShape, .paginationValue,
    .sortField, .sortDirection, .searchTarget]

/-- The name under which a kind is reported. -/
def name : FaultKind → String
  | .fieldSelection => "InvalidFieldSelection"
  | .unknownField => "UnknownFieldReference"
  | .filterOperator => "InvalidFilterOperator"
  | .filterValueShape => "InvalidFilterValueShape"
  | .paginationValue => "InvalidPaginationValue"
  | .sortField => "InvalidSortField"
  | .sortDirection => "InvalidSortDirection"
  | .searchTarget => "InvalidSearchTarget"

/-- The kind with a name. -/
def ofName? (text : String) : Option FaultKind :=
  all.find? fun k => k.name = text

/-- A kind of fault is found by its name. -/
theorem ofName?_name (k : FaultKind) : ofName? k.name = some k := by
  cases k <;> decide

end FaultKind

/-- One thing that a request asked for and cannot have. -/
structure Fault where
  capability : Capability
  /-- The field that the fault is about, or the request parameter when there is no field. -/
  field : String
  kind : FaultKind
  message : String
deriving DecidableEq

namespace Fault

/-- The fault on one line. -/
def text (fault : Fault) : String :=
  fault.capability.name ++ " `" ++ fault.field ++ "`: " ++ fault.message

/-- The fault with all of its parts. -/
def toJson (fault : Fault) : Json :=
  .object
    [("capability", .string fault.capability.name), ("field", .string fault.field),
      ("kind", .string fault.kind.name), ("message", .string fault.message)]

/-- The fault as it stands in its group, where capability and field are known. -/
def groupedJson (fault : Fault) : Json :=
  .object [("kind", .string fault.kind.name), ("message", .string fault.message)]

end Fault

/-- The faults of a request, in the order in which they were found. -/
structure Report where
  faults : List Fault
deriving DecidableEq

namespace Report

/-- The report without a fault. -/
def empty : Report := ⟨[]⟩

/-- The report with one more fault. -/
def record (report : Report) (fault : Fault) : Report :=
  ⟨report.faults ++ [fault]⟩

/-- The faults of one report and then those of another. -/
def merge (report other : Report) : Report :=
  ⟨report.faults ++ other.faults⟩

/-- Whether there is no fault. -/
def isEmpty (report : Report) : Bool :=
  report.faults.isEmpty

/-- The number of faults. -/
def size (report : Report) : Nat :=
  report.faults.length

/-- The faults of one capability. -/
def ofCapability (report : Report) (c : Capability) : List Fault :=
  report.faults.filter fun fault => fault.capability = c

/-- The faults of one capability about one field. -/
def ofField (report : Report) (c : Capability) (field : String) : List Fault :=
  (report.ofCapability c).filter fun fault => fault.field = field

/-- Whether there is a fault of a kind. -/
def hasKind (report : Report) (kind : FaultKind) : Bool :=
  report.faults.any fun fault => fault.kind = kind

/-- Adds a fault to the group of its field. -/
def addToGroup (groups : SortedEntries (List Fault)) (fault : Fault) :
    SortedEntries (List Fault) :=
  groups.put fault.field ((groups.get? fault.field).getD [] ++ [fault])

/-- The faults grouped by capability and field; capabilities without faults are left out. -/
def grouped (report : Report) : List (Capability × SortedEntries (List Fault)) :=
  Capability.all.filterMap fun c =>
    match report.ofCapability c with
    | [] => none
    | faults => some (c, faults.foldl addToGroup .empty)

/-- The published form of the report. -/
def toJson (report : Report) : Json :=
  .object <| report.grouped.map fun (c, groups) =>
    (c.name, .object <| groups.entries.map fun (field, faults) =>
      (field, .array (faults.map Fault.groupedJson)))

end Report

/-- What a reader returns: what it read, and the faults it found, in order. -/
structure Reading (α : Type) where
  output : α
  faults : List Fault

/-- A reading that found nothing to complain about. -/
def Reading.clean {α : Type} (output : α) : Reading α := ⟨output, []⟩

end ResourceQuery
