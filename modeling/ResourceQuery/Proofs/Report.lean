import Mathlib.Data.List.Basic
import Mathlib.Data.List.Induction
import ResourceQuery.Proofs.Entries
import ResourceQuery.Proofs.Lists
import ResourceQuery.Report

/-!
# The groups of a report

The published form of a report keeps the faults in groups, one for each capability and field.
`Report.get?_addToGroup` is the step: one more fault goes to the end of the group of its field and
leaves the other groups as they are. `Report.get?_groups` is the run: a group holds the faults about
its field in the order in which they were found. So what is looked up in the published form are the
faults of a capability about a field, and nothing but the order among faults of different groups is
lost.

## Main statements

* `Report.get?_groups`: the group of a field.
* `Report.get?_toJson`: what is published of a capability and a field.
* `Report.content_of_toJson_eq`: the published form determines the faults of every group.
-/

namespace ResourceQuery

/-- The capabilities have different names. -/
theorem Capability.name_injective : Function.Injective Capability.name :=
  injective_of_read Capability.ofName?_name

/-- The kinds of faults have different names. -/
theorem FaultKind.name_injective : Function.Injective FaultKind.name :=
  injective_of_read FaultKind.ofName?_name

namespace Fault

/-- What of a fault its group does not know already: its kind and its message. -/
def content (fault : Fault) : FaultKind × String :=
  (fault.kind, fault.message)

/-- The published form of a kind and a message. -/
def contentJson (content : FaultKind × String) : Json :=
  .object [("kind", .string content.1.name), ("message", .string content.2)]

/-- Contents of faults keep apart as JSON. -/
theorem contentJson_injective : Function.Injective contentJson := by
  rintro ⟨kind, message⟩ ⟨kind', message'⟩ h
  simp only [contentJson, Json.object.injEq, List.cons.injEq, Prod.mk.injEq, Json.string.injEq,
    and_true, true_and] at h
  rw [FaultKind.name_injective h.1, h.2]

/-- The grouped form of faults shows their contents only. -/
theorem map_groupedJson (faults : List Fault) :
    faults.map groupedJson = (faults.map content).map contentJson := by
  rw [List.map_map]
  rfl

end Fault

namespace Report

/-! ### Groups -/

/-- What is there, if something is. -/
def nonempty? (faults : List Fault) : Option (List Fault) :=
  if faults = [] then none else some faults

/-- Faults that are missing when there are none are the faults. -/
theorem getD_nonempty? (faults : List Fault) : (nonempty? faults).getD [] = faults := by
  rw [nonempty?]
  split
  · next h => exact h.symm
  · rfl

/-- **The step.** One more fault goes to the end of the group of its field. -/
theorem get?_addToGroup (groups : SortedEntries (List Fault)) (fault : Fault) (field : String) :
    (addToGroup groups fault).get? field
      = if fault.field = field then some ((groups.get? field).getD [] ++ [fault])
        else groups.get? field := by
  rw [addToGroup, SortedEntries.get?, SortedEntries.put, Entries.get?_putSorted]
  split
  · next h => rw [h]
  · rfl

/-- **The run.** The group of a field holds the faults about it, in the order found. -/
theorem get?_groups (faults : List Fault) (field : String) :
    (faults.foldl addToGroup .empty).get? field
      = nonempty? (faults.filter fun fault => fault.field = field) := by
  induction faults using List.reverseRecOn with
  | nil => rfl
  | append_singleton faults fault ih =>
      rw [List.foldl_append, List.foldl_cons, List.foldl_nil, get?_addToGroup, ih, getD_nonempty?]
      by_cases h : fault.field = field <;> simp [h, nonempty?]

/-! ### The published form -/

/-- The published form of the groups of a capability. -/
def groupsJson (groups : SortedEntries (List Fault)) : Json :=
  .object (groups.entries.map fun (field, faults) =>
    (field, .array (faults.map Fault.groupedJson)))

/-- The published form has a member for each capability with faults, under its name. -/
theorem toJson_eq (report : Report) :
    report.toJson = .object (Capability.all.filterMap fun c =>
      ((nonempty? (report.ofCapability c)).map fun faults =>
        groupsJson (faults.foldl addToGroup .empty)).map fun v => (c.name, v)) := by
  rw [toJson, grouped, List.map_filterMap]
  congr 2
  funext c
  rw [nonempty?]
  cases report.ofCapability c <;> rfl

/-- **What is published of a capability and a field** are its faults, if there are any. -/
theorem get?_toJson (report : Report) (c : Capability) (field : String) :
    (report.toJson.get? c.name).bind (Json.get? field)
      = (nonempty? (report.ofField c field)).map fun faults =>
          .array (faults.map Fault.groupedJson) := by
  rw [toJson_eq, Json.get?, Entries.get?_filterMap Capability.name_injective,
    if_pos (Capability.mem_all c), Option.bind_map]
  have hgroup (faults : List Fault) :
      (groupsJson (faults.foldl addToGroup .empty)).get? field
        = (nonempty? (faults.filter fun fault => fault.field = field)).map fun faults =>
            .array (faults.map Fault.groupedJson) := by
    rw [← get?_groups]
    exact Entries.get?_map (fun faults : List Fault => Json.array (faults.map Fault.groupedJson))
      _ field
  rw [ofField, nonempty?]
  split
  · next h => rw [h]; rfl
  · exact hgroup _

/-- **The published form determines the faults of every group**, by kind and message, in order. -/
theorem content_of_toJson_eq {report report' : Report} (h : report.toJson = report'.toJson)
    (c : Capability) (field : String) :
    (report.ofField c field).map Fault.content = (report'.ofField c field).map Fault.content := by
  have hgroups := report.get?_toJson c field
  rw [h, get?_toJson] at hgroups
  unfold nonempty? at hgroups
  split at hgroups <;> split at hgroups
  · next hnil' hnil => rw [hnil, hnil']
  · cases hgroups
  · cases hgroups
  · have hitems := Json.array.inj (Option.some.inj hgroups)
    rw [Fault.map_groupedJson, Fault.map_groupedJson] at hitems
    exact (List.map_injective_iff.mpr Fault.contentJson_injective hitems).symm

end Report

end ResourceQuery
