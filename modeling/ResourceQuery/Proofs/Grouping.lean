import Mathlib.Data.List.Perm.Basic
import Mathlib.Data.List.Sort
import ResourceQuery.Proofs.Report
import ResourceQuery.Proofs.Text.ByteOrder

/-!
# A published report keeps every fault

A report is built by calls that record a fault or merge another report. It is published in groups,
and the groups are said here without the way in which they are gathered: the capabilities that have
faults, in their order, under each of them the fields that have faults, in the order of their bytes,
and under each field what its faults say, in the order in which they came (`Report.Publishes`).

The capabilities are each there once, and so are the fields of a capability, so the groups make up
the report: every fault has its entry, and there are no other entries. And the groups depend on
nothing but the faults of each field, so two reports are published alike exactly when these are the
same, whatever order the faults of different fields came in.

## Main definitions

* `Report.Call`, `Report.ofCalls`: the reports that calls build.
* `Report.Publishes`: the published form of a report.
* `Report.publishedEntries`: the entries of a published form.

## Main statements

* `Report.faults_ofCalls`: the faults of a report are those that the calls bring, one after the
  other.
* `Report.publishes_toJson`: the groups that are published.
* `Report.publishedEntries_toJson_perm`: no fault is lost, and none is published twice.
* `Report.ofCalls_publishes`: the published form of the reports that calls build, and when two of
  them are published alike.
-/

namespace ResourceQuery

namespace Json

/-- The members of an object. Other values have none. -/
def members : Json → List (String × Json)
  | .object members => members
  | _ => []

/-- The items of an array. Other values have none. -/
def items : Json → List Json
  | .array items => items
  | _ => []

end Json

namespace Report

/-! ### Reports that calls build -/

/-- A call that adds to a report. -/
inductive Call
  | record (fault : Fault)
  | merge (other : Report)

/-- The report after a call. -/
def Call.apply (report : Report) : Call → Report
  | .record fault => report.record fault
  | .merge other => report.merge other

/-- The faults that a call brings. -/
def Call.faults : Call → List Fault
  | .record fault => [fault]
  | .merge other => other.faults

/-- The report that calls build, one after the other. -/
def ofCalls (calls : List Call) : Report :=
  calls.foldl Call.apply empty

/-- A call adds its faults at the end. -/
theorem Call.faults_apply (report : Report) (call : Call) :
    (call.apply report).faults = report.faults ++ call.faults := by
  cases call <;> rfl

/-- **The faults of a report are those that the calls bring**, one call after the other. -/
theorem faults_ofCalls (calls : List Call) :
    (ofCalls calls).faults = calls.flatMap Call.faults := by
  induction calls using List.reverseRecOn with
  | nil => rfl
  | append_singleton calls call ih =>
      rw [ofCalls, List.foldl_append, List.foldl_cons, List.foldl_nil, Call.faults_apply,
        ← ofCalls, ih, List.flatMap_append, List.flatMap_singleton]

/-! ### The groups of a capability -/

/-- The fields that a capability has faults about, as they are published. -/
def fieldsOf (report : Report) (c : Capability) : List String :=
  ((report.ofCapability c).foldl addToGroup .empty).entries.keys

/-- The fields of a capability are in order, each once. -/
theorem pairwise_fieldsOf (report : Report) (c : Capability) :
    (report.fieldsOf c).Pairwise (· < ·) :=
  ((report.ofCapability c).foldl addToGroup .empty).increasing

/-- The fields of a capability are those with a fault of it. -/
theorem mem_fieldsOf_iff {report : Report} {c : Capability} {field : String} :
    field ∈ report.fieldsOf c ↔ report.ofField c field ≠ [] := by
  rw [fieldsOf, ← Entries.isSome_get?_iff, ← SortedEntries.get?, get?_groups, nonempty?, ofField]
  split
  · next h => exact iff_of_false (by simp) (by simpa using h)
  · next h => exact iff_of_true rfl h

/-- A capability has faults exactly when it has some about a field. -/
theorem ofCapability_ne_nil_iff {report : Report} {c : Capability} :
    report.ofCapability c ≠ [] ↔ ∃ field, report.ofField c field ≠ [] := by
  constructor
  · intro h
    obtain ⟨fault, hfault⟩ := List.exists_mem_of_ne_nil _ h
    exact ⟨fault.field, List.ne_nil_of_mem (List.mem_filter.mpr ⟨hfault, decide_eq_true rfl⟩)⟩
  · rintro ⟨field, h⟩ hnil
    rw [ofField, hnil] at h
    exact h rfl

/-- The groups of a capability, as they are published. -/
theorem groupsJson_ofCapability (report : Report) (c : Capability) :
    groupsJson ((report.ofCapability c).foldl addToGroup .empty)
      = .object ((report.fieldsOf c).map fun field =>
          (field, .array ((report.ofField c field).map Fault.groupedJson))) := by
  rw [groupsJson, fieldsOf, Entries.keys, List.map_map]
  congr 1
  refine List.map_congr_left fun entry hentry => ?_
  obtain ⟨field, faults⟩ := entry
  have hget := SortedEntries.mem_entries_iff.mp hentry
  rw [get?_groups, nonempty?, ← ofField] at hget
  split at hget
  · cases hget
  · rw [← Option.some.inj hget]
    rfl

/-! ### The published form -/

/-- What is published of a report: the capabilities with faults in their order, under each of them
the fields with faults in the order of their bytes, and under each field the kinds and the messages
of its faults, in the order of the report. -/
structure Publishes (report : Report) (fields : Capability → List String) (json : Json) : Prop where
  mem_fields : ∀ c field, field ∈ fields c ↔ report.ofField c field ≠ []
  increasing : ∀ c, ((fields c).map fun field => field.toUTF8.data.toList).Pairwise (· < ·)
  json_eq : json = .object
    ((Capability.all.filter fun c => report.ofCapability c ≠ []).map fun c =>
      (c.name, .object ((fields c).map fun field =>
        (field, .array (((report.ofField c field).map Fault.content).map Fault.contentJson)))))

/-- **The groups that are published.** -/
theorem publishes_toJson (report : Report) : report.Publishes report.fieldsOf report.toJson where
  mem_fields _ _ := mem_fieldsOf_iff
  increasing c := (report.pairwise_fieldsOf c).map _ fun _ _ => Text.lt_iff_bytes_lt.mp
  json_eq := by
    rw [toJson_eq, ← List.filterMap_eq_filter, List.map_filterMap]
    congr 2
    funext c
    rw [nonempty?]
    by_cases h : report.ofCapability c = []
    · simp [h, Option.guard]
    · simp [h, Option.guard, groupsJson_ofCapability, Fault.map_groupedJson]

/-- The entries of a published form, one group after the other. -/
def publishedEntries (json : Json) : List Json :=
  json.members.flatMap fun (_, fields) => fields.members.flatMap fun (_, group) => group.items

/-- The fields of a capability make up its faults. -/
theorem flatMap_fieldsOf_perm (report : Report) (c : Capability) :
    ((report.fieldsOf c).flatMap (report.ofField c)).Perm (report.ofCapability c) := by
  refine flatMap_filter_perm Fault.field ?_ fun fault hfault => ?_
  · exact (report.pairwise_fieldsOf c).imp String.ne_of_lt
  · exact mem_fieldsOf_iff.mpr
      (List.ne_nil_of_mem (List.mem_filter.mpr ⟨hfault, decide_eq_true rfl⟩))

/-- The capabilities with faults make up the report. -/
theorem flatMap_ofCapability_perm (report : Report) :
    ((Capability.all.filter fun c => report.ofCapability c ≠ []).flatMap
      report.ofCapability).Perm report.faults := by
  refine flatMap_filter_perm Fault.capability ?_ fun fault hfault => ?_
  · exact List.filter_sublist.nodup (by decide)
  · have hmem : fault ∈ report.ofCapability fault.capability :=
      List.mem_filter.mpr ⟨hfault, decide_eq_true rfl⟩
    exact List.mem_filter.mpr
      ⟨Capability.mem_all _, decide_eq_true (List.ne_nil_of_mem hmem)⟩

/-- **No fault is lost, and none is published twice.** -/
theorem publishedEntries_toJson_perm (report : Report) :
    (publishedEntries report.toJson).Perm (report.faults.map Fault.groupedJson) := by
  have hentries : publishedEntries report.toJson
      = (((Capability.all.filter fun c => report.ofCapability c ≠ []).flatMap fun c =>
          (report.fieldsOf c).flatMap (report.ofField c)).map Fault.groupedJson) := by
    rw [report.publishes_toJson.json_eq]
    simp only [publishedEntries, Json.members, Json.items, List.flatMap_map, List.map_flatMap,
      Fault.map_groupedJson]
  rw [hentries]
  refine List.Perm.map _ (List.Perm.trans ?_ report.flatMap_ofCapability_perm)
  exact List.Perm.flatMap_left _ fun c _ => report.flatMap_fieldsOf_perm c

/-! ### Reports that are published alike -/

section

variable {report report' : Report}

/-- The fields of a capability are determined by what there is about each field. -/
theorem fieldsOf_congr {c : Capability}
    (h : ∀ field, report.ofField c field ≠ [] ↔ report'.ofField c field ≠ []) :
    report.fieldsOf c = report'.fieldsOf c := by
  refine (report.pairwise_fieldsOf c).eq_of_mem_iff (report'.pairwise_fieldsOf c) fun field => ?_
  rw [mem_fieldsOf_iff, mem_fieldsOf_iff, h]

/-- **Two reports are published alike exactly when every field has the same faults**, by kind and
message, in the same order. -/
theorem toJson_eq_iff :
    report.toJson = report'.toJson ↔ ∀ c field,
      (report.ofField c field).map Fault.content = (report'.ofField c field).map Fault.content := by
  refine ⟨content_of_toJson_eq, fun h => ?_⟩
  have hfield : ∀ c field, report.ofField c field ≠ [] ↔ report'.ofField c field ≠ [] := by
    intro c field
    rw [Ne, ← List.map_eq_nil_iff, h, List.map_eq_nil_iff]
  have hcapability : ∀ c, report.ofCapability c ≠ [] ↔ report'.ofCapability c ≠ [] := by
    intro c
    rw [ofCapability_ne_nil_iff, ofCapability_ne_nil_iff]
    exact exists_congr (hfield c)
  rw [report.publishes_toJson.json_eq, report'.publishes_toJson.json_eq]
  simp only [h, hcapability, fieldsOf_congr (hfield _)]

end

/-- **A published report keeps every fault.** In the report that calls build, the faults about a
field are those that the calls bring, in their order. It is published as the capabilities with
faults, the fields with faults under each of them, and what the faults about each field say. There
is an entry for every fault, and two reports are published alike exactly when the faults about every
field have the same kinds and messages, in the same order. -/
theorem ofCalls_publishes (calls : List Call) :
    (∀ c field, (ofCalls calls).ofField c field
      = (calls.flatMap Call.faults).filter fun fault =>
          fault.capability = c ∧ fault.field = field) ∧
      (∃ fields, (ofCalls calls).Publishes fields (ofCalls calls).toJson) ∧
      (publishedEntries (ofCalls calls).toJson).length = (ofCalls calls).size ∧
      ∀ others : List Call, (ofCalls calls).toJson = (ofCalls others).toJson ↔ ∀ c field,
        ((ofCalls calls).ofField c field).map Fault.content
          = ((ofCalls others).ofField c field).map Fault.content := by
  refine ⟨fun c field => ?_, ⟨_, publishes_toJson _⟩, ?_, fun others => toJson_eq_iff⟩
  · rw [ofField, ofCapability, faults_ofCalls, List.filter_filter]
    refine List.filter_congr fun fault _ => ?_
    rw [Bool.decide_and, Bool.and_comm]
  · rw [(publishedEntries_toJson_perm _).length_eq, List.length_map, size]

end Report

end ResourceQuery
