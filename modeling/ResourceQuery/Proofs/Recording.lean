import ResourceQuery.Proofs.Independence
import ResourceQuery.Proofs.Ordering
import ResourceQuery.Proofs.Text.Cutting
import ResourceQuery.Recording

/-!
# A shared report is the sum of its readers' faults

Recorders share one report, so it has to be seen that none of them reads, changes or drops what
others have recorded. `Recorder.Appends` says that a recorder does what a reading describes: handed
any report, it puts out the reading's output and adds the reading's faults at the end. This is kept
by each way of putting recorders together, one after the other (`Appends.bind`) and item by item
(`Appends.foldlM`), so it holds of the recorder of each capability, with the reading of its reader
(`Capability.appends_recorder`).

Therefore the report of a request is the concatenation of what the enabled capabilities record when
they run alone.

## Main definitions

* `Recorder.Appends`: a recorder does what a reading describes.
* `Capability.alone`: what a recorder puts out and records on an empty report.
* `Specification.Holds`: a specification has this part for a capability.

## Main statements

* `Capability.appends_recorder`: the recorder of each capability does what its reader returns.
* `Specification.gather_eq_ofRequest`: with one report or with one for each capability, the
  specification is the same.
* `Specification.sum_of_alone`: a specification is the sum of independent runs.
-/

namespace ResourceQuery

/-! ### Recorders that append -/

namespace Recorder

variable {α β ι : Type}

/-- The recorder puts out what the reading does, and adds its faults at the end of any report. -/
def Appends (recorder : Recorder α) (reading : Reading α) : Prop :=
  ∀ report : Report, recorder.run report = (reading.output, report.merge ⟨reading.faults⟩)

/-- Merging no faults changes nothing. -/
theorem merge_nil (report : Report) : report.merge ⟨[]⟩ = report := by
  rw [Report.merge, List.append_nil]

/-- Merging faults twice is merging them one after the other. -/
theorem merge_merge (report : Report) (first second : List Fault) :
    (report.merge ⟨first⟩).merge ⟨second⟩ = report.merge ⟨first ++ second⟩ := by
  simp only [Report.merge, List.append_assoc]

/-- Recording nothing appends nothing. -/
theorem Appends.pure (a : α) : Appends (Pure.pure a) (.clean a) := by
  intro report
  rw [Reading.clean, merge_nil]
  rfl

/-- A refusal appends its fault. -/
theorem Appends.refuse (fault : Fault) (a : α) : Appends (refuse fault a) ⟨a, [fault]⟩ :=
  fun _ => rfl

/-- A recorder that goes on runs in the report of the first. -/
theorem run_bind (recorder : Recorder α) (next : α → Recorder β) (report : Report) :
    (recorder >>= next).run report
      = (next (recorder.run report).1).run (recorder.run report).2 := rfl

/-- What a recorder returns, and the report that it leaves. -/
theorem Appends.run {recorder : Recorder α} {reading : Reading α} (h : recorder.Appends reading)
    (report : Report) : recorder.run report = (reading.output, report.merge ⟨reading.faults⟩) :=
  h report

/-- One recorder after the other appends the faults of both. -/
theorem Appends.bind {recorder : Recorder α} {reading : Reading α} {more : Reading β}
    (h : recorder.Appends reading) (next : α → Recorder β)
    (hnext : (next reading.output).Appends more) :
    (recorder >>= next).Appends ⟨more.output, reading.faults ++ more.faults⟩ := by
  intro report
  rw [run_bind, h.run, hnext.run, merge_merge]

/-- A recorder whose output is put into another form. -/
theorem Appends.map {recorder : Recorder α} {reading : Reading α} (h : recorder.Appends reading)
    (f : α → β) : (f <$> recorder).Appends ⟨f reading.output, reading.faults⟩ := by
  intro report
  have hrun : (f <$> recorder).run report
      = (f (recorder.run report).1, (recorder.run report).2) := rfl
  rw [hrun, h report]

/-- Item by item, a recorder appends the faults of all items. -/
theorem Appends.foldlM {step : α → ι → Recorder α} {f : α → ι → α} {faults : ι → List Fault}
    (h : ∀ a item, (step a item).Appends ⟨f a item, faults item⟩) (items : List ι) (init : α) :
    (items.foldlM step init).Appends ⟨items.foldl f init, items.flatMap faults⟩ := by
  induction items generalizing init with
  | nil => exact .pure init
  | cons item items ih =>
      rw [List.foldlM_cons, List.foldl_cons, List.flatMap_cons]
      have hrest : (items.foldlM step (f init item)).Appends
          ⟨items.foldl f (f init item), items.flatMap faults⟩ := ih (f init item)
      exact (h init item).bind (fun a => items.foldlM step a) hrest

/-- A recorder that runs only if its capability is enabled. -/
theorem Appends.ifEnabled {recorder : Recorder α} {reading : Reading α}
    (h : recorder.Appends reading) (schema : Schema) (c : Capability) :
    (Recorder.ifEnabled schema c recorder).Appends
      ⟨Specification.ifEnabled schema c reading.output,
        if schema.enabled.isEnabled c then reading.faults else []⟩ := by
  unfold Recorder.ifEnabled Specification.ifEnabled
  cases schema.enabled.isEnabled c with
  | true => exact h.map some
  | false => exact .pure none

end Recorder

open Recorder

/-! ### The recorders of the capabilities -/

namespace Selection

/-- The recorder of an expression appends the faults of its reading. -/
theorem appends_recordExpression (schema : Schema) (selection : Selection) (expression : String) :
    (recordExpression schema selection expression).Appends
      ⟨(readExpression schema.params.select expression).output.foldl
          (insertDeclared schema.fields) selection,
        (readExpression schema.params.select expression).faults⟩ := by
  unfold recordExpression readExpression
  cases Expression.paths expression with
  | ok paths => exact .pure _
  | error e => exact .refuse _ _

/-- The recorder of an item appends the faults of its reading. -/
theorem appends_recordItem (schema : Schema) (selection : Selection) (item : Json) :
    (recordItem schema selection item).Appends
      ⟨(readItem schema.params.select item).output.foldl (insertDeclared schema.fields) selection,
        (readItem schema.params.select item).faults⟩ := by
  cases item with
  | string expression => exact appends_recordExpression schema selection expression
  | _ => exact .refuse _ _

/-- The recorder of selections appends what the reader says. -/
theorem appends_record (schema : Schema) (request : Request) :
    (record schema request).Appends (read schema request) := by
  unfold record read
  cases request.get? schema.params.select with
  | none => exact .pure empty
  | some given =>
      cases given with
      | null => exact .pure empty
      | string expression => exact appends_recordExpression schema empty expression
      | array items =>
          have hitems := Appends.foldlM (appends_recordItem schema) items empty
          rwa [← List.foldl_flatMap] at hitems
      | _ => exact .refuse _ _

end Selection

namespace Filter

/-- What outcomes add to the predicates that were read before them. -/
def added (predicates : List Predicate) (outcomes : List Outcome) : Reading (List Predicate) :=
  ⟨predicates ++ outcomes.filterMap predicate?, outcomes.filterMap fault?⟩

/-- A refused filter appends one outcome, its fault. -/
theorem appends_refuse (predicates : List Predicate) (fault : Fault) :
    (refuse fault predicates).Appends (added predicates [.error fault]) := by
  intro report
  rw [added, List.filterMap_cons_none rfl, List.filterMap_nil, List.append_nil]
  rfl

/-- Item by item, the predicates of all outcomes are added. -/
theorem appends_foldlM {ι : Type} {step : List Predicate → ι → Recorder (List Predicate)}
    {outcomes : ι → List Outcome}
    (h : ∀ predicates item, (step predicates item).Appends (added predicates (outcomes item)))
    (items : List ι) (predicates : List Predicate) :
    (items.foldlM step predicates).Appends (added predicates (items.flatMap outcomes)) := by
  have hitems := Appends.foldlM h items predicates
  rw [List.foldl_append_eq_append] at hitems
  rwa [added, List.filterMap_flatMap, List.filterMap_flatMap]

/-- The first reason against an entry is its only fault. -/
theorem appends_recordPredicate (schema : Schema) (field token : String) (given : Option Json) :
    (Predicate.recordEntry schema field token given).Appends
      ⟨predicate? (entryOutcome schema field token given),
        (fault? (entryOutcome schema field token given)).toList⟩ := by
  unfold Predicate.recordEntry entryOutcome Predicate.readEntry
  cases schema.filterRule? field with
  | none => exact .refuse _ _
  | some rule =>
      cases Operator.ofToken? token with
      | none => exact .refuse _ _
      | some op =>
          cases hallows : rule.allows op with
          | false =>
              simp only [hallows]
              exact .refuse _ _
          | true =>
              simp only [hallows]
              cases given with
              | none => exact .refuse _ _
              | some given =>
                  simp only
                  cases Operand.read op rule.type given with
                  | ok operand => exact .pure _
                  | error cause => exact .refuse _ _

/-- One outcome adds its predicate or its fault. -/
theorem added_singleton (predicates : List Predicate) (outcome : Outcome) :
    added predicates [outcome]
      = ⟨predicates ++ (predicate? outcome).toList, (fault? outcome).toList⟩ := by
  cases outcome <;> rfl

/-- The recorder of an operator entry adds its outcome. -/
theorem appends_recordEntry (schema : Schema) (field : String) (predicates : List Predicate)
    (token : String) (given : Option Json) :
    (recordEntry schema field predicates token given).Appends
      (added predicates [entryOutcome schema field token given]) := by
  have hadd : (pure (predicates ++ (predicate? (entryOutcome schema field token given)).toList) :
      Recorder (List Predicate)).Appends ⟨_, []⟩ := .pure _
  have hentry := (appends_recordPredicate schema field token given).bind
    (fun predicate => pure (predicates ++ predicate.toList)) hadd
  rwa [List.append_nil, ← added_singleton] at hentry

/-- The recorder of a field adds the outcomes of what is asked of it. -/
theorem appends_recordField (schema : Schema) (predicates : List Predicate) (field : String)
    (asked : Json) :
    (recordField schema predicates field asked).Appends
      (added predicates (fieldOutcomes schema field asked)) := by
  cases asked with
  | object members =>
      simp only [recordField, fieldOutcomes]
      cases tag? members with
      | none =>
          have hmembers := appends_foldlM
            (fun predicates (entry : String × Json) =>
              appends_recordEntry schema field predicates entry.1 (some entry.2)) members predicates
          rwa [← List.map_eq_flatMap] at hmembers
      | some tag =>
          cases tag with
          | string token =>
              exact appends_recordEntry schema field predicates token (Entries.get? members "value")
          | _ => exact appends_refuse predicates _
  | _ => exact appends_recordEntry schema field predicates "eq" (some _)

/-- An entry of a list has one outcome: what it asks of its field is read as in an object, and since
it has a tag, that is one outcome as well. -/
theorem appends_recordListEntry (schema : Schema) (predicates : List Predicate) (entry : Json) :
    (recordListEntry schema predicates entry).Appends
      (added predicates [listOutcome schema schema.params.filter entry]) := by
  cases entry with
  | object members =>
      simp only [recordListEntry, listOutcome]
      cases Entries.get? members "field" with
      | none => exact appends_refuse predicates _
      | some name =>
          cases name with
          | string field =>
              have hfield := appends_recordField schema predicates field (.object members)
              simp only [fieldOutcomes] at hfield
              cases htag : tag? members with
              | none => exact appends_refuse predicates _
              | some tag =>
                  rw [htag] at hfield
                  exact hfield
          | _ => exact appends_refuse predicates _
  | _ => exact appends_refuse predicates _

/-- The recorder of filters appends what the reader says. -/
theorem appends_record (schema : Schema) (request : Request) :
    (record schema request).Appends (read schema request) := by
  simp only [record, read, outcomes]
  cases request.get? schema.params.filter with
  | none => exact .pure []
  | some given =>
      cases given with
      | null => exact .pure []
      | object fields =>
          exact appends_foldlM (fun predicates (entry : String × Json) =>
            appends_recordField schema predicates entry.1 entry.2) fields []
      | array entries =>
          have hentries := appends_foldlM (appends_recordListEntry schema) entries []
          rwa [← List.map_eq_flatMap] at hentries
      | _ => exact appends_refuse [] _

end Filter

namespace Window

/-- The recorder of a count appends the faults of its parameter. -/
theorem appends_recordCount (param : String) (value : Option Json) :
    (recordCount param value).Appends
      ⟨(CountParam.ofValue value).count?, (CountParam.ofValue value).faults param⟩ := by
  unfold recordCount
  cases CountParam.ofValue value with
  | unset => exact .pure none
  | count n => exact .pure (some n)
  | invalid given => exact .refuse _ none

/-- The recorder of a bounded limit appends what the reader says. -/
theorem appends_recordBounded (schema : Schema) (limit : Option UInt64) :
    (recordBounded schema limit).Appends
      (boundedLimit schema.params.limit schema.maxLimit limit) := by
  unfold recordBounded boundedLimit
  cases limit with
  | none => exact .pure none
  | some limit =>
      cases schema.maxLimit with
      | none => exact .pure (some limit)
      | some maximum =>
          simp only
          split
          · exact .refuse _ none
          · exact .pure (some limit)

/-- The recorder of windows appends what the reader says. -/
theorem appends_record (schema : Schema) (request : Request) :
    (record schema request).Appends (read schema request) := by
  intro report
  simp only [record]
  rw [run_bind, (appends_recordCount _ _).run, run_bind, (appends_recordCount _ _).run, run_bind,
    (appends_recordBounded _ _).run, merge_merge, merge_merge, ← List.append_assoc]
  rfl

end Window

namespace SortKey

/-- The recorder of a direction appends what the reader says. -/
theorem appends_recordDirection (field : String) (token : Option String) :
    (recordDirection field token).Appends (readDirection field token) := by
  unfold recordDirection readDirection
  cases token.map Text.trimmed with
  | none => exact .pure _
  | some token =>
      by_cases hempty : token = ""
      · subst hempty
        exact .pure _
      · simp only
        cases Direction.ofToken? token with
        | none => exact .refuse _ none
        | some direction => exact .pure (some direction)

/-- The recorder of a sortable field appends the faults of the field. -/
theorem appends_recordSortable (schema : Schema) (field : String) :
    (recordSortable schema field).Appends
      ⟨schema.isSortable field, fieldFaults schema field⟩ := by
  unfold recordSortable fieldFaults
  cases schema.isSortable field with
  | true => exact .pure true
  | false => exact .refuse _ false

/-- The recorder of a field and a direction appends what the reader says. -/
theorem appends_recordValidated (schema : Schema) (field : String) (token : Option String) :
    (recordValidated schema field token).Appends (validate schema field token) := by
  intro report
  rw [validate_eq, recordValidated, run_bind, (appends_recordSortable schema field).run, run_bind,
    (appends_recordDirection field token).run, merge_merge]
  cases schema.isSortable field with
  | false => rfl
  | true => cases (readDirection field token).output <;> rfl

/-- The recorder of an ordering as text appends what the reader says. -/
theorem appends_recordText (schema : Schema) (text : String) :
    (recordText schema text).Appends (ofText schema text) := by
  simp only [recordText, ofText]
  split
  · exact .pure _
  · exact appends_recordValidated schema _ _

/-- The recorder of an ordering as object appends what the reader says. -/
theorem appends_recordObject (schema : Schema) (members : List (String × Json)) :
    (recordObject schema members).Appends (ofObject schema members) := by
  unfold recordObject ofObject
  cases Entries.get? members "field" with
  | none => exact .pure _
  | some name =>
      cases name with
      | null => exact .pure _
      | string field =>
          simp only [Text.trimmed_eq_empty_iff]
          split
          · exact .pure _
          · unfold ofDirectionMember
            cases directionMember? members with
            | none => exact appends_recordValidated schema _ none
            | some direction =>
                cases direction with
                | null => exact appends_recordValidated schema _ none
                | string direction => exact appends_recordValidated schema _ (some direction)
                | _ => exact .refuse _ unordered
      | _ => exact .refuse _ unordered

/-- The recorder of orderings appends what the reader says. -/
theorem appends_record (schema : Schema) (request : Request) :
    (record schema request).Appends (read schema request) := by
  unfold record read
  cases request.get? schema.params.sort with
  | none => exact .pure _
  | some given =>
      cases given with
      | null => exact .pure _
      | string text => exact appends_recordText schema text
      | object members => exact appends_recordObject schema members
      | _ => exact .refuse _ unordered

end SortKey

namespace SearchTerm

/-- The recorder of a value and a target appends what the reader says. -/
theorem appends_recordResolved (schema : Schema) (named : Option String) (value : String) :
    (recordResolved schema named value).Appends (resolve schema named value) := by
  unfold recordResolved resolve
  split
  · exact .pure none
  · cases targetOf? schema named with
    | none => exact .refuse _ none
    | some target =>
        simp only
        cases schema.searchTarget? target with
        | none => exact .refuse _ none
        | some fields => exact .pure _

/-- The recorder of a value member appends what the reader says. -/
theorem appends_recordValueMember (schema : Schema) (named : Option String) (value : Option Json) :
    (recordValueMember schema named value).Appends (ofValueMember schema named value) := by
  cases value with
  | none => exact .pure none
  | some given =>
      cases given with
      | null => exact .pure none
      | string value => exact appends_recordResolved schema named value
      | number n => exact appends_recordResolved schema named (Json.number n).compact
      | bool b => exact appends_recordResolved schema named (Json.bool b).compact
      | _ => exact .refuse _ none

/-- The recorder of searches appends what the reader says. -/
theorem appends_record (schema : Schema) (request : Request) :
    (record schema request).Appends (read schema request) := by
  unfold record read
  cases request.get? schema.params.search with
  | none => exact .pure none
  | some given =>
      cases given with
      | null => exact .pure none
      | string value => exact appends_recordResolved schema none value
      | object members =>
          simp only [ofObject]
          cases targetMember? members with
          | none => exact appends_recordValueMember schema none _
          | some target =>
              cases target with
              | null => exact appends_recordValueMember schema none _
              | string target => exact appends_recordValueMember schema (some target) _
              | _ => exact .refuse _ none
      | _ => exact .refuse _ none

end SearchTerm

/-! ### All capabilities -/

namespace Capability

/-- What the reader of a capability returns. -/
def reading (schema : Schema) (request : Request) : (c : Capability) → Reading c.Output
  | .selection => Selection.read schema request
  | .filtering => Filter.read schema request
  | .pagination => Window.read schema request
  | .sorting => SortKey.read schema request
  | .search => SearchTerm.read schema request

/-- The recorder of each capability does what its reader returns. -/
theorem appends_recorder (schema : Schema) (request : Request) (c : Capability) :
    (c.recorder schema request).Appends (c.reading schema request) := by
  cases c with
  | selection => exact Selection.appends_record schema request
  | filtering => exact Filter.appends_record schema request
  | pagination => exact Window.appends_record schema request
  | sorting => exact SortKey.appends_record schema request
  | search => exact SearchTerm.appends_record schema request

/-- The faults of a reading are those of the specification about its capability. -/
theorem faults_reading (schema : Schema) (request : Request) (c : Capability) :
    (c.reading schema request).faults = Specification.faultsOf schema request c := by
  cases c <;> rfl

/-- What the recorder of a capability puts out and records when it is the only one. -/
def alone (schema : Schema) (request : Request) (c : Capability) : c.Output × Report :=
  (c.recorder schema request).run .empty

/-- A capability recorded alone leaves its output and its faults. -/
theorem alone_eq (schema : Schema) (request : Request) (c : Capability) :
    c.alone schema request
      = ((c.reading schema request).output, ⟨Specification.faultsOf schema request c⟩) := by
  rw [alone, (appends_recorder schema request c).run, faults_reading]
  rfl

end Capability

namespace Specification

/-- The faults of a request are those of its enabled capabilities, in order. -/
theorem faults_report (schema : Schema) (request : Request) :
    (ofRequest schema request).report.faults
      = (Capability.all.filter schema.enabled.isEnabled).flatMap (faultsOf schema request) := by
  have henabled : schema.enabled.enabled = Capability.all.filter schema.enabled.isEnabled := by
    refine List.filter_congr fun c _ => ?_
    rw [Schema.isEnabled_enabled]
    simp [Capability.mem_all]
  rw [ofRequest, henabled]

/-- A filtered traversal, with the filter inside. -/
theorem flatMap_filter {α β : Type} (p : α → Bool) (f : α → List β) (as : List α) :
    (as.filter p).flatMap f = as.flatMap fun a => if p a then f a else [] := by
  induction as with
  | nil => rfl
  | cons a as ih =>
      rw [List.flatMap_cons, ← ih, List.filter_cons]
      split <;> rfl

/-- Handed any report, the recorders of the enabled capabilities put out the specification of the
request, and in its report the faults of the request follow what was there. -/
theorem run_gathered (schema : Schema) (request : Request) (report : Report) :
    ((gathered schema request).run report).1
      = { ofRequest schema request with
          report := report.merge (ofRequest schema request).report } := by
  -- What the five recorders leave, one after the other, where a disabled one leaves nothing.
  have hfaults : (ofRequest schema request).report
      = ⟨_ ++ (_ ++ (_ ++ (_ ++ (_ ++ []))))⟩ :=
    congrArg Report.mk ((faults_report schema request).trans (flatMap_filter _ _ _))
  rw [hfaults, List.append_nil, gathered,
    run_bind, ((Selection.appends_record schema request).ifEnabled _ _).run,
    run_bind, ((Filter.appends_record schema request).ifEnabled _ _).run,
    run_bind, ((Window.appends_record schema request).ifEnabled _ _).run,
    run_bind, ((SortKey.appends_record schema request).ifEnabled _ _).run,
    run_bind, ((SearchTerm.appends_record schema request).ifEnabled _ _).run]
  simp only [merge_merge, List.append_assoc]
  rfl

/-- With one report for all capabilities or with one for each, the specification is the same. -/
theorem gather_eq_ofRequest (schema : Schema) (request : Request) :
    gather schema request = ofRequest schema request := by
  rw [gather, run_gathered]
  rfl

/-- The part of a specification for a capability is this output of its recorder. -/
def Holds (spec : Specification) : (c : Capability) → c.Output → Prop
  | .selection, selection => spec.selection = some selection
  | .filtering, filters => spec.filters = filters
  | .pagination, window => spec.window = some window
  | .sorting, sort => spec.sort = some sort
  | .search, search => spec.search = search

/-- The specification of a request holds the output of each enabled reading. -/
theorem holds_ofRequest {schema : Schema} {c : Capability} (h : schema.enabled.isEnabled c = true)
    (request : Request) :
    (ofRequest schema request).Holds c (c.reading schema request).output := by
  have hpart {α : Type} (part : α) : ifEnabled schema c part = some part := if_pos h
  cases c with
  | selection => exact hpart _
  | filtering => exact congrArg (Option.getD · []) (hpart _)
  | pagination => exact hpart _
  | sorting => exact hpart _
  | search => exact congrArg Option.join (hpart _)

/-- **A specification is the sum of independent runs.** A recorder puts out the same on every report
and adds the faults that it records when it is alone, all of its own capability. So the
specification that is gathered with one report is that of the readers, its report is the
concatenation of what the enabled capabilities record alone, in their order, the faults of each of
them are found again by its name, there are none exactly if each of them records none, and the part
for each of them is its own output. -/
theorem sum_of_alone (schema : Schema) (request : Request) :
    (∀ (c : Capability) (report : Report), (c.recorder schema request).run report
      = ((c.alone schema request).1, report.merge (c.alone schema request).2)) ∧
    (∀ c : Capability, ∀ fault ∈ (c.alone schema request).2.faults, fault.capability = c) ∧
    gather schema request = ofRequest schema request ∧
    (gather schema request).report.faults
      = ((Capability.all.filter schema.enabled.isEnabled).flatMap fun c =>
          (c.alone schema request).2.faults) ∧
    (∀ c, (gather schema request).report.ofCapability c
      = if schema.enabled.isEnabled c then (c.alone schema request).2.faults else []) ∧
    ((gather schema request).isValid = true ↔
      ∀ c, schema.enabled.isEnabled c = true → (c.alone schema request).2.faults = []) ∧
    ∀ c, schema.enabled.isEnabled c = true →
      (gather schema request).Holds c (c.alone schema request).1 := by
  simp only [gather_eq_ofRequest, Capability.alone_eq]
  refine ⟨?_, fun c fault h => capability_of_mem_faultsOf h, trivial, faults_report schema request,
    ofCapability_report schema request, ?_, fun c h => holds_ofRequest h request⟩
  · intro c report
    rw [(Capability.appends_recorder schema request c).run, Capability.faults_reading]
  · rw [isValid, Report.isEmpty, List.isEmpty_iff, faults_report, List.flatMap_eq_nil_iff]
    simp only [List.mem_filter, Capability.mem_all, true_and]

/-- A request with an operator that is none, a field that is not sorted by, and a search. -/
def faultyRequest : Request :=
  ⟨[("sort", .string "age"), ("search", .string "jo"),
    ("filter", .object
      [("age", .object
        [("about", .number (.integer 40)), ("gte", .number (.integer 18))])])]⟩

/-- The faults about the filter and the ordering are each found by their capability, and nothing is
recorded of a search that the schema does not offer. -/
theorem sum_of_alone_faulty :
    ∃ schema, Schema.ofDefinition Sample.minimal = .ok schema ∧
      (gather schema faultyRequest).report.size = 2 ∧
      schema.enabled.isEnabled .filtering = true ∧
      (gather schema faultyRequest).Holds .filtering
        (Capability.alone schema faultyRequest .filtering).1 ∧
      (gather schema faultyRequest).report.ofCapability .sorting
        = (Capability.alone schema faultyRequest .sorting).2.faults ∧
      (gather schema faultyRequest).report.ofCapability .search = [] :=
  ⟨_, rfl, rfl, rfl, (sum_of_alone _ faultyRequest).2.2.2.2.2.2 .filtering rfl,
    (sum_of_alone _ faultyRequest).2.2.2.2.1 .sorting,
    (sum_of_alone _ faultyRequest).2.2.2.2.1 .search⟩

end Specification

end ResourceQuery
