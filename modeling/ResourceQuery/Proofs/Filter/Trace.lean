import ResourceQuery.Proofs.Filter.Reading
import ResourceQuery.Sample
import ResourceQuery.Specification

/-!
# What becomes of each filter

A filter that is dropped without a word widens an answer, so whatever a client asks of a field has
to show: as a predicate on the field, or as a fault that names it. `Filter.Asks` lists what a
filter parameter asks for, form by form, and `Specification.accounts_for_filters` says that all of
it shows, with the operator that was asked for.

Two things are not on the list, since the reader passes over them: an empty object, which names a
field and asks for nothing, and the members beside the tag and the value of a tagged form, even if
they spell operators. `Specification.unaccounted_filters` has an example of each, and of an entry
of a list without a tag, which is reported under the name of the parameter.

## Main statements

* `Specification.accounts_for_filters`: what is asked of a field shows.
* `Specification.unaccounted_filters`: what does not show, or not under the field.
-/

namespace ResourceQuery

namespace Filter

/-- What a filter parameter asks of a field, with the operator if the form names one. -/
inductive Asks : Json → String → Option Operator → Prop
  /-- An operand by itself asks for equality. -/
  | short {fields : List (String × Json)} {field : String} {asked : Json} :
      (field, asked) ∈ fields → (∀ members, asked ≠ .object members) →
      Asks (.object fields) field (some .eq)
  /-- Each member of an object without a tag asks for the operator that it is named by. -/
  | member {fields members : List (String × Json)} {field token : String} {operand : Json} :
      (field, .object members) ∈ fields → tag? members = none → (token, operand) ∈ members →
      Asks (.object fields) field (Operator.ofToken? token)
  /-- An object with a tag asks for the operator of the tag. -/
  | tagged {fields members : List (String × Json)} {field : String} {tag : Json} :
      (field, .object members) ∈ fields → tag? members = some tag →
      Asks (.object fields) field (tagOperator? tag)
  /-- An entry of a list names its field, and asks for the operator of its tag. -/
  | listed {entries : List Json} {members : List (String × Json)} {field : String} {tag : Json} :
      .object members ∈ entries → Entries.get? members "field" = some (.string field) →
      tag? members = some tag → Asks (.array entries) field (tagOperator? tag)

/-- An entry of a list that names its field and has a tag. -/
def IsEntry (entry : Json) : Prop :=
  ∃ members field tag, entry = .object members ∧
    Entries.get? members "field" = some (.string field) ∧ tag? members = some tag

/-- What is asked of a field has an outcome about it. -/
theorem exists_about_of_asks (schema : Schema) (param : String) {field : String} {given : Json}
    {op : Option Operator} (h : Asks given field op) :
    ∃ outcome ∈ outcomes schema param (some given), outcome.About field op := by
  cases h with
  | @short fields _ asked hmem hshort =>
      refine ⟨entryOutcome schema field "eq" (some asked), List.mem_flatMap.mpr ⟨_, hmem, ?_⟩,
        about_entryOutcome schema field "eq" _⟩
      cases asked with
      | object members => exact absurd rfl (hshort members)
      | _ => exact List.mem_singleton_self _
  | @member fields members _ token operand hmem htag hmember =>
      refine ⟨entryOutcome schema field token (some operand),
        List.mem_flatMap.mpr ⟨_, hmem, ?_⟩, about_entryOutcome schema field token _⟩
      change _ ∈ fieldOutcomes schema field (.object members)
      rw [fieldOutcomes, htag]
      exact List.mem_map.mpr ⟨_, hmember, rfl⟩
  | @tagged fields members _ tag hmem htag =>
      refine ⟨taggedOutcome schema field tag members, List.mem_flatMap.mpr ⟨_, hmem, ?_⟩,
        about_taggedOutcome schema field tag members⟩
      change _ ∈ fieldOutcomes schema field (.object members)
      rw [fieldOutcomes, htag]
      exact List.mem_singleton_self _
  | @listed entries members _ tag hmem hfield htag =>
      refine ⟨taggedOutcome schema field tag members, List.mem_map.mpr ⟨_, hmem, ?_⟩,
        about_taggedOutcome schema field tag members⟩
      simp [listOutcome, hfield, htag]

/-- Anything but the empty object asks something of its field. -/
theorem exists_asks_of_mem {fields : List (String × Json)} {field : String} {asked : Json}
    (hmem : (field, asked) ∈ fields) (hne : asked ≠ .object []) :
    ∃ op, Asks (.object fields) field op := by
  cases asked with
  | object members =>
      cases htag : tag? members with
      | some tag => exact ⟨_, .tagged hmem htag⟩
      | none =>
          cases members with
          | nil => exact absurd rfl hne
          | cons member rest => exact ⟨_, .member hmem htag List.mem_cons_self⟩
  | _ => exact ⟨_, .short hmem (by simp)⟩

/-- An entry of a list that does not name its field or has no tag is a fault about the
parameter. -/
theorem listOutcome_of_not_isEntry (schema : Schema) (param : String) {entry : Json}
    (h : ¬ IsEntry entry) :
    listOutcome schema param entry = .error ((FilterCause.entry entry).fault param) := by
  unfold listOutcome
  split
  · split
    · next field tag hfield htag => exact absurd ⟨_, field, tag, rfl, hfield, htag⟩ h
    · rfl
  · rfl

end Filter

namespace Specification

/-- What is asked of a field shows in a specification: there is a predicate on the field, by the
operator if one is asked for, or a filtering fault about the field. -/
def Accounts (spec : Specification) (field : String) (asked : Option Operator) : Prop :=
  (∃ p ∈ spec.filters, p.field = field ∧ ∀ op ∈ asked, p.operator = op) ∨
    ∃ fault ∈ spec.report.faults, fault.capability = .filtering ∧ fault.field = field

section Outcomes

variable {schema : Schema} {request : Request}
  (henabled : schema.enabled.isEnabled .filtering = true)

include henabled

/-- The predicates among the outcomes are the filters of the specification. -/
theorem mem_filters_of_outcome {p : Predicate}
    (h : .ok p ∈ Filter.outcomes schema schema.params.filter (request.get? schema.params.filter)) :
    p ∈ (ofRequest schema request).filters := by
  simp only [ofRequest, ifEnabled, henabled, if_true, Option.getD_some]
  exact List.mem_filterMap.mpr ⟨_, h, rfl⟩

/-- The faults among the outcomes are in the report. -/
theorem mem_faults_of_outcome {fault : Fault}
    (h : .error fault ∈
      Filter.outcomes schema schema.params.filter (request.get? schema.params.filter)) :
    fault ∈ (ofRequest schema request).report.faults := by
  refine List.mem_flatMap.mpr ⟨.filtering, ?_, List.mem_filterMap.mpr ⟨_, h, rfl⟩⟩
  simpa [CapabilitySet.isEnabled] using henabled

/-- What is asked of a field shows. -/
theorem accounts_of_asks {given : Json} {field : String} {op : Option Operator}
    (hgiven : request.get? schema.params.filter = some given) (h : Filter.Asks given field op) :
    (ofRequest schema request).Accounts field op := by
  obtain ⟨outcome, hmem, habout⟩ :=
    Filter.exists_about_of_asks schema schema.params.filter h
  rw [← hgiven] at hmem
  cases outcome with
  | ok p => exact Or.inl ⟨p, mem_filters_of_outcome henabled hmem, habout⟩
  | error fault => exact Or.inr ⟨fault, mem_faults_of_outcome henabled hmem, habout⟩

end Outcomes

/-- **What is asked of a field shows.** Everything that a filter parameter asks of a field, with
the operator that it names, shows in the specification; so does every field of an object unless the
empty object stands there, and every entry of a list, an entry without a field or a tag as a fault
about the parameter. -/
theorem accounts_for_filters {schema : Schema} {request : Request} {given : Json}
    (henabled : schema.enabled.isEnabled .filtering = true)
    (hgiven : request.get? schema.params.filter = some given) :
    (∀ field op, Filter.Asks given field op → (ofRequest schema request).Accounts field op) ∧
      (∀ fields field asked, given = .object fields → (field, asked) ∈ fields →
        asked ≠ .object [] → (ofRequest schema request).Accounts field none) ∧
      (∀ entries entry, given = .array entries → entry ∈ entries → ¬ Filter.IsEntry entry →
        (FilterCause.entry entry).fault schema.params.filter
          ∈ (ofRequest schema request).report.faults) := by
  refine ⟨fun field op hasks => accounts_of_asks henabled hgiven hasks, ?_, ?_⟩
  · rintro fields field asked rfl hmem hne
    obtain ⟨op, hasks⟩ := Filter.exists_asks_of_mem hmem hne
    rcases accounts_of_asks henabled hgiven hasks with ⟨p, hp, hfield, -⟩ | hfault
    · exact Or.inl ⟨p, hp, hfield, by simp⟩
    · exact Or.inr hfault
  · rintro entries entry rfl hmem hentry
    refine mem_faults_of_outcome henabled ?_
    rw [hgiven, ← Filter.listOutcome_of_not_isEntry schema schema.params.filter hentry]
    exact List.mem_map.mpr ⟨entry, hmem, rfl⟩

/-- A request with this filter parameter only. -/
def filterRequest (given : Json) : Request :=
  ⟨[("filter", given)]⟩

/-- An allowed filter shows as a predicate, the filter on an undeclared field as a fault about it,
and an entry of a list without a tag as a fault about the parameter. -/
theorem accounts_for_minimal :
    ∃ schema, Schema.ofDefinition Sample.minimal = .ok schema ∧
      (ofRequest schema (filterRequest (.object
        [("age", .object [("lt", .number (.integer 65))])]))).Accounts "age" (some .lt) ∧
      (ofRequest schema (filterRequest (.object
        [("alias", .string "Ada")]))).Accounts "alias" none ∧
      (FilterCause.entry (.string "age")).fault "filter"
        ∈ (ofRequest schema (filterRequest (.array [.string "age"]))).report.faults := by
  refine ⟨_, rfl, ?_, ?_, ?_⟩
  · have htoken : Operator.ofToken? "lt" = some .lt := by decide
    rw [← htoken]
    exact (accounts_for_filters rfl rfl).1 "age" _
      (.member List.mem_cons_self rfl List.mem_cons_self)
  · exact (accounts_for_filters rfl rfl).2.1 _ "alias" (.string "Ada") rfl (by simp) (by simp)
  · exact (accounts_for_filters rfl rfl).2.2 _ (.string "age") rfl List.mem_cons_self
      (by simp [Filter.IsEntry])

/-- The empty object for a field that cannot be filtered by. -/
def emptyEntry : Json :=
  .object [("password", .object [])]

/-- A tagged form with one more operator beside its tag. -/
def mixedEntry : Json :=
  .object [("age", .object
    [("op", .string "gte"), ("value", .number (.integer 18)), ("lt", .number (.integer 65))])]

/-- An entry of a list with an operator in place of a tag. -/
def untaggedEntry : Json :=
  .array [.object [("field", .string "age"), ("gte", .number (.integer 18))]]

/-- Three filters that do not show, or not under their field: the empty object, even for a field
that cannot be filtered by; the members beside a tag, even if they spell an allowed operator; and an
entry of a list without a tag, which is reported under the name of the parameter. -/
theorem unaccounted_filters :
    ∃ schema, Schema.ofDefinition Sample.minimal = .ok schema ∧
      schema.enabled.isEnabled .filtering = true ∧
      ((ofRequest schema (filterRequest emptyEntry)).filters = [] ∧
        (ofRequest schema (filterRequest emptyEntry)).report.faults = []) ∧
      (Operator.ofToken? "lt" = some .lt ∧
        (ofRequest schema (filterRequest mixedEntry)).filters
          = [⟨"age", .gte, .scalar (.integer 18)⟩] ∧
        (ofRequest schema (filterRequest mixedEntry)).report.faults = []) ∧
      (Operator.ofToken? "gte" = some .gte ∧
        (ofRequest schema (filterRequest untaggedEntry)).filters = [] ∧
        (ofRequest schema (filterRequest untaggedEntry)).report.faults.map (·.field)
          = ["filter"]) :=
  ⟨_, rfl, rfl, ⟨rfl, rfl⟩, ⟨by decide, rfl, rfl⟩, by decide, rfl, rfl⟩

end Specification

end ResourceQuery
