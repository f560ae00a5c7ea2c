import ResourceQuery.Proofs.Filter.Reading
import ResourceQuery.Proofs.Parameters
import ResourceQuery.Proofs.Selection.Tree
import ResourceQuery.Sample
import ResourceQuery.Sql.Statement

/-!
# Specifications respect their schemas

A request may ask for anything. What is left of it in a specification stays inside the schema: the
selected fields are declared, the filters are allowed and have operands that fit them, the limit is
not beyond the maximum, the ordering is by a sortable field, and the searched fields are those of a
target. `Specification.Respects` says so part by part, and `respects_ofRequest` puts the readers'
own statements together. Faults play no role in it: a part that was refused is left out, never kept
by mistake.

A backend that is handed such a specification never meets an operand that does not fit its
operator. The condition that no row meets, which is there for that case, is therefore not among the
conditions of the statement.

## Main definitions

* `Operator.Fits`: the operands that fit an operator.
* `Specification.Respects`: the specifications that stay inside a schema.

## Main statements

* `Specification.respects_ofRequest`: the specification of a request respects the schema.
* `Condition.ofPredicate_ne_never`: an operand that fits its operator makes a proper condition.
-/

namespace ResourceQuery

/-! ### Operands that fit -/

/-- The operands that fit an operator: a list with an element for membership, two bounds for a
range, a text for `contains`, and a scalar or any list for the others. -/
inductive Operator.Fits : Operator → Operand → Prop
  | oneOf {vs : List Scalar} : vs ≠ [] → Fits .oneOf (.list vs)
  | noneOf {vs : List Scalar} : vs ≠ [] → Fits .noneOf (.list vs)
  | between (first last : Scalar) : Fits .between (.range first last)
  | notBetween (first last : Scalar) : Fits .notBetween (.range first last)
  | contains (s : String) : Fits .contains (.scalar (.string s))
  | scalar {op : Operator} (v : Scalar) : op ∈ [.eq, .ne, .gt, .gte, .lt, .lte] →
      Fits op (.scalar v)
  | list {op : Operator} (vs : List Scalar) : op ∈ [.eq, .ne, .gt, .gte, .lt, .lte] →
      Fits op (.list vs)

/-- An operand of the shape that its operator asks for fits the operator. -/
theorem OperandShape.Admits.fits {op : Operator} {operand : Operand}
    (h : op.shape.Admits operand) : op.Fits operand := by
  cases op with
  | oneOf => cases h with | list v vs => exact .oneOf (List.cons_ne_nil v vs)
  | noneOf => cases h with | list v vs => exact .noneOf (List.cons_ne_nil v vs)
  | between => cases h with | pair first last => exact .between first last
  | notBetween => cases h with | pair first last => exact .notBetween first last
  | contains => cases h with | text s => exact .contains s
  | eq | ne | gt | gte | lt | lte =>
      cases h with
      | scalar v => exact .scalar v (by decide)
      | anyList vs => exact .list vs (by decide)

/-- An operand that fits its operator makes a proper condition. -/
theorem Condition.ofPredicate_ne_never {p : Predicate} (h : p.operator.Fits p.operand)
    (base : String) : ofPredicate base p ≠ .never := by
  obtain ⟨field, op, operand⟩ := p
  unfold ofPredicate
  cases h with
  | scalar v hop | list vs hop =>
      simp only [List.mem_cons, List.not_mem_nil, or_false] at hop
      rcases hop with rfl | rfl | rfl | rfl | rfl | rfl <;> rintro ⟨⟩
  | _ => rintro ⟨⟩

namespace Statement

/-- One more part adds the condition that no row meets only if it is a predicate of that
condition. -/
theorem never_mem_apply {statement : Statement} {part : Part}
    (h : .never ∈ (statement.apply part).conditions) :
    .never ∈ statement.conditions ∨
      ∃ p, part = .filter p ∧ Condition.ofPredicate statement.table p = .never := by
  unfold apply at h
  split at h
  · exact Or.inl h
  · next p =>
      rcases List.mem_append.mp h with h | h
      · exact Or.inl h
      · exact Or.inr ⟨p, rfl, (List.mem_singleton.mp h).symm⟩
  · exact Or.inl h
  · split at h <;> exact Or.inl h
  · split at h
    · exact Or.inl h
    · rcases List.mem_append.mp h with h | h
      · exact Or.inl h
      · exact absurd (List.mem_singleton.mp h) (by rw [Condition.ofSearch]; simp)

/-- **Parts whose operands fit** never add the condition that no row meets. -/
theorem never_notMem_applyAll {parts : List Part} {statement : Statement}
    (hparts : ∀ p, Part.filter p ∈ parts → p.operator.Fits p.operand)
    (h : .never ∉ statement.conditions) : .never ∉ (statement.applyAll parts).conditions := by
  induction parts generalizing statement with
  | nil => exact h
  | cons part rest ih =>
      refine ih (fun p hp => hparts p (List.mem_cons_of_mem _ hp)) fun hnever => ?_
      rcases never_mem_apply hnever with hold | ⟨p, rfl, hp⟩
      · exact h hold
      · exact Condition.ofPredicate_ne_never (hparts p List.mem_cons_self) _ hp

end Statement

namespace Specification

/-- The predicates among the parts of a specification are its filters. -/
theorem filter_mem_parts {spec : Specification} {p : Predicate} :
    Part.filter p ∈ spec.parts ↔ p ∈ spec.filters := by
  simp [parts]

/-! ### Respecting a schema -/

/-- The part of a capability is missing. -/
def Lacks (spec : Specification) : Capability → Prop
  | .selection => spec.selection = none
  | .filtering => spec.filters = []
  | .pagination => spec.window = none
  | .sorting => spec.sort = none
  | .search => spec.search = none

/-- A specification respects a schema when each of its parts is something that the schema
offers. -/
structure Respects (schema : Schema) (spec : Specification) : Prop where
  /-- Every selected field is declared at its path, with its kind. -/
  selection : ∀ selection ∈ spec.selection, ∀ path node,
    FieldNode.OccursAt selection.fields rootNamespace path node →
      schema.fields.kind? path = some node.kind
  /-- Every predicate is on a field with a rule that allows its operator, and its operand fits the
  operator. -/
  filters : ∀ p ∈ spec.filters, ∃ rule, schema.filterRule? p.field = some rule ∧
    rule.allows p.operator = true ∧ p.operator.Fits p.operand
  /-- A limit is not beyond the maximum. -/
  limit : ∀ window ∈ spec.window, ∀ limit ∈ window.limit, ∀ maximum ∈ schema.maxLimit,
    limit ≤ maximum
  /-- The ordering is by a sortable field. -/
  sort : ∀ key ∈ spec.sort, ∀ field ∈ key.field, schema.isSortable field = true
  /-- The searched fields are all those of the target, at least one, and the value is not
  blank. -/
  search : ∀ term ∈ spec.search, schema.searchTarget? term.target = some term.fields ∧
    term.fields ≠ [] ∧ Text.isBlankText term.value = false
  /-- The part of a capability that is not enabled is missing. -/
  disabled : ∀ c, schema.enabled.isEnabled c = false → spec.Lacks c

section Parts

variable {schema : Schema} {request : Request}

/-- A part that is there is what the reader returned. -/
theorem eq_of_mem_ifEnabled {α : Type} {c : Capability} {part a : α}
    (h : a ∈ ifEnabled schema c part) : a = part := by
  rw [ifEnabled] at h
  split at h
  · exact (Option.some.inj h).symm
  · cases h

/-- The predicates of a specification are those that the reader returned. -/
theorem mem_read_of_mem_filters {p : Predicate} (h : p ∈ (ofRequest schema request).filters) :
    p ∈ (Filter.read schema request).output := by
  change p ∈ (ifEnabled schema .filtering (Filter.read schema request).output).getD [] at h
  cases hpart : ifEnabled schema .filtering (Filter.read schema request).output with
  | none => rw [hpart] at h; cases h
  | some predicates =>
      rw [hpart] at h
      exact eq_of_mem_ifEnabled hpart ▸ h

/-- Every predicate of a specification is on a field with a rule that allows it, and its operand
fits its operator. -/
theorem rule_of_mem_filters {p : Predicate} (h : p ∈ (ofRequest schema request).filters) :
    ∃ rule, schema.filterRule? p.field = some rule ∧ rule.allows p.operator = true ∧
      p.operator.Fits p.operand := by
  obtain ⟨field, token, given, hentry⟩ := Filter.readEntry_of_mem_read (mem_read_of_mem_filters h)
  obtain ⟨rule, op, json, operand, hrule, -, hallowed, -, hreads, rfl⟩ :=
    Predicate.readEntry_eq_ok_iff.mp hentry
  exact ⟨rule, hrule, hallowed, hreads.admits.fits⟩

/-- The ordering of a specification is by a sortable field. -/
theorem isSortable_of_mem_sort {d : Definition} (hd : Schema.ofDefinition d = .ok schema)
    {key : SortKey} {field : String} (h : key ∈ (ofRequest schema request).sort)
    (hf : field ∈ key.field) : schema.isSortable field = true := by
  obtain rfl := eq_of_mem_ifEnabled h
  generalize hreading : SortKey.read schema request = reading at hf
  cases hreading ▸ SortKey.possible_read schema request with
  | refused _ => cases hf
  | fallback =>
      cases hdefault : schema.defaultSort with
      | none => simp [SortKey.fallback, hdefault, Reading.clean, SortKey.unordered] at hf
      | some key =>
          -- the reader does not check the default ordering; the schema was checked for it
          obtain ⟨field', hfield', hsortable⟩ := Schema.isSortable_of_defaultSort hd hdefault
          simp only [SortKey.fallback, hdefault, Reading.clean, Option.getD_some, hfield',
            Option.mem_def, Option.some.injEq] at hf
          exact hf ▸ hsortable
  | byField _ hsortable _ _ =>
      obtain rfl := Option.some.inj hf
      exact hsortable

/-- The search of a specification is in a target of the schema, for a value that is not blank. -/
theorem searchTarget?_of_mem_search {term : SearchTerm}
    (h : term ∈ (ofRequest schema request).search) :
    schema.searchTarget? term.target = some term.fields ∧ Text.isBlankText term.value = false := by
  have hread : (SearchTerm.read schema request).output = some term :=
    (eq_of_mem_ifEnabled (Option.join_eq_some_iff.mp h)).symm
  generalize hreading : SearchTerm.read schema request = reading at hread
  cases hreading ▸ SearchTerm.possible_read schema request with
  | refused _ => cases hread
  | absent => cases hread
  | found htarget hblank _ =>
      obtain rfl := Option.some.inj hread
      exact ⟨htarget, hblank⟩

/-- The part of a capability that is not enabled is missing. -/
theorem lacks_of_disabled {c : Capability} (h : schema.enabled.isEnabled c = false) :
    (ofRequest schema request).Lacks c := by
  cases c <;> simp [Lacks, ofRequest, ifEnabled, h]

end Parts

/-- **The specification of a request respects the schema**, whatever the report says; and handing
its parts to a backend adds no condition of an operand that does not fit. -/
theorem respects_ofRequest {d : Definition} {schema : Schema}
    (h : Schema.ofDefinition d = .ok schema) (request : Request) :
    (ofRequest schema request).Respects schema ∧
      (∀ base, ∀ p ∈ (ofRequest schema request).filters, Condition.ofPredicate base p ≠ .never) ∧
      ∀ statement : Statement, .never ∉ statement.conditions →
        .never ∉ (statement.applyAll (ofRequest schema request).parts).conditions := by
  have hfits : ∀ p ∈ (ofRequest schema request).filters, p.operator.Fits p.operand := by
    intro p hp
    obtain ⟨_, -, -, hfits⟩ := rule_of_mem_filters hp
    exact hfits
  refine ⟨⟨?_, fun p hp => rule_of_mem_filters hp, ?_, ?_, ?_, fun c => lacks_of_disabled⟩, ?_, ?_⟩
  · intro selection hselection path node hoccurs
    obtain rfl := eq_of_mem_ifEnabled hselection
    exact (Selection.declared_read schema request).kind?_of_occursAt hoccurs
  · intro window hwindow limit hlimit maximum hmaximum
    obtain rfl := eq_of_mem_ifEnabled hwindow
    exact Window.limit_le_maxLimit hlimit hmaximum
  · intro key hkey field hfield
    exact isSortable_of_mem_sort h hkey hfield
  · intro term hterm
    obtain ⟨htarget, hblank⟩ := searchTarget?_of_mem_search hterm
    exact ⟨htarget, Schema.searchTarget?_ne_nil h htarget, hblank⟩
  · intro base p hp
    exact Condition.ofPredicate_ne_never (hfits p hp) base
  · intro statement hstatement
    exact Statement.never_notMem_applyAll
      (fun p hp => hfits p (filter_mem_parts.mp hp)) hstatement

/-- A request for which some of what it asks cannot be had. -/
def mixedRequest : Request :=
  ⟨[("select", .string "id,nickname"), ("limit", .string "10"),
    ("filter", .object
      [("age", .object
        [("gte", .number (.integer 18)), ("about", .number (.integer 40))])])]⟩

/-- A request with a limit, an allowed filter, a misspelt operator and an undeclared field: what is
wrong is reported, and what is left respects the schema. -/
theorem respects_minimal :
    ∃ schema, Schema.ofDefinition Sample.minimal = .ok schema ∧
      (ofRequest schema mixedRequest).filters = [⟨"age", .gte, .scalar (.integer 18)⟩] ∧
      (ofRequest schema mixedRequest).report.size = 1 ∧
      (ofRequest schema mixedRequest).Respects schema :=
  ⟨_, rfl, rfl, rfl, (respects_ofRequest (d := Sample.minimal) rfl mixedRequest).1⟩

end Specification

end ResourceQuery
