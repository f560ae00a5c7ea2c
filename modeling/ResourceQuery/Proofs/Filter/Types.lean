import ResourceQuery.Proofs.Conformance
import ResourceQuery.Proofs.Filter.Trace
import ResourceQuery.Proofs.Filter.Verdict
import ResourceQuery.Proofs.Lists

/-!
# The types of operands

A field can declare the type of what it is compared with. Then the scalars of its predicates have
this type: alone, in a list, and as bounds. The exception is `contains`, which looks for a text
whatever the type of the field is; its operand is the text that was given, and nothing is coerced.
Either way the scalars are finite, typed or not: no predicate has a double without a value, and
predicates are the only part of a specification in which doubles stand.

Every scalar of an operand is of one of two origins (`Operand.Takes.scalars_cases`), and each
statement here is one about both of them.

## Main statements

* `Specification.accepts_of_mem_filters`: every predicate is that of an accepted operator entry.
* `Specification.typed_filters`: the scalars of predicates have the declared type and are finite.
* `Specification.untyped_contains`: a text on a field of integers.
-/

namespace ResourceQuery

/-- The scalars of an operand. -/
def Operand.scalars : Operand → List Scalar
  | .scalar v => [v]
  | .list vs => vs
  | .range first last => [first, last]

/-- The operators that take a text as it is are `contains`. -/
theorem Operator.shape_eq_text_iff {op : Operator} : op.shape = .text ↔ op = .contains := by
  cases op <;> decide

/-- Every scalar of a list that is taken is taken for one of its items. -/
theorem Scalar.exists_takes_of_mem {type : Option ScalarType} {items : List Json}
    {vs : List Scalar} (h : List.Forall₂ (Takes type) items vs) :
    ∀ v ∈ vs, ∃ item, Takes type item v :=
  forall_of_forall₂ h fun item _ hv => ⟨item, hv⟩

/-- **The origin of scalars.** An operand is a text that was taken as it is, or each of its scalars
is taken for some value. -/
theorem Operand.Takes.scalars_cases {type : Option ScalarType} {shape : OperandShape}
    {given : Json} {operand : Operand} (h : Takes type shape given operand) :
    (shape = .text ∧ ∃ s, operand = .scalar (.string s)) ∨
      (shape ≠ .text ∧ ∀ v ∈ operand.scalars, ∃ item, Scalar.Takes type item v) := by
  cases h with
  | text s => exact Or.inl ⟨rfl, s, rfl⟩
  | list _ hvs => exact Or.inr ⟨by decide, Scalar.exists_takes_of_mem hvs⟩
  | pair hfirst hlast =>
      refine Or.inr ⟨by decide, ?_⟩
      simpa [scalars] using ⟨⟨_, hfirst⟩, ⟨_, hlast⟩⟩
  | anyList hvs => exact Or.inr ⟨by decide, Scalar.exists_takes_of_mem hvs⟩
  | anyScalar hv =>
      refine Or.inr ⟨by decide, ?_⟩
      simpa [scalars] using ⟨_, hv⟩

/-- A scalar that is taken as a type has it. -/
theorem Scalar.Takes.type_eq {t : ScalarType} {given : Json} {v : Scalar}
    (h : Takes (some t) given v) : v.type = t := by
  cases h with
  | typed _ hcoerce => exact type_of_coerce? hcoerce

/-- A scalar that is taken is finite. -/
theorem Scalar.Takes.isFinite {type : Option ScalarType} {given : Json} {v : Scalar}
    (h : Takes type given v) : v.IsFinite :=
  isFinite_of_read (read_eq_ok_iff_takes.mpr h)

namespace Specification

variable {schema : Schema} {request : Request} {p : Predicate}

/-- Every predicate of a specification is that of an accepted operator entry. -/
theorem accepts_of_mem_filters (h : p ∈ (ofRequest schema request).filters) :
    ∃ token given, Filter.Accepts schema p.field token given p := by
  obtain ⟨field, token, given, hentry⟩ := Filter.readEntry_of_mem_read (mem_read_of_mem_filters h)
  have haccepts : Filter.Accepts schema field token given p := by
    rw [← Filter.entryOutcome_eq_ok_iff, Filter.entryOutcome, hentry]
    rfl
  exact ⟨token, given, haccepts.field_eq ▸ haccepts⟩

/-- **The scalars of predicates have the declared type.** Whatever a request asks for, a predicate
of its specification on a field with a declared type has scalars of this type only, unless its
operator is `contains`; that operator is always about one text. And all scalars are finite. -/
theorem typed_filters (h : p ∈ (ofRequest schema request).filters) :
    (∀ rule t, schema.filterRule? p.field = some rule → rule.type = some t →
      p.operator ≠ .contains → ∀ v ∈ p.operand.scalars, v.type = t) ∧
    (p.operator = .contains → ∃ s, p.operand = .scalar (.string s)) ∧
    ∀ v ∈ p.operand.scalars, v.IsFinite := by
  obtain ⟨token, given, haccepts⟩ := accepts_of_mem_filters h
  obtain ⟨rule, json, hrule, htakes⟩ := haccepts.takes
  rcases htakes.scalars_cases with ⟨htext, s, hs⟩ | ⟨htext, hscalars⟩
  · refine ⟨fun _ _ _ _ hop => absurd (Operator.shape_eq_text_iff.mp htext) hop,
      fun _ => ⟨s, hs⟩, ?_⟩
    simp [hs, Operand.scalars, Scalar.IsFinite]
  · refine ⟨fun rule' t hrule' ht _ v hv => ?_,
      fun hop => absurd (Operator.shape_eq_text_iff.mpr hop) htext, fun v hv => ?_⟩
    · obtain ⟨item, hv⟩ := hscalars v hv
      obtain rfl := Option.some.inj (hrule.symm.trans hrule')
      exact (ht ▸ hv).type_eq
    · obtain ⟨item, hv⟩ := hscalars v hv
      exact hv.isFinite

/-- Bounds for a field of integers, given as texts. -/
def textBounds : Json :=
  .object [("age", .object [("between", .array [.string "18", .string " 65 "])])]

/-- Bounds that are given as texts are integers, if integers are declared. -/
theorem typed_filters_bounds :
    ∃ schema, Schema.ofDefinition Sample.typed = .ok schema ∧
      (ofRequest schema (filterRequest textBounds)).filters
        = [⟨"age", .between, .range (.integer 18) (.integer 65)⟩] ∧
      ∀ v ∈ (Operand.range (.integer 18) (.integer 65)).scalars, v.type = .integer := by
  obtain ⟨schema, hschema, hfilters, hrule⟩ :
      ∃ schema, Schema.ofDefinition Sample.typed = .ok schema ∧
        (ofRequest schema (filterRequest textBounds)).filters
          = [⟨"age", .between, .range (.integer 18) (.integer 65)⟩] ∧
        schema.filterRule? "age" = some (.ofDeclaration { type := some .integer }) :=
    ⟨_, rfl, rfl, rfl⟩
  exact ⟨schema, hschema, hfilters,
    (typed_filters (hfilters ▸ List.mem_singleton_self _)).1 _ _ hrule rfl (by decide)⟩

/-- A text on a field of integers: `contains` takes it, although it spells no integer. -/
theorem untyped_contains :
    ∃ schema, Schema.ofDefinition Sample.typed = .ok schema ∧
      (∃ rule, schema.filterRule? "age" = some rule ∧ rule.type = some .integer) ∧
      (ofRequest schema (filterRequest (.object
        [("age", .object [("contains", .string "ab")])]))).filters
        = [⟨"age", .contains, .scalar (.string "ab")⟩] ∧
      ¬ ∀ v ∈ (Operand.scalar (.string "ab")).scalars, v.type = .integer :=
  ⟨_, rfl, ⟨_, rfl, rfl⟩, rfl, by decide⟩

end Specification

end ResourceQuery
