import ResourceQuery.Proofs.Conformance
import ResourceQuery.Proofs.Filter.Scalar
import ResourceQuery.Proofs.Json.Reader
import ResourceQuery.Proofs.Report
import ResourceQuery.Sample
import ResourceQuery.Specification

/-!
# What the published form tells

A specification is published as the compact text of its JSON form. The text determines the form, and
the form determines every part of the specification. Most parts are written under names of their
own. Three need more:

* A field without children is written without a list of them, which is otherwise never empty.
* Operands are written without their shape, so a range looks like a list of two, and a double
  without a value would be null. But the operator, which is written beside the operand, asks for one
  shape, and what a reader returns has this shape and is finite. So reading the form without a
  declared type finds the operand again.
* The report is written in groups, which keep the order of the faults within a group only.

## Main statements

* `Predicate.ofJson?_toJson`: a predicate of a request is read from its JSON form.
* `Specification.eq_of_compact_eq`: specifications with the same text have the same parts, and the
  same faults about every field.
-/

namespace ResourceQuery

/-! ### Parts of JSON forms -/

namespace Json

/-- Values that may be missing keep apart, if they do where they are there and none of them is null.
-/
theorem ofOption_injective {α : Type} {f : α → Json} (hf : Function.Injective f)
    (hnull : ∀ a, f a ≠ .null) : Function.Injective (ofOption f) := by
  rintro (_ | a) (_ | b) h
  · rfl
  · exact absurd h.symm (hnull b)
  · exact absurd h (hnull a)
  · rw [hf h]

/-- Texts keep apart as JSON. -/
theorem string_injective : Function.Injective Json.string :=
  fun _ _ => Json.string.inj

/-- Counts keep apart as JSON. -/
theorem ofCount_injective : Function.Injective ofCount := by
  intro n n' h
  have hvalue := Number.integer.inj (Json.number.inj h)
  exact UInt64.toNat_inj.mp (Int.ofNat.inj hvalue)

/-- Lists of texts keep apart as JSON. -/
theorem ofStrings_injective : Function.Injective ofStrings :=
  fun _ _ h => List.map_injective_iff.mpr string_injective (Json.array.inj h)

end Json

/-! ### Selections -/

/-- The kinds of fields have different names. -/
theorem FieldKind.name_injective : Function.Injective FieldKind.name := by
  rintro (_ | _) (_ | _) h
  · rfl
  · exact absurd h (by decide)
  · exact absurd h (by decide)
  · rfl

namespace FieldNode

mutual

/-- A field is determined by its JSON form. The list of children is missing only when there are
none. -/
theorem eq_of_toJson_eq : ∀ {node node' : FieldNode}, node.toJson = node'.toJson → node = node'
  | ⟨name, kind, []⟩, ⟨name', kind', []⟩, h => by
      simp only [toJson, Json.object.injEq, List.cons.injEq, Prod.mk.injEq, Json.string.injEq,
        and_true, true_and] at h
      rw [h.1, FieldKind.name_injective h.2]
  | ⟨name, kind, child :: children⟩, ⟨name', kind', child' :: children'⟩, h => by
      simp only [toJson, Json.object.injEq, List.cons.injEq, Prod.mk.injEq, Json.string.injEq,
        Json.array.injEq, and_true, true_and] at h
      obtain ⟨hname, hkind, hchild, hchildren⟩ := h
      rw [hname, FieldKind.name_injective hkind, eq_of_toJson_eq hchild,
        eq_of_listToJson_eq hchildren]
  | ⟨_, _, []⟩, ⟨_, _, _ :: _⟩, h => by simp [toJson] at h
  | ⟨_, _, _ :: _⟩, ⟨_, _, []⟩, h => by simp [toJson] at h

/-- Lists of nodes with the same JSON form are the same. -/
theorem eq_of_listToJson_eq : ∀ {nodes nodes' : List FieldNode},
    listToJson nodes = listToJson nodes' → nodes = nodes'
  | [], [], _ => rfl
  | node :: nodes, node' :: nodes', h => by
      rw [listToJson, listToJson] at h
      obtain ⟨hnode, hnodes⟩ := List.cons.inj h
      rw [eq_of_toJson_eq hnode, eq_of_listToJson_eq hnodes]
  | [], _ :: _, h => by
      rw [listToJson, listToJson] at h
      cases h
  | _ :: _, [], h => by
      rw [listToJson, listToJson] at h
      cases h

end

end FieldNode

/-- Selections keep apart in their JSON form. -/
theorem Selection.toJson_injective : Function.Injective Selection.toJson := by
  rintro ⟨fields⟩ ⟨fields'⟩ h
  exact congrArg Selection.mk (FieldNode.eq_of_listToJson_eq (Json.array.inj h))

/-! ### Windows, orderings and searches -/

/-- Windows keep apart in their JSON form. -/
theorem Window.toJson_injective : Function.Injective Window.toJson := by
  rintro ⟨limit, offset⟩ ⟨limit', offset'⟩ h
  have hcount := Json.ofOption_injective Json.ofCount_injective fun n hn => by cases hn
  simp only [toJson, Json.object.injEq, List.cons.injEq, Prod.mk.injEq, and_true, true_and] at h
  rw [hcount h.1, hcount h.2]

/-- The directions have different names. -/
theorem Direction.name_injective : Function.Injective Direction.name :=
  injective_of_read Direction.ofName?_name

/-- Orderings keep apart in their JSON form. -/
theorem SortKey.toJson_injective : Function.Injective SortKey.toJson := by
  rintro ⟨field, direction⟩ ⟨field', direction'⟩ h
  have hfield := Json.ofOption_injective Json.string_injective fun s hs => by cases hs
  simp only [toJson, Json.object.injEq, List.cons.injEq, Prod.mk.injEq, Json.string.injEq,
    and_true, true_and] at h
  rw [hfield h.1, Direction.name_injective h.2]

/-- Searches keep apart in their JSON form. -/
theorem SearchTerm.toJson_injective : Function.Injective SearchTerm.toJson := by
  rintro ⟨target, fields, value⟩ ⟨target', fields', value'⟩ h
  simp only [toJson, Json.object.injEq, List.cons.injEq, Prod.mk.injEq, Json.string.injEq,
    and_true, true_and] at h
  rw [h.1, Json.ofStrings_injective h.2.1, h.2.2]

/-! ### Filters -/

/-- All scalars of an operand have a JSON form other than null. -/
def Operand.IsFinite : Operand → Prop
  | .scalar v => v.IsFinite
  | .list vs => ∀ v ∈ vs, v.IsFinite
  | .range first last => first.IsFinite ∧ last.IsFinite

/-- The doubles of an operand that is read are finite. -/
theorem Operand.Reads.isFinite {type : Option ScalarType} {shape : OperandShape} {given : Json}
    {operand : Operand} (h : Reads type shape given operand) : operand.IsFinite := by
  have hall {items : List Json} {vs : List Scalar} (hvs : Scalar.readAll type items = .ok vs) :
      ∀ v ∈ vs, v.IsFinite :=
    forall_of_forall₂ (Scalar.readAll_eq_ok_iff.mp hvs) fun _ _ => Scalar.isFinite_of_read
  cases h with
  | list hvs => exact hall hvs
  | pair hfirst hlast => exact ⟨Scalar.isFinite_of_read hfirst, Scalar.isFinite_of_read hlast⟩
  | text s => trivial
  | anyList hvs => exact hall hvs
  | anyScalar hv => exact Scalar.isFinite_of_read hv

/-- Without a declared type, a finite scalar is read from its JSON form. -/
theorem Scalar.read_none_toJson {v : Scalar} (h : v.IsFinite) : read none v.toJson = .ok v :=
  read_eq_ok_iff.mpr ⟨v, ofJson?_toJson h, Or.inl ⟨rfl, rfl⟩⟩

/-- Finite scalars are read back from their JSON forms, one by one. -/
theorem Scalar.readAll_none_toJson {vs : List Scalar} (h : ∀ v ∈ vs, v.IsFinite) :
    readAll none (vs.map toJson) = .ok vs := by
  rw [readAll_eq_ok_iff]
  induction vs with
  | nil => exact .nil
  | cons v vs ih =>
      obtain ⟨hv, hvs⟩ := List.forall_mem_cons.mp h
      exact .cons (read_none_toJson hv) (ih hvs)

/-- **The operator tells the shape**: a finite operand of its shape is read from the JSON form,
though ranges are written as lists. -/
theorem Operand.read_none_toJson {op : Operator} {operand : Operand}
    (hadmits : op.shape.Admits operand) (hfinite : operand.IsFinite) :
    read op none operand.toJson = .ok operand := by
  rw [read_eq_ok_iff]
  generalize op.shape = shape at hadmits
  cases hadmits with
  | scalar v => exact .anyScalar (Scalar.read_none_toJson hfinite)
  | anyList vs => exact .anyList (Scalar.readAll_none_toJson hfinite)
  | list v vs => exact .list (Scalar.readAll_none_toJson hfinite)
  | pair first last =>
      exact .pair (Scalar.read_none_toJson hfinite.1) (Scalar.read_none_toJson hfinite.2)
  | text s => exact .text s

namespace Predicate

/-- The predicate with this JSON form. -/
def ofJson? : Json → Option Predicate
  | .object [(_, .string field), (_, .string token), (_, given)] =>
    (Operator.ofToken? token).bind fun op =>
      (Operand.read op none given).toOption.map fun operand => ⟨field, op, operand⟩
  | _ => none

/-- **A predicate is read back from its JSON form**, if its operand has the right shape and is
finite. -/
theorem ofJson?_toJson {p : Predicate} (hadmits : p.operator.shape.Admits p.operand)
    (hfinite : p.operand.IsFinite) : ofJson? p.toJson = some p := by
  rw [toJson, ofJson?, Operator.ofToken?_name, Option.bind_some,
    Operand.read_none_toJson hadmits hfinite]
  rfl

end Predicate

namespace Specification

/-- The predicates of a specification are read from their JSON forms. -/
theorem ofJson?_of_mem_filters {schema : Schema} {request : Request} {p : Predicate}
    (h : p ∈ (ofRequest schema request).filters) : Predicate.ofJson? p.toJson = some p := by
  obtain ⟨field, token, given, hentry⟩ := Filter.readEntry_of_mem_read (mem_read_of_mem_filters h)
  obtain ⟨rule, op, json, operand, -, -, -, -, hreads, rfl⟩ :=
    Predicate.readEntry_eq_ok_iff.mp hentry
  exact Predicate.ofJson?_toJson hreads.admits hreads.isFinite

/-- **The published form loses nothing but the interleaving of faults.** Two specifications with
the same compact text have the same selection, filters, window, ordering and search, and their
reports have the same faults about every field of every capability, by kind and message, in the same
order. -/
theorem eq_of_compact_eq {schema schema' : Schema} {request request' : Request}
    (h : (ofRequest schema request).toJson.compact = (ofRequest schema' request').toJson.compact) :
    (ofRequest schema request).selection = (ofRequest schema' request').selection ∧
      (ofRequest schema request).filters = (ofRequest schema' request').filters ∧
      (ofRequest schema request).window = (ofRequest schema' request').window ∧
      (ofRequest schema request).sort = (ofRequest schema' request').sort ∧
      (ofRequest schema request).search = (ofRequest schema' request').search ∧
      ∀ c field,
        ((ofRequest schema request).report.ofField c field).map
            (fun fault => (fault.kind, fault.message))
          = ((ofRequest schema' request').report.ofField c field).map
            fun fault => (fault.kind, fault.message) := by
  have hfilters : ((ofRequest schema request).filters.map Predicate.toJson).filterMap
      Predicate.ofJson? = _ := filterMap_of_read fun p hp => ofJson?_of_mem_filters hp
  have hfilters' : ((ofRequest schema' request').filters.map Predicate.toJson).filterMap
      Predicate.ofJson? = _ := filterMap_of_read fun p hp => ofJson?_of_mem_filters hp
  generalize ofRequest schema request = spec at h hfilters ⊢
  generalize ofRequest schema' request' = spec' at h hfilters' ⊢
  have hjson := Json.compact_injective h
  simp only [toJson, Json.object.injEq, List.cons.injEq, Prod.mk.injEq, Json.array.injEq,
    and_true, true_and] at hjson
  obtain ⟨hselection, hfilter, hwindow, hsort, hsearch, hreport⟩ := hjson
  refine ⟨?_, ?_, ?_, ?_, ?_, fun c field => Report.content_of_toJson_eq hreport c field⟩
  · exact Json.ofOption_injective Selection.toJson_injective (fun _ hn => by cases hn) hselection
  · rw [← hfilters, ← hfilters', hfilter]
  · exact Json.ofOption_injective Window.toJson_injective (fun _ hn => by cases hn) hwindow
  · exact Json.ofOption_injective SortKey.toJson_injective (fun _ hn => by cases hn) hsort
  · exact Json.ofOption_injective SearchTerm.toJson_injective (fun _ hn => by cases hn) hsearch

/-- A request that asks to filter by these fields, one after the other. -/
def filtersBy (fields : List String) : Request :=
  ⟨[("filter", .array (fields.map fun field => .object
    [("field", .string field), ("op", .string "gte"), ("value", .number (.integer 18))]))]⟩

/-- Two requests at fault about two fields, in different orders: the texts are the same, though the
reports are not. -/
theorem eq_of_compact_eq_interleaved :
    ∃ schema, Schema.ofDefinition Sample.minimal = .ok schema ∧
      (ofRequest schema (filtersBy ["zip", "age", "city", "zip"])).report
        ≠ (ofRequest schema (filtersBy ["city", "zip", "zip", "age"])).report ∧
      (ofRequest schema (filtersBy ["zip", "age", "city", "zip"])).filters
        = (ofRequest schema (filtersBy ["city", "zip", "zip", "age"])).filters ∧
      ∀ c field,
        ((ofRequest schema (filtersBy ["zip", "age", "city", "zip"])).report.ofField c field).map
            (fun fault => (fault.kind, fault.message))
          = ((ofRequest schema (filtersBy ["city", "zip", "zip", "age"])).report.ofField
              c field).map fun fault => (fault.kind, fault.message) := by
  obtain ⟨schema, hschema, hreport, hjson⟩ :
      ∃ schema, Schema.ofDefinition Sample.minimal = .ok schema ∧
        (ofRequest schema (filtersBy ["zip", "age", "city", "zip"])).report
          ≠ (ofRequest schema (filtersBy ["city", "zip", "zip", "age"])).report ∧
        (ofRequest schema (filtersBy ["zip", "age", "city", "zip"])).toJson
          = (ofRequest schema (filtersBy ["city", "zip", "zip", "age"])).toJson :=
    ⟨_, rfl, by decide, by rfl⟩
  obtain ⟨-, hfilters, -, -, -, hfaults⟩ := eq_of_compact_eq (congrArg Json.compact hjson)
  exact ⟨schema, hschema, hreport, hfilters, hfaults⟩

end Specification

end ResourceQuery
