import ResourceQuery.Proofs.Filter.Verdict
import ResourceQuery.Sample

/-!
# Filters are read entry by entry

What is read from a filter parameter is put together from its parts: the predicates of the parts one
after the other, and their faults one after the other. The parts are the entries of a list, the
members of an object, and the members of an object without a tag that stands for a field; in the end
they are operator entries, and each of these has its verdict, a predicate or a fault. An entry never
shows twice, never vanishes, and what it becomes does not depend on the entries beside it.

`Filter.Entrywise` lists this form by form, and `Filter.entrywise` says that it holds for every
schema.

## Main definitions

* `Filter.readGiven`: what is read from a filter parameter by itself.
* `Filter.Verdict`: what is read from an operator entry.
* `Filter.Entrywise`: how the forms of a filter parameter are made up.

## Main statements

* `Filter.verdict_iff`: the reading of an operator entry is its verdict.
* `Filter.entrywise`: filters are read entry by entry.
-/

namespace ResourceQuery

namespace Filter

/-! ### Readings of filters -/

/-- The request with a filter parameter and nothing else. -/
def requestOf (schema : Schema) (given : Json) : Request :=
  ⟨[(schema.params.filter, given)]⟩

/-- What is read from a filter parameter by itself. -/
def readGiven (schema : Schema) (given : Json) : Reading (List Predicate) :=
  read schema (requestOf schema given)

/-- One reading and then another. -/
def append (first second : Reading (List Predicate)) : Reading (List Predicate) :=
  ⟨first.output ++ second.output, first.faults ++ second.faults⟩

/-- Readings one after the other. -/
def concat : List (Reading (List Predicate)) → Reading (List Predicate)
  | [] => .clean []
  | reading :: rest => append reading (concat rest)

/-- A reading of one thing: exactly one predicate, or exactly one fault. -/
def IsSingle (reading : Reading (List Predicate)) : Prop :=
  (∃ p, reading = ⟨[p], []⟩) ∨ ∃ fault, reading = ⟨[], [fault]⟩

/-- What is read from an operator entry: the predicate that it is accepted as, or the fault for
which it is refused. -/
inductive Verdict (schema : Schema) (field token : String) (given : Option Json) :
    Reading (List Predicate) → Prop
  | accepted {p : Predicate} : Accepts schema field token given p →
      Verdict schema field token given ⟨[p], []⟩
  | refused {kind : FaultKind} {cause : FilterCause} :
      Refuses schema field token given kind cause →
      Verdict schema field token given ⟨[], [⟨.filtering, field, kind, cause.message⟩]⟩

/-- **How filters are made up of entries**, form by form. -/
structure Entrywise (schema : Schema) : Prop where
  /-- Of a request, only the filter parameter counts. -/
  ofRequest : ∀ {request : Request} {given : Json},
    request.get? schema.params.filter = some given → read schema request = readGiven schema given
  /-- The entries of a list are read one after the other. -/
  list_append : ∀ entries more : List Json,
    readGiven schema (.array (entries ++ more))
      = append (readGiven schema (.array entries)) (readGiven schema (.array more))
  /-- The members of an object are read one after the other. -/
  object_append : ∀ members more : List (String × Json),
    readGiven schema (.object (members ++ more))
      = append (readGiven schema (.object members)) (readGiven schema (.object more))
  /-- An operator entry has exactly one verdict, a predicate or a fault. -/
  verdict_single : ∀ (field token : String) (given : Option Json),
    ∃ reading, Verdict schema field token given reading ∧ IsSingle reading ∧
      ∀ other, Verdict schema field token given other → other = reading
  /-- Whatever stands in a list is a predicate or a fault. -/
  listed_single : ∀ entry : Json, IsSingle (readGiven schema (.array [entry]))
  /-- An entry of a list with a field, and a text for a tag, is the operator entry of these. -/
  listed : ∀ {members : List (String × Json)} {field token : String},
    Entries.get? members "field" = some (.string field) → tag? members = some (.string token) →
    ∀ reading, readGiven schema (.array [.object members]) = reading ↔
      Verdict schema field token (Entries.get? members "value") reading
  /-- A scalar or a list that is asked of a field is the operand of `eq`. -/
  short : ∀ (field : String) {asked : Json}, (∀ members, asked ≠ .object members) →
    ∀ reading, readGiven schema (.object [(field, asked)]) = reading ↔
      Verdict schema field "eq" (some asked) reading
  /-- A tagged form is a predicate or a fault. -/
  tagged_single : ∀ (field : String) {members : List (String × Json)} {tag : Json},
    tag? members = some tag → IsSingle (readGiven schema (.object [(field, .object members)]))
  /-- A tagged form with a text for a tag is the operator entry of its field and this text. -/
  tagged : ∀ (field : String) {members : List (String × Json)} {token : String},
    tag? members = some (.string token) →
    ∀ reading, readGiven schema (.object [(field, .object members)]) = reading ↔
      Verdict schema field token (Entries.get? members "value") reading
  /-- Without a tag each member is an operator entry, and they are read one after the other. -/
  byOperator : ∀ (field : String) {members : List (String × Json)}, tag? members = none →
    ∀ reading, readGiven schema (.object [(field, .object members)]) = reading ↔
      ∃ readings, reading = concat readings ∧
        List.Forall₂ (fun member r => Verdict schema field member.1 (some member.2) r)
          members readings

/-! ### Outcomes as readings -/

/-- The predicates of outcomes, and their faults. -/
def collect (outcomes : List Outcome) : Reading (List Predicate) :=
  ⟨outcomes.filterMap predicate?, outcomes.filterMap fault?⟩

/-- Outcomes one after the other are collected one after the other. -/
theorem collect_append (outcomes more : List Outcome) :
    collect (outcomes ++ more) = append (collect outcomes) (collect more) := by
  simp only [collect, append, List.filterMap_append]

/-- One outcome is a predicate or a fault. -/
theorem isSingle_collect (outcome : Outcome) : IsSingle (collect [outcome]) := by
  cases outcome with
  | ok p => exact Or.inl ⟨p, rfl⟩
  | error fault => exact Or.inr ⟨fault, rfl⟩

variable {schema : Schema}

/-- The reading of a request is that of the outcomes of its filter parameter. -/
theorem read_eq_collect {request : Request} {given : Json}
    (h : request.get? schema.params.filter = some given) :
    read schema request = collect (outcomes schema schema.params.filter (some given)) := by
  rw [read, h]
  rfl

/-- What is read from a filter parameter by itself is the outcomes of its value. -/
theorem readGiven_eq (schema : Schema) (given : Json) :
    readGiven schema given = collect (outcomes schema schema.params.filter (some given)) :=
  read_eq_collect (if_pos rfl)

/-- What is read from a field is the outcomes of what is asked of it. -/
theorem readGiven_field (schema : Schema) (field : String) (asked : Json) :
    readGiven schema (.object [(field, asked)]) = collect (fieldOutcomes schema field asked) := by
  rw [readGiven_eq]
  simp [outcomes]

/-- **The reading of an operator entry is its verdict.** -/
theorem verdict_iff {field token : String} {given : Option Json}
    {reading : Reading (List Predicate)} :
    collect [entryOutcome schema field token given] = reading ↔
      Verdict schema field token given reading := by
  constructor
  · rintro rfl
    cases houtcome : entryOutcome schema field token given with
    | ok p => exact .accepted (entryOutcome_eq_ok_iff.mp houtcome)
    | error fault =>
        obtain ⟨kind, cause, hrefused, rfl⟩ := entryOutcome_eq_error_iff.mp houtcome
        exact .refused hrefused
  · rintro (haccepted | hrefused)
    · rw [entryOutcome_eq_ok_iff.mpr haccepted]
      rfl
    · rw [entryOutcome_eq_error_iff.mpr ⟨_, _, hrefused, rfl⟩]
      rfl

/-- The outcome of a tagged form with a text for a tag is that of the operator entry. -/
theorem taggedOutcome_string (schema : Schema) (field token : String)
    (members : List (String × Json)) :
    taggedOutcome schema field (.string token) members
      = entryOutcome schema field token (Entries.get? members "value") := rfl

/-- A scalar or a list that is asked of a field has the outcome of an operator entry with `eq`. -/
theorem fieldOutcomes_short (schema : Schema) (field : String) {asked : Json}
    (h : ∀ members, asked ≠ .object members) :
    fieldOutcomes schema field asked = [entryOutcome schema field "eq" (some asked)] := by
  cases asked with
  | object members => exact absurd rfl (h members)
  | _ => rfl

/-- A tagged form has one outcome. -/
theorem fieldOutcomes_tagged (schema : Schema) (field : String) {members : List (String × Json)}
    {tag : Json} (h : tag? members = some tag) :
    fieldOutcomes schema field (.object members) = [taggedOutcome schema field tag members] := by
  rw [fieldOutcomes, h]

/-- Without a tag there is one outcome for each member. -/
theorem fieldOutcomes_untagged (schema : Schema) (field : String)
    {members : List (String × Json)} (h : tag? members = none) :
    fieldOutcomes schema field (.object members)
      = members.map fun member => entryOutcome schema field member.1 (some member.2) := by
  rw [fieldOutcomes, h]

/-- Operator entries one after the other have their verdicts one after the other. -/
theorem verdicts_iff {α : Type} {field token : α → String} {given : α → Option Json}
    {entries : List α} {reading : Reading (List Predicate)} :
    collect (entries.map fun entry => entryOutcome schema (field entry) (token entry) (given entry))
        = reading ↔
      ∃ readings, reading = concat readings ∧
        List.Forall₂ (fun entry r => Verdict schema (field entry) (token entry) (given entry) r)
          entries readings := by
  induction entries generalizing reading with
  | nil =>
      simp only [List.map_nil, List.forall₂_nil_left_iff, exists_eq_right]
      exact eq_comm
  | cons entry rest ih =>
      rw [List.map_cons, ← List.singleton_append, collect_append]
      constructor
      · rintro rfl
        obtain ⟨readings, hrest, hall⟩ := ih.mp rfl
        exact ⟨_ :: readings, by rw [hrest]; rfl, .cons (verdict_iff.mp rfl) hall⟩
      · rintro ⟨readings, rfl, hall⟩
        cases hall with
        | cons hfirst hall => rw [verdict_iff.mpr hfirst, ih.mpr ⟨_, rfl, hall⟩]; rfl

/-! ### The forms -/

/-- **Filters are read entry by entry.** -/
theorem entrywise (schema : Schema) : Entrywise schema where
  ofRequest hgiven := (read_eq_collect hgiven).trans (readGiven_eq schema _).symm
  list_append entries more := by
    simp only [readGiven_eq, outcomes, List.map_append, collect_append]
  object_append members more := by
    simp only [readGiven_eq, outcomes, List.flatMap_append, collect_append]
  verdict_single field token given :=
    ⟨_, verdict_iff.mp rfl, isSingle_collect _, fun _ hother => (verdict_iff.mpr hother).symm⟩
  listed_single entry := by
    rw [readGiven_eq]
    exact isSingle_collect _
  listed hfield htag reading := by
    rw [readGiven_eq, outcomes, List.map_singleton, listOutcome]
    simp only [hfield, htag, taggedOutcome_string]
    exact verdict_iff
  short field asked hasked reading := by
    rw [readGiven_field, fieldOutcomes_short schema field hasked]
    exact verdict_iff
  tagged_single field members tag htag := by
    rw [readGiven_field, fieldOutcomes_tagged schema field htag]
    exact isSingle_collect _
  tagged field members token htag reading := by
    rw [readGiven_field, fieldOutcomes_tagged schema field htag, taggedOutcome_string]
    exact verdict_iff
  byOperator field members htag reading := by
    rw [readGiven_field, fieldOutcomes_untagged schema field htag]
    exact verdicts_iff

/-- A bound in the tagged form, with the text of an integer. -/
def adultAge : List (String × Json) :=
  [("field", .string "age"), ("op", .string "gte"), ("value", .string "18")]

/-- Two operators, one of them with an item that is no integer. -/
def mixedAges : List (String × Json) :=
  [("in", .array [.number (.integer 18), .string "x"]), ("lt", .string "65")]

/-- The entry of a list and the tagged form of a field have the same verdict, a predicate. A text
that is asked of a field without a rule is the operand of `eq`, and a fault. A list of operands with
one item that is no integer is refused as a whole, and the operator beside it is a predicate. -/
theorem entrywise_typed :
    ∃ schema, Schema.ofDefinition Sample.typed = .ok schema ∧
      read schema ⟨[("limit", .null), ("filter", .array [.object adultAge])]⟩
        = readGiven schema (.array [.object adultAge]) ∧
      Verdict schema "age" "gte" (some (.string "18"))
        ⟨[⟨"age", .gte, .scalar (.integer 18)⟩], []⟩ ∧
      Verdict schema "alias" "eq" (some (.string "Ada"))
        ⟨[], [(FilterCause.notFilterable "alias").fault "alias"]⟩ ∧
      IsSingle (readGiven schema (.object [("age", .object adultAge)])) ∧
      readGiven schema (.object [("age", .object adultAge)])
        = ⟨[⟨"age", .gte, .scalar (.integer 18)⟩], []⟩ ∧
      ∃ readings, concat readings
          = ⟨[⟨"age", .lt, .scalar (.integer 65)⟩],
              [(FilterCause.notOfType (.string "x") .integer).fault "age"]⟩ ∧
        List.Forall₂ (fun member r => Verdict schema "age" member.1 (some member.2) r)
          mixedAges readings := by
  obtain ⟨schema, hschema, hfilter, hlisted, hshort, hmixed⟩ :
      ∃ schema, Schema.ofDefinition Sample.typed = .ok schema ∧ schema.params.filter = "filter" ∧
        readGiven schema (.array [.object adultAge])
          = ⟨[⟨"age", .gte, .scalar (.integer 18)⟩], []⟩ ∧
        readGiven schema (.object [("alias", .string "Ada")])
          = ⟨[], [(FilterCause.notFilterable "alias").fault "alias"]⟩ ∧
        readGiven schema (.object [("age", .object mixedAges)])
          = ⟨[⟨"age", .lt, .scalar (.integer 65)⟩],
              [(FilterCause.notOfType (.string "x") .integer).fault "age"]⟩ :=
    ⟨_, rfl, rfl, rfl, rfl, rfl⟩
  have htag : tag? adultAge = some (.string "gte") := rfl
  have hentry := ((entrywise schema).listed rfl htag _).mp hlisted
  obtain ⟨readings, hconcat, hverdicts⟩ := ((entrywise schema).byOperator "age" rfl _).mp hmixed
  exact ⟨schema, hschema, (entrywise schema).ofRequest (by rw [hfilter]; rfl), hentry,
    ((entrywise schema).short "alias" (by simp) _).mp hshort,
    (entrywise schema).tagged_single "age" htag,
    ((entrywise schema).tagged "age" htag _).mpr hentry, readings, hconcat.symm, hverdicts⟩

end Filter

end ResourceQuery
