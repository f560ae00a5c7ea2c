import Mathlib.Data.List.Forall2
import ResourceQuery.Filter.Reading

/-!
# What the filter reader accepts

The reader of filters is a chain of checks. Here each link is turned into a statement about its
success: an operand is read exactly when it stands in the relation `Operand.Reads` to the given
value, and an operator entry becomes a predicate exactly when all of its checks pass. Everything
that is said about the predicates of a request goes through these two equivalences, so that no
later proof looks into the checks again.

`Outcome.About` says which field and which operator an outcome belongs to, whichever way it went.

## Main statements

* `Operand.read_eq_ok_iff`: reading an operand is the relation `Operand.Reads`.
* `Predicate.readEntry_eq_ok_iff`: when an operator entry becomes a predicate.
* `Filter.origin_of_mem_outcomes`: what every outcome of a filter parameter comes from.
* `Filter.readEntry_of_mem_read`: every predicate of a request comes from an operator entry.
* `Filter.about_entryOutcome`: an operator entry has an outcome about its field.
-/

namespace ResourceQuery

/-- A mapped result is a success exactly when the result is one. -/
theorem map_eq_ok_iff {α β ε : Type} {f : α → β} {x : Except ε α} {b : β} :
    x.map f = .ok b ↔ ∃ a, x = .ok a ∧ f a = b := by
  cases x <;> simp [Except.map]

/-! ### Operands -/

/-- The shapes of operands, by the operands that have them. -/
inductive OperandShape.Admits : OperandShape → Operand → Prop
  | scalar (v : Scalar) : Admits .any (.scalar v)
  | anyList (vs : List Scalar) : Admits .any (.list vs)
  | list (v : Scalar) (vs : List Scalar) : Admits .list (.list (v :: vs))
  | pair (first last : Scalar) : Admits .pair (.range first last)
  | text (s : String) : Admits .text (.scalar (.string s))

/-- **The reading relation.** `Reads type shape given operand` states: the given value has the
shape, its scalars are read as the declared type, and together they are the operand. The text of a
text operand is taken as it is. -/
inductive Operand.Reads (type : Option ScalarType) : OperandShape → Json → Operand → Prop
  | list {item : Json} {items : List Json} {vs : List Scalar} :
      Scalar.readAll type (item :: items) = .ok vs →
      Reads type .list (.array (item :: items)) (.list vs)
  | pair {first last : Json} {a b : Scalar} :
      Scalar.read type first = .ok a → Scalar.read type last = .ok b →
      Reads type .pair (.array [first, last]) (.range a b)
  | text (s : String) : Reads type .text (.string s) (.scalar (.string s))
  | anyList {items : List Json} {vs : List Scalar} :
      Scalar.readAll type items = .ok vs → Reads type .any (.array items) (.list vs)
  | anyScalar {given : Json} {v : Scalar} :
      Scalar.read type given = .ok v → Reads type .any given (.scalar v)

/-- Scalars are read one by one. -/
theorem Scalar.readAll_eq_ok_iff {type : Option ScalarType} {items : List Json}
    {vs : List Scalar} :
    readAll type items = .ok vs ↔
      List.Forall₂ (fun given v => read type given = .ok v) items vs := by
  induction items generalizing vs with
  | nil =>
      rw [readAll, Except.ok.injEq, List.forall₂_nil_left_iff]
      exact eq_comm
  | cons given rest ih =>
      rw [readAll, List.forall₂_cons_left_iff]
      cases hv : read type given with
      | error e => simp
      | ok v =>
          cases hvs : readAll type rest with
          | error e => simp [← ih, hvs]
          | ok vs' =>
              simp only [Except.ok.injEq, ← ih, hvs]
              constructor
              · intro h
                exact ⟨v, vs', rfl, rfl, h.symm⟩
              · rintro ⟨_, _, rfl, rfl, rfl⟩
                rfl

/-- No array is a scalar. -/
theorem Scalar.read_array (type : Option ScalarType) (items : List Json) (v : Scalar) :
    read type (.array items) ≠ .ok v := by
  simp [read, ofJson?]

namespace Operand

/-- **Soundness.** An operand that is read stands in the reading relation to the given value. -/
theorem reads_of_read {op : Operator} {type : Option ScalarType} {given : Json}
    {operand : Operand} (h : read op type given = .ok operand) :
    Reads type op.shape given operand := by
  unfold read at h
  split at h
  case h_1 hshape =>
    obtain ⟨vs, hvs, rfl⟩ := map_eq_ok_iff.mp h
    rw [hshape]
    exact .list hvs
  case h_3 hshape =>
    rw [hshape]
    split at h
    · next hfirst hlast =>
        obtain rfl := Except.ok.inj h
        exact .pair hfirst hlast
    · cases h
    · cases h
  case h_5 hshape =>
    obtain rfl := Except.ok.inj h
    rw [hshape]
    exact .text _
  case h_7 hshape =>
    obtain ⟨vs, hvs, rfl⟩ := map_eq_ok_iff.mp h
    rw [hshape]
    exact .anyList hvs
  case h_8 hshape _ =>
    obtain ⟨v, hv, rfl⟩ := map_eq_ok_iff.mp h
    rw [hshape]
    exact .anyScalar hv
  -- in all other cases the value is refused
  all_goals cases h

/-- **Completeness.** Whatever stands in the reading relation to the given value is read. -/
theorem read_of_reads {op : Operator} {type : Option ScalarType} {given : Json}
    {operand : Operand} (h : Reads type op.shape given operand) :
    read op type given = .ok operand := by
  unfold read
  generalize op.shape = shape at h ⊢
  cases h with
  | list hvs => simp [hvs, Except.map]
  | pair hfirst hlast => simp [hfirst, hlast]
  | text s => rfl
  | anyList hvs => simp [hvs, Except.map]
  | anyScalar hv =>
      cases given with
      | array items => exact absurd hv (Scalar.read_array _ _ _)
      | _ => simp [hv, Except.map]

/-- Reading an operand is the reading relation. -/
theorem read_eq_ok_iff {op : Operator} {type : Option ScalarType} {given : Json}
    {operand : Operand} :
    read op type given = .ok operand ↔ Reads type op.shape given operand :=
  ⟨reads_of_read, read_of_reads⟩

/-- An operand that is read has the shape of its operator. -/
theorem Reads.admits {type : Option ScalarType} {shape : OperandShape} {given : Json}
    {operand : Operand} (h : Reads type shape given operand) : shape.Admits operand := by
  cases h with
  | list hvs =>
      obtain ⟨v, vs, -, -, rfl⟩ := List.forall₂_cons_left_iff.mp (Scalar.readAll_eq_ok_iff.mp hvs)
      exact .list v vs
  | pair _ _ => exact .pair _ _
  | text s => exact .text s
  | anyList _ => exact .anyList _
  | anyScalar _ => exact .scalar _

end Operand

/-! ### Operator entries -/

/-- **When an operator entry becomes a predicate.** The field can be filtered by, the token is an
operator that the rule allows, and an operand is given that can be read. -/
theorem Predicate.readEntry_eq_ok_iff {schema : Schema} {field token : String}
    {given : Option Json} {p : Predicate} :
    readEntry schema field token given = .ok p ↔
      ∃ rule op json operand, schema.filterRule? field = some rule ∧
        Operator.ofToken? token = some op ∧ rule.allows op = true ∧ given = some json ∧
        Operand.Reads rule.type op.shape json operand ∧ p = ⟨field, op, operand⟩ := by
  constructor
  · intro h
    unfold readEntry at h
    split at h
    · cases h
    · next rule hrule =>
        split at h
        · cases h
        · next op hop =>
            split at h
            · cases h
            · next hallowed =>
                split at h
                · cases h
                · next json =>
                    obtain ⟨operand, hread, rfl⟩ := map_eq_ok_iff.mp h
                    exact ⟨rule, op, json, operand, hrule, hop, by simpa using hallowed, rfl,
                      Operand.read_eq_ok_iff.mp hread, rfl⟩
  · rintro ⟨rule, op, json, operand, hrule, hop, hallowed, rfl, hreads, rfl⟩
    unfold readEntry
    simp [hrule, hop, hallowed, Operand.read_eq_ok_iff.mpr hreads, Except.map]

namespace Filter

/-- What an outcome is about: its predicate is on the field and has the operator, if one is asked
for, or its fault names the field. -/
def Outcome.About (field : String) (asked : Option Operator) : Outcome → Prop
  | .ok p => p.field = field ∧ ∀ op ∈ asked, p.operator = op
  | .error fault => fault.capability = .filtering ∧ fault.field = field

/-- The operator that a tag asks for. -/
def tagOperator? : Json → Option Operator
  | .string token => Operator.ofToken? token
  | _ => none

/-- An operator entry has an outcome about its field and the operator that its token means. -/
theorem about_entryOutcome (schema : Schema) (field token : String) (given : Option Json) :
    (entryOutcome schema field token given).About field (Operator.ofToken? token) := by
  rw [entryOutcome]
  cases h : Predicate.readEntry schema field token given with
  | error cause => exact ⟨rfl, rfl⟩
  | ok p =>
      obtain ⟨rule, op, _, _, -, hop, -, -, -, rfl⟩ := Predicate.readEntry_eq_ok_iff.mp h
      refine ⟨rfl, fun asked hasked => ?_⟩
      rw [hop] at hasked
      exact Option.some.inj hasked

/-- A tagged form has an outcome about its field and the operator that its tag asks for. -/
theorem about_taggedOutcome (schema : Schema) (field : String) (tag : Json)
    (members : List (String × Json)) :
    (taggedOutcome schema field tag members).About field (tagOperator? tag) := by
  unfold taggedOutcome
  split
  · next token => exact about_entryOutcome schema field token _
  · exact ⟨rfl, rfl⟩

/-- A predicate of an operator entry has been read from the entry. -/
theorem readEntry_of_entryOutcome {schema : Schema} {field token : String} {given : Option Json}
    {p : Predicate} (h : entryOutcome schema field token given = .ok p) :
    Predicate.readEntry schema field token given = .ok p := by
  rw [entryOutcome] at h
  cases hread : Predicate.readEntry schema field token given with
  | error cause => rw [hread] at h; cases h
  | ok q =>
      rw [hread] at h
      exact congrArg Except.ok (Except.ok.inj h)

/-! ### Where outcomes come from -/

/-- Where an outcome comes from: from an operator entry, from an operator that is no text, or from
what stands in the parameter in place of an entry. -/
inductive Origin (schema : Schema) (param : String) : Outcome → Prop
  | entry (field token : String) (given : Option Json) :
      Origin schema param (entryOutcome schema field token given)
  | operator (field : String) :
      Origin schema param (.error (FilterCause.operatorNotText.fault field))
  | parameter (cause : FilterCause) : Origin schema param (.error (cause.fault param))

/-- The outcome of a tagged form comes from the field and the tag. -/
theorem origin_taggedOutcome (schema : Schema) (param field : String) (tag : Json)
    (members : List (String × Json)) :
    Origin schema param (taggedOutcome schema field tag members) := by
  unfold taggedOutcome
  split
  · exact .entry _ _ _
  · exact .operator _

/-- An outcome of what is asked of a field comes from the field. -/
theorem origin_of_mem_fieldOutcomes {schema : Schema} {field : String} {asked : Json}
    {outcome : Outcome} (param : String) (h : outcome ∈ fieldOutcomes schema field asked) :
    Origin schema param outcome := by
  unfold fieldOutcomes at h
  split at h
  · split at h
    · rw [List.mem_singleton.mp h]
      exact origin_taggedOutcome schema param field _ _
    · obtain ⟨member, -, rfl⟩ := List.mem_map.mp h
      exact .entry _ _ _
  · rw [List.mem_singleton.mp h]
    exact .entry _ _ _

/-- The outcome of an item of a list comes from the item. -/
theorem origin_listOutcome (schema : Schema) (param : String) (entry : Json) :
    Origin schema param (listOutcome schema param entry) := by
  unfold listOutcome
  split
  · split
    · exact origin_taggedOutcome schema param _ _ _
    · exact .parameter _
  · exact .parameter _

/-- **Every outcome of a filter parameter has an origin.** -/
theorem origin_of_mem_outcomes {schema : Schema} {param : String} {given : Option Json}
    {outcome : Outcome} (h : outcome ∈ outcomes schema param given) :
    Origin schema param outcome := by
  unfold outcomes at h
  split at h
  · cases h
  · cases h
  · obtain ⟨member, -, hmember⟩ := List.mem_flatMap.mp h
    exact origin_of_mem_fieldOutcomes param hmember
  · obtain ⟨entry, -, rfl⟩ := List.mem_map.mp h
    exact origin_listOutcome schema param entry
  · rw [List.mem_singleton.mp h]
    exact .parameter _

/-- **Every predicate of a request has been read from an operator entry.** -/
theorem readEntry_of_mem_read {schema : Schema} {request : Request} {p : Predicate}
    (h : p ∈ (read schema request).output) :
    ∃ field token given, Predicate.readEntry schema field token given = .ok p := by
  obtain ⟨outcome, hmem, hp⟩ := List.mem_filterMap.mp h
  cases origin_of_mem_outcomes hmem with
  | entry field token given =>
      refine ⟨field, token, given, readEntry_of_entryOutcome ?_⟩
      cases houtcome : entryOutcome schema field token given with
      | ok q =>
          rw [houtcome] at hp
          rw [Option.some.inj hp]
      | error fault =>
          rw [houtcome] at hp
          cases hp
  | operator field => cases hp
  | parameter cause => cases hp

end Filter

end ResourceQuery
