import ResourceQuery.Proofs.Filter.Scalar

/-!
# The verdict on an operator entry

An operator entry is a field, a token and perhaps an operand, and it has one of two outcomes. Both
are said here without the reader: `Filter.Accepts` is what has to hold for a predicate, and which
one it then is; `Filter.Refuses` is why there is none, one cause for each check and in the order of
the checks, so that no later cause applies where an earlier one does. Operands and scalars have such
a pair each. That the reader agrees with both shows that the two exclude each other and leave
nothing out.

A list is taken as a whole: all of its items, in their order, or none; and the first item that is
refused is the cause.

## Main definitions

* `Scalar.Takes`, `Operand.Takes`, `Filter.Accepts`: what is taken.
* `Scalar.Refuses`, `Operand.Refuses`, `Filter.Refuses`: what is refused, and why.

## Main statements

* `Operand.reads_iff_takes`, `Operand.read_eq_error_iff`: operands.
* `Filter.entryOutcome_eq_ok_iff`, `Filter.entryOutcome_eq_error_iff`: operator entries.
-/

namespace ResourceQuery

/-- A mapped result is a failure exactly when the result is the same failure. -/
theorem map_eq_error_iff {α β ε : Type} {f : α → β} {x : Except ε α} {e : ε} :
    x.map f = .error e ↔ x = .error e := by
  cases x <;> simp [Except.map]

/-! ### Scalars -/

namespace Scalar

/-- The JSON values that are scalars: truth values, integers of 64 bits, doubles and strings. -/
inductive Denotes : Json → Scalar → Prop
  | boolean (b : Bool) : Denotes (.bool b) (.boolean b)
  | integer (i : Int64) : Denotes (.number (.integer i.toInt)) (.integer i)
  | float (d : FiniteBinary64) : Denotes (.number (.double d)) (.float d.val)
  | string (s : String) : Denotes (.string s) (.string s)

/-- What is taken for a JSON scalar: itself, or what it is coerced to when a type is declared. -/
inductive Takes : Option ScalarType → Json → Scalar → Prop
  | untyped {given : Json} {v : Scalar} : Denotes given v → Takes none given v
  | typed {t : ScalarType} {given : Json} {raw v : Scalar} :
      Denotes given raw → coerce? t raw = some v → Takes (some t) given v

/-- Why nothing is taken for a JSON value: it is no scalar, or one that cannot be coerced. -/
inductive Refuses : Option ScalarType → Json → FilterCause → Prop
  | notAScalar {type : Option ScalarType} {given : Json} :
      (∀ v, ¬Denotes given v) → Refuses type given (.notAScalar given)
  | notOfType {t : ScalarType} {given : Json} {raw : Scalar} :
      Denotes given raw → coerce? t raw = none → Refuses (some t) given (.notOfType given t)

/-- A value denotes the scalar that is read from it without a type. -/
theorem denotes_iff {given : Json} {v : Scalar} : Denotes given v ↔ ofJson? given = some v := by
  constructor
  · rintro (_ | i | _ | _)
    · rfl
    · rw [ofJson?, Text.int64Of?_toInt]
      rfl
    · rfl
    · rfl
  · intro h
    unfold ofJson? at h
    split at h
    · obtain rfl := Option.some.inj h
      exact .boolean _
    · obtain ⟨n, hn, rfl⟩ := Option.map_eq_some_iff.mp h
      rw [Text.int64Of?_eq_some_iff.mp hn]
      exact .integer n
    · obtain rfl := Option.some.inj h
      exact .float _
    · obtain rfl := Option.some.inj h
      exact .string _
    · cases h

/-- A value denotes no scalar when none is read from it without a type. -/
theorem not_denotes_iff {given : Json} : (∀ v, ¬Denotes given v) ↔ ofJson? given = none := by
  simp only [denotes_iff, Option.eq_none_iff_forall_ne_some, ne_eq]

/-- A scalar is read exactly when it is taken. -/
theorem read_eq_ok_iff_takes {type : Option ScalarType} {given : Json} {v : Scalar} :
    read type given = .ok v ↔ Takes type given v := by
  rw [read_eq_ok_iff]
  constructor
  · rintro ⟨raw, hraw, ⟨rfl, rfl⟩ | ⟨t, rfl, hcoerce⟩⟩
    · exact .untyped (denotes_iff.mpr hraw)
    · exact .typed (denotes_iff.mpr hraw) hcoerce
  · rintro (hv | ⟨hraw, hcoerce⟩)
    · exact ⟨v, denotes_iff.mp hv, Or.inl ⟨rfl, rfl⟩⟩
    · exact ⟨_, denotes_iff.mp hraw, Or.inr ⟨_, rfl, hcoerce⟩⟩

/-- A scalar is refused with its cause. -/
theorem read_eq_error_iff {type : Option ScalarType} {given : Json} {cause : FilterCause} :
    read type given = .error cause ↔ Refuses type given cause := by
  constructor
  · intro h
    unfold read at h
    split at h
    · next hnone =>
        obtain rfl := Except.error.inj h
        exact .notAScalar (not_denotes_iff.mpr hnone)
    · next raw hraw =>
        split at h
        · cases h
        · split at h
          · cases h
          · next hcoerce =>
              obtain rfl := Except.error.inj h
              exact .notOfType (denotes_iff.mpr hraw) hcoerce
  · rintro (hnone | ⟨hraw, hcoerce⟩)
    · rw [read, not_denotes_iff.mp hnone]
    · rw [read, denotes_iff.mp hraw]
      simp [hcoerce]

/-- The first scalar that is refused is the failure of a list. -/
theorem readAll_eq_error_iff {type : Option ScalarType} {items : List Json} {cause : FilterCause} :
    readAll type items = .error cause ↔
      ∃ before bad after, items = before ++ bad :: after ∧
        (∀ item ∈ before, ∃ v, Takes type item v) ∧ Refuses type bad cause := by
  induction items with
  | nil => simp [readAll]
  | cons item rest ih =>
      rw [readAll]
      cases hitem : read type item with
      | error e =>
          constructor
          · intro h
            obtain rfl := Except.error.inj h
            exact ⟨[], item, rest, rfl, by simp, read_eq_error_iff.mp hitem⟩
          · rintro ⟨before, bad, after, hsplit, hbefore, hbad⟩
            cases before with
            | nil =>
                obtain ⟨rfl, rfl⟩ := List.cons.inj hsplit
                rw [read_eq_error_iff.mpr hbad] at hitem
                simp [Except.error.inj hitem]
            | cons first before =>
                obtain ⟨rfl, rfl⟩ := List.cons.inj hsplit
                obtain ⟨v, hv⟩ := hbefore item List.mem_cons_self
                rw [read_eq_ok_iff_takes.mpr hv] at hitem
                cases hitem
      | ok v =>
          have hrest : (∃ before bad after, item :: rest = before ++ bad :: after ∧
                (∀ item ∈ before, ∃ v, Takes type item v) ∧ Refuses type bad cause) ↔
              readAll type rest = .error cause := by
            rw [ih]
            constructor
            · rintro ⟨before, bad, after, hsplit, hbefore, hbad⟩
              cases before with
              | nil =>
                  obtain ⟨rfl, rfl⟩ := List.cons.inj hsplit
                  rw [read_eq_error_iff.mpr hbad] at hitem
                  cases hitem
              | cons first before =>
                  obtain ⟨rfl, rfl⟩ := List.cons.inj hsplit
                  exact ⟨before, bad, after, rfl, (List.forall_mem_cons.mp hbefore).2, hbad⟩
            · rintro ⟨before, bad, after, rfl, hbefore, hbad⟩
              exact ⟨item :: before, bad, after, rfl,
                List.forall_mem_cons.mpr ⟨⟨v, read_eq_ok_iff_takes.mp hitem⟩, hbefore⟩, hbad⟩
          rw [hrest]
          cases readAll type rest <;> simp

end Scalar

/-! ### Operands -/

/-- The items of a value of a shape that are taken for scalars. A text has none. -/
inductive OperandShape.Elements : OperandShape → Json → List Json → Prop
  | list {items : List Json} : items ≠ [] → Elements .list (.array items) items
  | pair (first last : Json) : Elements .pair (.array [first, last]) [first, last]
  | anyList (items : List Json) : Elements .any (.array items) items
  | anyScalar {given : Json} : (∀ items, given ≠ .array items) → Elements .any given [given]

namespace Operand

/-- What is taken for an operand: the value has the shape, and its items are taken for scalars, all
of them and in their order. A text is taken as it is. -/
inductive Takes (type : Option ScalarType) : OperandShape → Json → Operand → Prop
  | list {items : List Json} {vs : List Scalar} :
      items ≠ [] → List.Forall₂ (Scalar.Takes type) items vs →
      Takes type .list (.array items) (.list vs)
  | pair {first last : Json} {a b : Scalar} :
      Scalar.Takes type first a → Scalar.Takes type last b →
      Takes type .pair (.array [first, last]) (.range a b)
  | text (s : String) : Takes type .text (.string s) (.scalar (.string s))
  | anyList {items : List Json} {vs : List Scalar} :
      List.Forall₂ (Scalar.Takes type) items vs → Takes type .any (.array items) (.list vs)
  | anyScalar {given : Json} {v : Scalar} :
      Scalar.Takes type given v → Takes type .any given (.scalar v)

/-- Why nothing is taken for an operand: it has not the shape, or else one of its items is refused,
the first such one being the cause. -/
inductive Refuses (op : Operator) (type : Option ScalarType) : Json → FilterCause → Prop
  | notAList {given : Json} : op.shape = .list →
      (∀ item items, given ≠ .array (item :: items)) → Refuses op type given (.notAList op)
  | notAPair {given : Json} : op.shape = .pair →
      (∀ first last, given ≠ .array [first, last]) → Refuses op type given (.notAPair op)
  | notAText {given : Json} : op.shape = .text →
      (∀ s, given ≠ .string s) → Refuses op type given (.notAText op)
  | element {given bad : Json} {before after : List Json} {cause : FilterCause} :
      op.shape.Elements given (before ++ bad :: after) →
      (∀ item ∈ before, ∃ v, Scalar.Takes type item v) → Scalar.Refuses type bad cause →
      Refuses op type given cause

/-- Scalars are read from a list exactly when each of them is taken from its item. -/
theorem forall₂_takes_iff {type : Option ScalarType} {items : List Json} {vs : List Scalar} :
    Scalar.readAll type items = .ok vs ↔ List.Forall₂ (Scalar.Takes type) items vs := by
  simp only [Scalar.readAll_eq_ok_iff, Scalar.read_eq_ok_iff_takes]

/-- An operand is read exactly when it is taken. -/
theorem reads_iff_takes {type : Option ScalarType} {shape : OperandShape} {given : Json}
    {operand : Operand} : Reads type shape given operand ↔ Takes type shape given operand := by
  constructor
  · rintro (hvs | ⟨hfirst, hlast⟩ | s | hvs | hv)
    · exact .list (List.cons_ne_nil _ _) (forall₂_takes_iff.mp hvs)
    · exact .pair (Scalar.read_eq_ok_iff_takes.mp hfirst) (Scalar.read_eq_ok_iff_takes.mp hlast)
    · exact .text s
    · exact .anyList (forall₂_takes_iff.mp hvs)
    · exact .anyScalar (Scalar.read_eq_ok_iff_takes.mp hv)
  · rintro (⟨hne, hvs⟩ | ⟨hfirst, hlast⟩ | s | hvs | hv)
    · obtain ⟨item, items, rfl⟩ := List.exists_cons_of_ne_nil hne
      exact .list (forall₂_takes_iff.mpr hvs)
    · exact .pair (Scalar.read_eq_ok_iff_takes.mpr hfirst) (Scalar.read_eq_ok_iff_takes.mpr hlast)
    · exact .text s
    · exact .anyList (forall₂_takes_iff.mpr hvs)
    · exact .anyScalar (Scalar.read_eq_ok_iff_takes.mpr hv)

/-- A value whose items are taken for scalars is refused exactly when the list of them is. -/
theorem read_eq_error_iff_of_elements {op : Operator} {type : Option ScalarType} {given : Json}
    {items : List Json} {cause : FilterCause} (h : op.shape.Elements given items) :
    read op type given = .error cause ↔ Scalar.readAll type items = .error cause := by
  unfold read
  generalize op.shape = shape at h ⊢
  cases h with
  | list hne =>
      obtain ⟨item, items, rfl⟩ := List.exists_cons_of_ne_nil hne
      exact map_eq_error_iff
  | pair first last =>
      simp only [Scalar.readAll]
      cases Scalar.read type first with
      | error e => simp
      | ok a => cases Scalar.read type last <;> simp
  | anyList items => exact map_eq_error_iff
  | anyScalar hne =>
      simp only [Scalar.readAll]
      cases given with
      | array items => exact absurd rfl (hne items)
      | _ => cases Scalar.read type _ <;> simp [Except.map]

/-- **Soundness.** An operand that is not read is refused for the cause. -/
theorem refuses_of_read {op : Operator} {type : Option ScalarType} {given : Json}
    {cause : FilterCause} (h : read op type given = .error cause) :
    Refuses op type given cause := by
  have helement {shape : OperandShape} {items : List Json} (hshape : op.shape = shape)
      (helems : shape.Elements given items) : Refuses op type given cause := by
    subst hshape
    obtain ⟨before, bad, after, rfl, hbefore, hbad⟩ :=
      Scalar.readAll_eq_error_iff.mp ((read_eq_error_iff_of_elements helems).mp h)
    exact .element helems hbefore hbad
  unfold read at h
  split at h
  case h_1 hshape => exact helement hshape (.list (List.cons_ne_nil _ _))
  case h_2 hshape hne =>
    obtain rfl := Except.error.inj h
    exact .notAList hshape fun item items => hne item items
  case h_3 hshape => exact helement hshape (.pair _ _)
  case h_4 hshape hne =>
    obtain rfl := Except.error.inj h
    exact .notAPair hshape fun first last => hne first last
  case h_5 => cases h
  case h_6 hshape hne =>
    obtain rfl := Except.error.inj h
    exact .notAText hshape fun s => hne s
  case h_7 hshape => exact helement hshape (.anyList _)
  case h_8 hshape hne => exact helement hshape (.anyScalar hne)

/-- **Completeness.** An operand that is refused is not read, for the same cause. -/
theorem read_of_refuses {op : Operator} {type : Option ScalarType} {given : Json}
    {cause : FilterCause} (h : Refuses op type given cause) :
    read op type given = .error cause := by
  cases h with
  | notAList hshape hne =>
      unfold read
      rw [hshape]
      split <;> simp_all
  | notAPair hshape hne =>
      unfold read
      rw [hshape]
      split <;> simp_all
  | notAText hshape hne =>
      unfold read
      rw [hshape]
      split <;> simp_all
  | element helems hbefore hbad =>
      exact (read_eq_error_iff_of_elements helems).mpr
        (Scalar.readAll_eq_error_iff.mpr ⟨_, _, _, rfl, hbefore, hbad⟩)

/-- An operand is refused with its cause. -/
theorem read_eq_error_iff {op : Operator} {type : Option ScalarType} {given : Json}
    {cause : FilterCause} : read op type given = .error cause ↔ Refuses op type given cause :=
  ⟨refuses_of_read, read_of_refuses⟩

end Operand

/-- The cause of a refused operand is about its value. -/
theorem Operand.Refuses.kind_eq {op : Operator} {type : Option ScalarType} {given : Json}
    {cause : FilterCause} (h : Refuses op type given cause) : cause.kind = .filterValueShape := by
  cases h with
  | notAList _ _ | notAPair _ _ | notAText _ _ => rfl
  | element _ _ hbad => cases hbad <;> rfl

/-! ### Operator entries -/

namespace Filter

/-- When an operator entry becomes a predicate, and which one: its field has a rule, its token means
an operator that the rule allows, and it has an operand that is taken. -/
inductive Accepts (schema : Schema) (field token : String) : Option Json → Predicate → Prop
  | intro {rule : FilterRule} {op : Operator} {given : Json} {operand : Operand} :
      schema.filterRule? field = some rule → Operator.ofToken? token = some op →
      rule.allows op = true → Operand.Takes rule.type op.shape given operand →
      Accepts schema field token (some given) ⟨field, op, operand⟩

/-- Why an operator entry becomes none: the first of its checks that fails, with the kind of fault
that this makes. -/
inductive Refuses (schema : Schema) (field token : String) :
    Option Json → FaultKind → FilterCause → Prop
  | notFilterable {given : Option Json} : schema.filterRule? field = none →
      Refuses schema field token given .unknownField (.notFilterable field)
  | unknownOperator {given : Option Json} {rule : FilterRule} :
      schema.filterRule? field = some rule → Operator.ofToken? token = none →
      Refuses schema field token given .filterOperator (.unknownOperator token)
  | notAllowed {given : Option Json} {rule : FilterRule} {op : Operator} :
      schema.filterRule? field = some rule → Operator.ofToken? token = some op →
      rule.allows op = false →
      Refuses schema field token given .filterOperator (.notAllowed op field)
  | noOperand {rule : FilterRule} {op : Operator} :
      schema.filterRule? field = some rule → Operator.ofToken? token = some op →
      rule.allows op = true →
      Refuses schema field token none .filterValueShape (.noOperand op)
  | operand {rule : FilterRule} {op : Operator} {given : Json} {cause : FilterCause} :
      schema.filterRule? field = some rule → Operator.ofToken? token = some op →
      rule.allows op = true → Operand.Refuses op rule.type given cause →
      Refuses schema field token (some given) .filterValueShape cause

variable {schema : Schema} {field token : String} {given : Option Json}

/-- The predicate of an entry is on its field. -/
theorem Accepts.field_eq {p : Predicate} (h : Accepts schema field token given p) :
    p.field = field := by
  cases h
  rfl

/-- The operand of an accepted entry is taken in the shape of its operator, as the type that the
rule declares. -/
theorem Accepts.takes {p : Predicate} (h : Accepts schema field token given p) :
    ∃ rule json, schema.filterRule? field = some rule ∧
      Operand.Takes rule.type p.operator.shape json p.operand := by
  cases h with
  | intro hrule _ _ htakes => exact ⟨_, _, hrule, htakes⟩

/-- The kind of fault is that of the cause. -/
theorem Refuses.kind_eq {kind : FaultKind} {cause : FilterCause}
    (h : Refuses schema field token given kind cause) : cause.kind = kind := by
  cases h with
  | notFilterable _ | unknownOperator _ _ | notAllowed _ _ _ | noOperand _ _ _ => rfl
  | operand _ _ _ hrefused => exact hrefused.kind_eq

/-- **An operator entry becomes a predicate exactly when it is accepted.** -/
theorem entryOutcome_eq_ok_iff {p : Predicate} :
    entryOutcome schema field token given = .ok p ↔ Accepts schema field token given p := by
  constructor
  · intro h
    obtain ⟨rule, op, json, operand, hrule, hop, hallowed, rfl, hreads, rfl⟩ :=
      Predicate.readEntry_eq_ok_iff.mp (readEntry_of_entryOutcome h)
    exact .intro hrule hop hallowed (Operand.reads_iff_takes.mp hreads)
  · rintro ⟨hrule, hop, hallowed, htakes⟩
    have hread := Predicate.readEntry_eq_ok_iff.mpr
      ⟨_, _, _, _, hrule, hop, hallowed, rfl, Operand.reads_iff_takes.mpr htakes, rfl⟩
    rw [entryOutcome, hread]
    rfl

/-- The checks of an operator entry fail for the cause that refuses it. -/
theorem readEntry_eq_error_iff {cause : FilterCause} :
    Predicate.readEntry schema field token given = .error cause ↔
      ∃ kind, Refuses schema field token given kind cause := by
  constructor
  · intro h
    unfold Predicate.readEntry at h
    split at h
    · next hrule =>
        obtain rfl := Except.error.inj h
        exact ⟨_, .notFilterable hrule⟩
    · next rule hrule =>
        split at h
        · next hop =>
            obtain rfl := Except.error.inj h
            exact ⟨_, .unknownOperator hrule hop⟩
        · next op hop =>
            split at h
            · next hallowed =>
                obtain rfl := Except.error.inj h
                exact ⟨_, .notAllowed hrule hop (by simpa using hallowed)⟩
            · next hallowed =>
                have hallows : rule.allows op = true := by simpa using hallowed
                split at h
                · obtain rfl := Except.error.inj h
                  exact ⟨_, .noOperand hrule hop hallows⟩
                · exact ⟨_, .operand hrule hop hallows
                    (Operand.read_eq_error_iff.mp (map_eq_error_iff.mp h))⟩
  · rintro ⟨kind, hrule | ⟨hrule, hop⟩ | ⟨hrule, hop, hallowed⟩ | ⟨hrule, hop, hallowed⟩ |
      ⟨hrule, hop, hallowed, hrefused⟩⟩
    · simp [Predicate.readEntry, hrule]
    · simp [Predicate.readEntry, hrule, hop]
    · simp [Predicate.readEntry, hrule, hop, hallowed]
    · simp [Predicate.readEntry, hrule, hop, hallowed]
    · simp [Predicate.readEntry, hrule, hop, hallowed, Operand.read_eq_error_iff.mpr hrefused,
        Except.map]

/-- **An operator entry becomes a fault exactly when it is refused**: the fault is about its field,
of the kind of the check that fails, with the message of the cause. -/
theorem entryOutcome_eq_error_iff {fault : Fault} :
    entryOutcome schema field token given = .error fault ↔
      ∃ kind cause, Refuses schema field token given kind cause ∧
        fault = ⟨.filtering, field, kind, cause.message⟩ := by
  constructor
  · intro h
    cases hread : Predicate.readEntry schema field token given with
    | ok p => simp [entryOutcome, hread, Except.mapError] at h
    | error cause =>
        obtain ⟨kind, hrefused⟩ := readEntry_eq_error_iff.mp hread
        obtain rfl : cause.fault field = fault := by
          simpa [entryOutcome, hread, Except.mapError] using h
        exact ⟨kind, cause, hrefused, by rw [FilterCause.fault, hrefused.kind_eq]⟩
  · rintro ⟨kind, cause, hrefused, rfl⟩
    rw [entryOutcome, readEntry_eq_error_iff.mpr ⟨kind, hrefused⟩, ← hrefused.kind_eq]
    rfl

end Filter

end ResourceQuery
