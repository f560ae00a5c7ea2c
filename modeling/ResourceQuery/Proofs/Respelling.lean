import ResourceQuery.Proofs.Entries
import ResourceQuery.Proofs.Filter.Coercion
import ResourceQuery.Proofs.Filter.Entrywise
import ResourceQuery.Proofs.Filter.Types
import ResourceQuery.Proofs.Independence
import ResourceQuery.Proofs.Lists
import ResourceQuery.Proofs.Schema.Building
import ResourceQuery.Proofs.Text.Numerals

/-!
# Numbers and their texts

A query string has texts only, and a JSON body has numbers and truth values as well. Where a number
is expected, its text says the same: an integer or a truth value in an operand can be replaced by
its text, if its field declares a type that is not a double, and so can a limit or an offset. The
predicates and the window stay, and there are as many faults as before, about the same fields and of
the same kinds; only their messages quote the request as it is written.

The one operator that is left out is `contains`, which takes a text as it is and nothing else.

`Json.Respelled` is what may happen to one value, and the relations after it say where in a request
it may happen: any of the values may be replaced, and any may stay. Each reader takes related values
to results that agree (`FilterCause.Agree`, `CountParam.Agree`), from a scalar up to the parameter.

## Main definitions

* `Json.Respelled`: a value, or its text.
* `Filter.TypedExactly`: all fields that can be filtered by declare a type other than doubles.
* `Filter.Respelled`: filter parameters in which operands are respelled.
* `Fault.site`: what a fault says, except its message.

## Main statements

* `Scalar.agree_read`: a scalar and its text are read as the same.
* `Specification.respelled`: respelling changes neither predicates nor the window, and of the faults
  nothing but the messages.
-/

namespace ResourceQuery

/-! ### Respelling -/

/-- A value stays as it is, or it is a truth value or an integer of a range and becomes the string
of its text. -/
inductive Json.Respelled (range : Int → Prop) : Json → Json → Prop
  | same (given : Json) : Respelled range given given
  | boolean (b : Bool) : Respelled range (.bool b) (.string (Scalar.boolean b).text)
  | integer {i : Int} : range i →
      Respelled range (.number (.integer i)) (.string (String.ofList (Text.integerText i)))

/-- The integers of 64 bits with a sign. -/
def FitsInt64 (i : Int) : Prop :=
  -9223372036854775808 ≤ i ∧ i ≤ 9223372036854775807

/-- The scalars of an operand are respelled: the operand itself, or the items of a list. -/
inductive Operand.Respelled : Json → Json → Prop
  | scalar {given given' : Json} : Json.Respelled FitsInt64 given given' →
      Respelled given given'
  | list {items items' : List Json} : List.Forall₂ (Json.Respelled FitsInt64) items items' →
      Respelled (.array items) (.array items')

/-- Two records have the same names in the same order, with related values. -/
def Entries.Related {α : Type} (R : String → α → α → Prop) (entries entries' : Entries α) : Prop :=
  List.Forall₂ (fun entry entry' => entry'.1 = entry.1 ∧ R entry.1 entry.2 entry'.2)
    entries entries'

namespace Filter

/-- All fields that can be filtered by declare a type, and none of them that of doubles. -/
def TypedExactly (schema : Schema) : Prop :=
  ∀ field rule, schema.filterRule? field = some rule →
    rule.type = some .string ∨ rule.type = some .integer ∨ rule.type = some .boolean

/-- The operand of a token is respelled, unless the token means `contains`. -/
inductive RespelledFor (token : String) : Json → Json → Prop
  | same (given : Json) : RespelledFor token given given
  | operand {given given' : Json} : Operator.ofToken? token ≠ some .contains →
      Operand.Respelled given given' → RespelledFor token given given'

/-- A member of a tagged form is respelled: its operand, unless the tag means `contains`. -/
inductive RespelledMember (tag : Json) : String → Json → Json → Prop
  | same (name : String) (given : Json) : RespelledMember tag name given given
  | operand {given given' : Json} :
      (∀ token, tag = .string token → Operator.ofToken? token ≠ some .contains) →
      Operand.Respelled given given' → RespelledMember tag "value" given given'

/-- What is asked of a field is respelled, in each of its forms. -/
inductive RespelledField : Json → Json → Prop
  | short {asked asked' : Json} : (∀ members, asked ≠ .object members) →
      Operand.Respelled asked asked' → RespelledField asked asked'
  | keyed {members members' : Entries Json} : tag? members = none →
      Entries.Related RespelledFor members members' →
      RespelledField (.object members) (.object members')
  | tagged {members members' : Entries Json} {tag : Json} : tag? members = some tag →
      Entries.Related (RespelledMember tag) members members' →
      RespelledField (.object members) (.object members')

/-- An entry of a list is respelled. -/
inductive RespelledEntry : Json → Json → Prop
  | same (entry : Json) : RespelledEntry entry entry
  | tagged {members members' : Entries Json} {tag : Json} : tag? members = some tag →
      Entries.Related (RespelledMember tag) members members' →
      RespelledEntry (.object members) (.object members')

/-- The operands in a filter parameter are respelled. -/
inductive Respelled : Option Json → Option Json → Prop
  | same (given : Option Json) : Respelled given given
  | fields {fields fields' : Entries Json} :
      Entries.Related (fun _ => RespelledField) fields fields' →
      Respelled (some (.object fields)) (some (.object fields'))
  | list {entries entries' : List Json} : List.Forall₂ RespelledEntry entries entries' →
      Respelled (some (.array entries)) (some (.array entries'))

end Filter

/-- The count in a parameter is respelled. -/
def CountParam.Respelled : Option Json → Option Json → Prop :=
  Option.Rel (Json.Respelled fun _ => True)

/-- What a fault says, except its message: the field that it is about, and its kind. -/
def Fault.site (fault : Fault) : String × FaultKind :=
  (fault.field, fault.kind)

/-- What the faults of a capability say, except their messages, in order. -/
def Specification.sitesOf (spec : Specification) (c : Capability) : List (String × FaultKind) :=
  (spec.report.ofCapability c).map Fault.site

/-! ### Scalars and operands -/

/-- Two results are the same, or both are failures of the same kind. -/
inductive FilterCause.Agree {α : Type} : Except FilterCause α → Except FilterCause α → Prop
  | ok (a : α) : Agree (.ok a) (.ok a)
  | error {cause cause' : FilterCause} : cause.kind = cause'.kind →
      Agree (.error cause) (.error cause')

open FilterCause (Agree)

namespace FilterCause

/-- Every result agrees with itself. -/
theorem Agree.refl {α : Type} (x : Except FilterCause α) : Agree x x := by
  cases x with
  | ok a => exact .ok a
  | error cause => exact .error rfl

/-- Results that agree still do after the same change. -/
theorem Agree.map {α β : Type} {x y : Except FilterCause α} (h : Agree x y) (f : α → β) :
    Agree (x.map f) (y.map f) := by
  cases h with
  | ok a => exact .ok (f a)
  | error hkind => exact .error hkind

/-- Results that agree still do after steps that agree. -/
theorem Agree.bind {α β : Type} {x y : Except FilterCause α} {f g : α → Except FilterCause β}
    (h : Agree x y) (hnext : ∀ a, Agree (f a) (g a)) : Agree (x.bind f) (y.bind g) := by
  cases h with
  | ok a => exact hnext a
  | error hkind => exact .error hkind

end FilterCause

namespace Scalar

/-- A scalar of a type is the coerced one, or else no scalar of that type. -/
theorem read_some_eq {t : ScalarType} {given : Json} {raw : Scalar} (h : ofJson? given = some raw) :
    read (some t) given = (coerce? t raw).elim (.error (.notOfType given t)) .ok := by
  cases hcoerce : coerce? t raw <;> simp [read, h, hcoerce]

/-- Two scalars with the same coercion are read in the same way. -/
theorem agree_read_of_coerce? {t : ScalarType} {given given' : Json} {raw raw' : Scalar}
    (h : ofJson? given = some raw) (h' : ofJson? given' = some raw')
    (hcoerce : coerce? t raw = coerce? t raw') :
    Agree (read (some t) given) (read (some t) given') := by
  rw [read_some_eq h, read_some_eq h', hcoerce]
  cases coerce? t raw' with
  | none => exact .error rfl
  | some v => exact .ok v

/-- **A scalar and its text are read as the same**, for a type other than a double. -/
theorem agree_read {t : ScalarType} (ht : t ≠ .float) {given given' : Json}
    (h : Json.Respelled FitsInt64 given given') :
    Agree (read (some t) given) (read (some t) given') := by
  cases h with
  | same => exact .refl _
  | boolean b => exact agree_read_of_coerce? rfl rfl (coerce?_boolean_text ht b)
  | @integer i hrange =>
      obtain ⟨hlow, hhigh⟩ := hrange
      obtain ⟨n, rfl⟩ : ∃ n : Int64, i = n.toInt :=
        ⟨Int64.ofInt i, (Int64.toInt_ofInt_of_le (by omega) (by omega)).symm⟩
      exact agree_read_of_coerce? (denotes_iff.mp (.integer n)) rfl (coerce?_integer_text ht n)

/-- Scalars are read one by one, and the first refusal counts. -/
theorem readAll_cons (type : Option ScalarType) (item : Json) (items : List Json) :
    readAll type (item :: items)
      = (read type item).bind fun v => (readAll type items).map (v :: ·) := by
  rw [readAll]
  cases read type item with
  | error e => rfl
  | ok v => cases readAll type items <;> rfl

/-- A list whose items are respelled is read as the same. -/
theorem agree_readAll {t : ScalarType} (ht : t ≠ .float) {items items' : List Json}
    (h : List.Forall₂ (Json.Respelled FitsInt64) items items') :
    Agree (readAll (some t) items) (readAll (some t) items') := by
  induction h with
  | nil => exact .refl _
  | cons hitem _ ih =>
      rw [readAll_cons, readAll_cons]
      exact (agree_read ht hitem).bind fun v => ih.map _

end Scalar

namespace Operand

/-- Two bounds are read one after the other. -/
theorem read_pair {op : Operator} (hop : op.shape = .pair) (type : Option ScalarType)
    (first last : Json) :
    read op type (.array [first, last])
      = (Scalar.read type first).bind fun a => (Scalar.read type last).map (.range a) := by
  simp only [read, hop]
  cases Scalar.read type first with
  | error e => rfl
  | ok a => cases Scalar.read type last <;> rfl

/-- A pair is a list of two, so a list of any other length is none. -/
theorem read_pair_of_length {op : Operator} (hop : op.shape = .pair) (type : Option ScalarType)
    {items : List Json} (h : items.length ≠ 2) :
    read op type (.array items) = .error (.notAPair op) := by
  unfold read
  rw [hop]
  split <;> simp_all

/-- An operand whose items are respelled is read as the same. -/
theorem agree_read_list {op : Operator} {t : ScalarType} (ht : t ≠ .float)
    {items items' : List Json} (h : List.Forall₂ (Json.Respelled FitsInt64) items items') :
    Agree (read op (some t) (.array items)) (read op (some t) (.array items')) := by
  cases hop : op.shape with
  | any =>
      simp only [read, hop]
      exact (Scalar.agree_readAll ht h).map _
  | text =>
      simp only [read, hop]
      exact .refl _
  | list =>
      cases h with
      | nil => exact .refl _
      | cons hitem hitems =>
          simp only [read, hop]
          exact (Scalar.agree_readAll ht (.cons hitem hitems)).map _
  | pair =>
      by_cases hlength : items.length = 2
      · obtain ⟨first, last, rfl⟩ := List.length_eq_two.mp hlength
        obtain ⟨first', _, hfirst, hrest, rfl⟩ := List.forall₂_cons_left_iff.mp h
        obtain ⟨last', _, hlast, hnil, rfl⟩ := List.forall₂_cons_left_iff.mp hrest
        obtain rfl := List.forall₂_nil_left_iff.mp hnil
        rw [read_pair hop, read_pair hop]
        exact (Scalar.agree_read ht hfirst).bind fun a => (Scalar.agree_read ht hlast).map _
      · rw [read_pair_of_length hop _ hlength, read_pair_of_length hop _ (h.length_eq ▸ hlength)]
        exact .refl _

/-- **An operand that is respelled is read as the same**, unless a text is asked for. -/
theorem agree_read {op : Operator} (hop : op.shape ≠ .text) {t : ScalarType} (ht : t ≠ .float)
    {given given' : Json} (h : Respelled given given') :
    Agree (read op (some t) given) (read op (some t) given') := by
  cases h with
  | list hitems => exact agree_read_list ht hitems
  | scalar hscalar =>
      have hread := Scalar.agree_read ht hscalar
      cases hshape : op.shape with
      | text => exact absurd hshape hop
      | any =>
          cases hscalar with
          | same => exact .refl _
          | _ =>
              simp only [read, hshape]
              exact hread.map _
      | list => cases hscalar <;> simp only [read, hshape] <;> exact .refl _
      | pair => cases hscalar <;> simp only [read, hshape] <;> exact .refl _

end Operand

/-! ### Entries -/

/-- Under a name that is looked up, related records have related values or none. -/
theorem Entries.Related.get? {α : Type} {R : String → α → α → Prop} {entries entries' : Entries α}
    (h : Related R entries entries') (name : String) :
    Option.Rel (R name) (entries.get? name) (entries'.get? name) := by
  induction h with
  | nil => exact .none
  | @cons entry entry' _ _ hentry _ ih =>
      obtain ⟨_, v⟩ := entry
      obtain ⟨key, v'⟩ := entry'
      obtain ⟨rfl, hvalue⟩ := hentry
      rw [Entries.get?, Entries.get?]
      by_cases hkey : key = name
      · rw [if_pos hkey, if_pos hkey, ← hkey]
        exact .some hvalue
      · rw [if_neg hkey, if_neg hkey]
        exact ih

namespace Filter

/-- Only the operand of a tagged form is respelled. -/
theorem RespelledMember.eq_of_ne {tag : Json} {name : String} {given given' : Json}
    (h : RespelledMember tag name given given') (hname : name ≠ "value") : given' = given := by
  cases h with
  | same => rfl
  | operand => exact absurd rfl hname

/-- A respelled tagged form has the same tag, and the same values but its operand. -/
theorem get?_of_respelledMember {tag : Json} {members members' : Entries Json}
    (h : Entries.Related (RespelledMember tag) members members') {name : String}
    (hname : name ≠ "value") : members'.get? name = members.get? name := by
  have hvalue := h.get? name
  generalize members.get? name = given at hvalue ⊢
  generalize members'.get? name = given' at hvalue ⊢
  cases hvalue with
  | none => rfl
  | some hmember => rw [hmember.eq_of_ne hname]

/-- Respelled members have the same tag. -/
theorem tag?_of_respelledMember {tag : Json} {members members' : Entries Json}
    (h : Entries.Related (RespelledMember tag) members members') :
    tag? members' = tag? members := by
  rw [tag?, tag?, get?_of_respelledMember h (by decide), get?_of_respelledMember h (by decide)]

/-- Related members that have no tag. -/
theorem tag?_eq_none_of_related {R : String → Json → Json → Prop} {members members' : Entries Json}
    (h : Entries.Related R members members') (htag : tag? members = none) :
    tag? members' = none := by
  have hnone : ∀ name, Entries.get? members name = none → Entries.get? members' name = none := by
    intro name hname
    have hvalue := h.get? name
    rw [hname] at hvalue
    generalize Entries.get? members' name = given' at hvalue ⊢
    cases hvalue
    rfl
  obtain ⟨hop, hoperator⟩ := Option.or_eq_none_iff.mp htag
  exact Option.or_eq_none_iff.mpr ⟨hnone _ hop, hnone _ hoperator⟩

/-- An operand is no object, however it is spelled. -/
theorem ne_object_of_respelled {asked asked' : Json} (h : Operand.Respelled asked asked')
    (hasked : ∀ members, asked ≠ .object members) : ∀ members, asked' ≠ .object members := by
  cases h with
  | list => exact fun members => nofun
  | scalar hscalar =>
      cases hscalar with
      | same => exact hasked
      | _ => exact fun members => nofun

/-- An outcome without the message of its fault. -/
def summary : Outcome → Except (String × FaultKind) Predicate :=
  Except.mapError Fault.site

/-- Results that agree have the same summary. -/
theorem summary_mapError {x y : Except FilterCause Predicate} (h : Agree x y) (field : String) :
    summary (x.mapError fun cause => cause.fault field)
      = summary (y.mapError fun cause => cause.fault field) := by
  cases h with
  | ok p => rfl
  | error hkind => exact congrArg (fun kind => Except.error (field, kind)) hkind

section Typed

/-- The fields of a built schema are typed as its definition declares. -/
theorem typedExactly_of_ofDefinition {d : Definition} {schema : Schema}
    (h : Schema.ofDefinition d = .ok schema)
    (hd : ∀ filters ∈ d.filters, ∀ entry ∈ filters.entries,
      entry.2.type = some .string ∨ entry.2.type = some .integer ∨
        entry.2.type = some .boolean) : TypedExactly schema := by
  intro field rule hrule
  rw [Schema.filterRule?_of_ofDefinition h, Option.map_eq_some_iff] at hrule
  obtain ⟨declaration, hdeclared, rfl⟩ := hrule
  obtain ⟨filters, hfilters, hget⟩ := Option.bind_eq_some_iff.mp hdeclared
  exact hd filters hfilters _ (Entries.mem_of_get? hget)

variable {schema : Schema} (htyped : TypedExactly schema)

include htyped

/-- In this schema every rule has a type, which is not that of doubles. -/
theorem exists_type {field : String} {rule : FilterRule}
    (h : schema.filterRule? field = some rule) : ∃ t, rule.type = some t ∧ t ≠ .float := by
  rcases htyped field rule h with ht | ht | ht <;> exact ⟨_, ht, by decide⟩

/-- An operator entry with a respelled operand is read as the same. -/
theorem agree_readEntry (field : String) {token : String} {given given' : Option Json}
    (h : Option.Rel (RespelledFor token) given given') :
    Agree (Predicate.readEntry schema field token given)
      (Predicate.readEntry schema field token given') := by
  cases h with
  | none => exact .refl _
  | some hoperand =>
      cases hoperand with
      | same => exact .refl _
      | operand hcontains hrespelled =>
          unfold Predicate.readEntry
          cases hrule : schema.filterRule? field with
          | none => exact .refl _
          | some rule =>
              cases hop : Operator.ofToken? token with
              | none => exact .refl _
              | some op =>
                  obtain ⟨t, ht, hfloat⟩ := exists_type htyped hrule
                  have hshape : op.shape ≠ .text :=
                    fun htext => hcontains (hop.trans (congrArg some
                      (Operator.shape_eq_text_iff.mp htext)))
                  cases hallows : rule.allows op with
                  | false =>
                      simp only [hallows]
                      exact .refl _
                  | true =>
                      simp only [hallows, ht]
                      exact (Operand.agree_read hshape hfloat hrespelled).map _

/-- Respelled operands have outcomes with the same summary. -/
theorem summary_entryOutcome (field : String) {token : String} {given given' : Option Json}
    (h : Option.Rel (RespelledFor token) given given') :
    summary (entryOutcome schema field token given)
      = summary (entryOutcome schema field token given') :=
  summary_mapError (agree_readEntry htyped field h) field

/-- A respelled tagged form has the same outcome. -/
theorem summary_taggedOutcome (field : String) {tag : Json} {members members' : Entries Json}
    (h : Entries.Related (RespelledMember tag) members members') :
    summary (taggedOutcome schema field tag members)
      = summary (taggedOutcome schema field tag members') := by
  cases tag with
  | string token =>
      refine summary_entryOutcome htyped field ?_
      have hvalue := h.get? "value"
      generalize Entries.get? members "value" = given at hvalue ⊢
      generalize Entries.get? members' "value" = given' at hvalue ⊢
      cases hvalue with
      | none => exact .none
      | some hmember =>
          cases hmember with
          | same => exact .some (.same _)
          | operand hcontains hrespelled => exact .some (.operand (hcontains token rfl) hrespelled)
  | _ => rfl

/-- **What is asked of a field has the same outcomes when it is respelled**, except for messages. -/
theorem summary_fieldOutcomes (field : String) {asked asked' : Json}
    (h : RespelledField asked asked') :
    (fieldOutcomes schema field asked).map summary
      = (fieldOutcomes schema field asked').map summary := by
  cases h with
  | short hshort hrespelled =>
      have hshort' := ne_object_of_respelled hrespelled hshort
      have heq : Operator.ofToken? "eq" ≠ some .contains := by decide
      rw [fieldOutcomes_short schema field hshort, fieldOutcomes_short schema field hshort',
        List.map_singleton, List.map_singleton,
        summary_entryOutcome htyped field (.some (.operand heq hrespelled))]
  | keyed htag hmembers =>
      rw [fieldOutcomes_untagged schema field htag,
        fieldOutcomes_untagged schema field (tag?_eq_none_of_related hmembers htag), List.map_map,
        List.map_map]
      refine map_eq_of_forall₂ hmembers fun member member' hmember => ?_
      obtain ⟨hname, hoperand⟩ := hmember
      simp only [Function.comp, hname]
      exact summary_entryOutcome htyped field (.some hoperand)
  | tagged htag hmembers =>
      rw [fieldOutcomes_tagged schema field htag,
        fieldOutcomes_tagged schema field ((tag?_of_respelledMember hmembers).trans htag),
        List.map_singleton, List.map_singleton, summary_taggedOutcome htyped field hmembers]

/-- An entry of a list has the same outcome when it is respelled, except for the message. -/
theorem summary_listOutcome (param : String) {entry entry' : Json}
    (h : RespelledEntry entry entry') :
    summary (listOutcome schema param entry) = summary (listOutcome schema param entry') := by
  cases h with
  | same => rfl
  | @tagged members members' tag htag hmembers =>
      have htag' := (tag?_of_respelledMember hmembers).trans htag
      have hfield : Entries.get? members' "field" = Entries.get? members "field" :=
        get?_of_respelledMember hmembers (by decide)
      rw [listOutcome, listOutcome, htag, htag', hfield]
      split
      · next field tag' _ heq =>
          obtain rfl := Option.some.inj heq
          exact summary_taggedOutcome htyped field hmembers
      · rfl

/-- **A filter parameter has the same outcomes when it is respelled**, except for messages. -/
theorem summary_outcomes (param : String) {given given' : Option Json}
    (h : Respelled given given') :
    (outcomes schema param given).map summary = (outcomes schema param given').map summary := by
  cases h with
  | same => rfl
  | list hentries =>
      simp only [outcomes, List.map_map]
      exact map_eq_of_forall₂ hentries fun entry entry' => summary_listOutcome htyped param
  | fields hfields =>
      simp only [outcomes, List.map_flatMap]
      rw [List.flatMap_def, List.flatMap_def]
      refine congrArg List.flatten (map_eq_of_forall₂ hfields fun member member' hmember => ?_)
      obtain ⟨hname, hasked⟩ := hmember
      simp only [hname]
      exact summary_fieldOutcomes htyped member.1 hasked

end Typed

/-- The failure of an outcome without a message. -/
def site? : Except (String × FaultKind) Predicate → Option (String × FaultKind)
  | .ok _ => none
  | .error site => some site

/-- The predicates of outcomes are told from their summaries. -/
theorem filterMap_predicate?_eq (outcomes : List Outcome) :
    outcomes.filterMap predicate? = (outcomes.map summary).filterMap Except.toOption := by
  rw [List.filterMap_map]
  refine List.filterMap_congr fun outcome _ => ?_
  cases outcome <;> rfl

/-- The sites of the faults of outcomes are told from their summaries. -/
theorem map_site_filterMap_fault? (outcomes : List Outcome) :
    (outcomes.filterMap fault?).map Fault.site = (outcomes.map summary).filterMap site? := by
  rw [List.filterMap_map, List.map_filterMap]
  refine List.filterMap_congr fun outcome _ => ?_
  cases outcome <;> rfl

/-- **The filters of a request are read as the same when they are respelled**, except for
messages. -/
theorem read_respelled {schema : Schema} (htyped : TypedExactly schema)
    {request request' : Request}
    (h : Respelled (request.get? schema.params.filter) (request'.get? schema.params.filter)) :
    (read schema request).output = (read schema request').output ∧
      (read schema request).faults.map Fault.site
        = (read schema request').faults.map Fault.site := by
  have houtcomes := summary_outcomes htyped schema.params.filter h
  constructor
  · simp only [read, filterMap_predicate?_eq, houtcomes]
  · simp only [read, map_site_filterMap_fault?, houtcomes]

end Filter

/-! ### Windows -/

/-- Two parameters say the same, or both are refused. -/
inductive CountParam.Agree : CountParam → CountParam → Prop
  | same (param : CountParam) : Agree param param
  | invalid (given given' : Json) : Agree (.invalid given) (.invalid given')

namespace CountParam

/-- **A count and its text say the same.** -/
theorem agree_ofValue {given given' : Option Json} (h : Respelled given given') :
    Agree (ofValue given) (ofValue given') := by
  cases h with
  | none => exact .same _
  | some hgiven =>
      cases hgiven with
      | same => exact .same _
      | boolean b => cases b <;> exact .invalid _ _
      | @integer i _ =>
          have hblank : ¬Text.isBlankText (String.ofList (Text.integerText i)) = true := by
            simp [Text.isBlankText_integerText]
          rw [ofValue, ofValue, if_neg hblank, String.toList_ofList, Text.trim_integerText,
            Text.count?_integerText]
          cases (Json.Number.integer i).count? with
          | none => exact .invalid _ _
          | some n => exact .same _

/-- Parameters that agree have the same count. -/
theorem Agree.count?_eq {param param' : CountParam} (h : Agree param param') :
    param.count? = param'.count? := by
  cases h <;> rfl

/-- Parameters that agree have faults at the same sites. -/
theorem Agree.sites_eq {param param' : CountParam} (h : Agree param param') (name : String) :
    (param.faults name).map Fault.site = (param'.faults name).map Fault.site := by
  cases h <;> rfl

end CountParam

/-- **The window of a request is read as the same when its counts are respelled**, except for
messages. -/
theorem Window.read_respelled {schema : Schema} {request request' : Request}
    (hlimit : CountParam.Respelled (request.get? schema.params.limit)
      (request'.get? schema.params.limit))
    (hoffset : CountParam.Respelled (request.get? schema.params.offset)
      (request'.get? schema.params.offset)) :
    (read schema request).output = (read schema request').output ∧
      (read schema request).faults.map Fault.site
        = (read schema request').faults.map Fault.site := by
  have hlimit := CountParam.agree_ofValue hlimit
  have hoffset := CountParam.agree_ofValue hoffset
  constructor
  · simp only [read, hlimit.count?_eq, hoffset.count?_eq]
  · simp only [read, List.map_append, hlimit.count?_eq, hlimit.sites_eq, hoffset.sites_eq]

/-! ### Specifications -/

namespace Specification

/-- The sites of a specification are those of the faults of its readings. -/
theorem sitesOf_ofRequest (schema : Schema) (request : Request) (c : Capability) :
    (ofRequest schema request).sitesOf c
      = if schema.enabled.isEnabled c then (faultsOf schema request c).map Fault.site else [] := by
  rw [sitesOf, ofCapability_report]
  split <;> rfl

/-- **Numbers and their texts mean the same.** If all fields that can be filtered by declare a type
other than that of doubles, integers and truth values in the operands of filters can be replaced by
their texts, in every form of a filter and for every operator but `contains`. The predicates stay,
and so do the fields and the kinds of the faults, in their order. The same holds of the limit and
the offset and the window, whatever the fields declare. -/
theorem respelled (schema : Schema) (request request' : Request) :
    (Filter.TypedExactly schema →
      Filter.Respelled (request.get? schema.params.filter) (request'.get? schema.params.filter) →
      (ofRequest schema request).filters = (ofRequest schema request').filters ∧
        (ofRequest schema request).sitesOf .filtering
          = (ofRequest schema request').sitesOf .filtering) ∧
    (CountParam.Respelled (request.get? schema.params.limit)
        (request'.get? schema.params.limit) →
      CountParam.Respelled (request.get? schema.params.offset)
        (request'.get? schema.params.offset) →
      (ofRequest schema request).window = (ofRequest schema request').window ∧
        (ofRequest schema request).sitesOf .pagination
          = (ofRequest schema request').sitesOf .pagination) := by
  constructor
  · intro htyped hrespelled
    obtain ⟨houtput, hsites⟩ := Filter.read_respelled htyped hrespelled
    constructor
    · simp only [ofRequest, houtput]
    · simp only [sitesOf_ofRequest, faultsOf, hsites]
  · intro hlimit hoffset
    obtain ⟨houtput, hsites⟩ := Window.read_respelled hlimit hoffset
    constructor
    · simp only [ofRequest, houtput]
    · simp only [sitesOf_ofRequest, faultsOf, hsites]

/-- A definition with filters of the three types, and a largest limit. -/
def members : Definition :=
  ({ resource := "members" } : Definition)
    |>.withFilter "age" { type := some .integer }
    |>.withFilter "active" { type := some .boolean }
    |>.withFilter "code" { type := some .string }
    |>.withPagination (some 50)

/-- A request with numbers in each form of a filter, a limit beyond the largest and an offset that
is no count. -/
def numeric : Request :=
  ⟨[("filter", .object
      [("age", .object [("between", .array [.number (.integer 18), .string "65"])]),
        ("active", .number (.integer 1)),
        ("code", .object [("op", .string "in"), ("value", .array [.bool true, .null])])]),
    ("limit", .number (.integer 60)), ("offset", .number (.integer (-1)))]⟩

/-- The request with their texts. -/
def textual : Request :=
  ⟨[("filter", .object
      [("age", .object [("between", .array [.string "18", .string "65"])]),
        ("active", .string "1"),
        ("code", .object [("op", .string "in"), ("value", .array [.string "true", .null])])]),
    ("limit", .string "60"), ("offset", .string "-1")]⟩

/-- The two requests differ in the spelling of numbers and truth values only. -/
theorem numeric_respelled :
    Filter.Respelled (numeric.get? "filter") (textual.get? "filter") ∧
      CountParam.Respelled (numeric.get? "limit") (textual.get? "limit") ∧
      CountParam.Respelled (numeric.get? "offset") (textual.get? "offset") := by
  have htext : ∀ {range : Int → Prop} {i : Int} {s : String}, range i →
      Text.integerText i = s.toList → Json.Respelled range (.number (.integer i)) (.string s) := by
    intro range i s hrange hs
    rw [← String.ofList_toList (s := s), ← hs]
    exact .integer hrange
  have hone : Json.Respelled FitsInt64 (.number (.integer 1)) (.string "1") :=
    htext ⟨by decide, by decide⟩ (by simp [Text.integerText, Text.digits, Text.digitChar])
  have heighteen : Json.Respelled FitsInt64 (.number (.integer 18)) (.string "18") :=
    htext ⟨by decide, by decide⟩ (by simp [Text.integerText, Text.digits, Text.digitChar])
  have hage : Filter.RespelledField
      (.object [("between", .array [.number (.integer 18), .string "65"])])
      (.object [("between", .array [.string "18", .string "65"])]) :=
    .keyed rfl (.cons ⟨rfl, .operand (by decide) (.list (.cons heighteen (.cons (.same _) .nil)))⟩
      .nil)
  have hactive : Filter.RespelledField (.number (.integer 1)) (.string "1") :=
    .short (fun _ h => by cases h) (.scalar hone)
  have hcode : Filter.RespelledField
      (.object [("op", .string "in"), ("value", .array [.bool true, .null])])
      (.object [("op", .string "in"), ("value", .array [.string "true", .null])]) := by
    refine .tagged rfl (.cons ⟨rfl, .same _ _⟩ (.cons ⟨rfl, .operand ?_ ?_⟩ .nil))
    · intro token htoken
      obtain rfl : "in" = token := by simpa using htoken
      decide
    · exact .list (.cons (.boolean true) (.cons (.same _) .nil))
  have hsixty : Text.integerText 60 = ['6', '0'] := by
    simp [Text.integerText, Text.digits, Text.digitChar]
  have hminus : Text.integerText (-1) = ['-', '1'] := by
    change '-' :: Text.digits 1 = ['-', '1']
    simp [Text.digits, Text.digitChar]
  exact ⟨.fields (.cons ⟨rfl, hage⟩ (.cons ⟨rfl, hactive⟩ (.cons ⟨rfl, hcode⟩ .nil))),
    .some (htext trivial hsixty), .some (htext trivial hminus)⟩

/-- Two of the filters are predicates, of the numbers and of the texts, and the third has a fault,
as have limit and offset. -/
theorem respelled_members :
    ∃ schema, Schema.ofDefinition members = .ok schema ∧ Filter.TypedExactly schema ∧
      (ofRequest schema numeric).filters = (ofRequest schema textual).filters ∧
      (ofRequest schema textual).filters.length = 2 ∧
      (ofRequest schema numeric).sitesOf .filtering = [("code", .filterValueShape)] ∧
      (ofRequest schema numeric).window = (ofRequest schema textual).window ∧
      (ofRequest schema numeric).sitesOf .pagination
        = [("offset", .paginationValue), ("limit", .paginationValue)] := by
  have htyped : Filter.TypedExactly _ := Filter.typedExactly_of_ofDefinition
    (rfl : Schema.ofDefinition members = .ok _) (by decide)
  obtain ⟨hfilter, hlimit, hoffset⟩ := numeric_respelled
  obtain ⟨hfilters, hsites⟩ := (respelled _ numeric textual).1 htyped hfilter
  refine ⟨_, rfl, htyped, hfilters, rfl, hsites.trans rfl, ?_⟩
  exact ((respelled _ numeric textual).2 (by exact hlimit) (by exact hoffset)).imp_right
    (Eq.trans · rfl)

end Specification

end ResourceQuery
