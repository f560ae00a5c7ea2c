import Mathlib.Data.List.Induction
import ResourceQuery.Proofs.Entries
import ResourceQuery.Proofs.Filter.Entrywise

/-!
# The forms of a filter agree

The same operator entries can be written as a list of objects, as an object that has for each field
the operands by their operators, and, if no field comes twice, as an object of tagged forms. What is
read from them is the same: predicates, faults, and their order. An operand by itself is short for a
tagged form with `eq`.

An object has room for a field only once, at its first place, and for an operator of a field only
once. So the entries of a field have to stand together, and their tokens have to differ; a token
must not be one of the two names that make a tag. Under these conditions the object, written entry
by entry, grows at its end only (`Filter.LaidOut.addMember`), and read in order it gives the entries
back (`Filter.laidOut_keyedFields`).

## Main definitions

* `Filter.Entry`: an operator entry as it is meant.
* `Filter.listForm`, `Filter.keyedForm`, `Filter.taggedForm`, `Filter.spelledOut`: the forms.
* `Filter.Alike`: filter parameters from which the same is read.

## Main statements

* `Filter.forms_agree`: the forms agree, and are read as the verdicts on their entries.
-/

namespace ResourceQuery

namespace Filter

/-- An operator entry as it is meant: a field, a token for an operator, and an operand. -/
structure Entry where
  field : String
  token : String
  value : Json

/-! ### Forms -/

/-- An entry as an object with its field; its token stands under `key`. -/
def Entry.listed (key : String) (entry : Entry) : Json :=
  .object [("field", .string entry.field), (key, .string entry.token), ("value", entry.value)]

/-- An entry as what is asked of its field; its token stands under `key`. -/
def Entry.tagged (key : String) (entry : Entry) : Json :=
  .object [(key, .string entry.token), ("value", entry.value)]

/-- The list form. -/
def listForm (key : String) (entries : List Entry) : Json :=
  .array (entries.map (Entry.listed key))

/-- One more entry in a record of fields that have their operands by operators. -/
def addMember (fields : Entries (Entries Json)) (entry : Entry) : Entries (Entries Json) :=
  fields.put entry.field (((fields.get? entry.field).getD []).put entry.token entry.value)

/-- The fields of entries, with their operands by operators. -/
def keyedFields (entries : List Entry) : Entries (Entries Json) :=
  entries.foldl addMember []

/-- A record of fields as an object of objects. -/
def fieldsObject (fields : Entries (Entries Json)) : Json :=
  .object (fields.map fun (field, members) => (field, .object members))

/-- The form by operators. -/
def keyedForm (entries : List Entry) : Json :=
  fieldsObject (keyedFields entries)

/-- The tagged form. -/
def taggedForm (key : String) (entries : List Entry) : Json :=
  .object (Entries.ofWrites (entries.map fun entry => (entry.field, entry.tagged key)))

/-- What is asked of a field, with its operator: an operand by itself is asked to be equal. -/
def spelledOut : Json → Json
  | .object members => .object members
  | asked => .object [("op", .string "eq"), ("value", asked)]

/-- A member of an object of filters, with its operator. -/
def spelledOutMember (member : String × Json) : String × Json :=
  (member.1, spelledOut member.2)

/-- The entries of a field stand together: between two of them there is none of another field. -/
def Together (entries : List Entry) : Prop :=
  ∀ first between last : Entry, [first, between, last].Sublist entries →
    first.field = last.field → between.field = first.field

/-- The tokens of a field are distinct. -/
def DistinctTokens (entries : List Entry) : Prop :=
  entries.Pairwise fun first second => first.field = second.field → first.token ≠ second.token

/-- Two filter parameters from which the same is read: the same predicates in the same order, and
the same faults in the same order. -/
def Alike (schema : Schema) (given given' : Json) : Prop :=
  ∀ request request' : Request, request.get? schema.params.filter = some given →
    request'.get? schema.params.filter = some given' → read schema request = read schema request'

/-! ### Writing an object entry by entry -/

/-- The entries that a record of fields stands for, in order. -/
def entriesOf (fields : Entries (Entries Json)) : List Entry :=
  fields.flatMap fun (field, members) => members.map fun (token, value) => ⟨field, token, value⟩

/-- A record of fields stands for these entries; every field stands there once, and not without an
operator. -/
structure LaidOut (fields : Entries (Entries Json)) (entries : List Entry) : Prop where
  entries_eq : entriesOf fields = entries
  nodup : fields.keys.Nodup
  nonempty : ∀ {field : String} {members : Entries Json}, (field, members) ∈ fields → members ≠ []

/-- Fields one after the other have their entries one after the other. -/
theorem entriesOf_append (fields more : Entries (Entries Json)) :
    entriesOf (fields ++ more) = entriesOf fields ++ entriesOf more :=
  List.flatMap_append

/-- A field has one entry for each operator. -/
theorem entriesOf_singleton (field : String) (members : Entries Json) :
    entriesOf [(field, members)] = members.map fun (token, value) => ⟨field, token, value⟩ :=
  List.flatMap_singleton _ _

/-- A new field is laid out at the end. -/
theorem LaidOut.addMember_of_notMem {fields : Entries (Entries Json)} {entries : List Entry}
    (h : LaidOut fields entries) {entry : Entry} (hfresh : entry.field ∉ fields.keys) :
    LaidOut (addMember fields entry) (entries ++ [entry]) := by
  have hadd : addMember fields entry
      = fields ++ [(entry.field, [(entry.token, entry.value)])] := by
    rw [addMember, Entries.get?_of_notMem hfresh, Entries.put_of_notMem hfresh]
    rfl
  rw [hadd]
  refine ⟨?_, ?_, fun hmem => ?_⟩
  · rw [entriesOf_append, h.entries_eq, entriesOf_singleton]
    rfl
  · rw [← Entries.put_of_notMem hfresh]
    exact Entries.nodup_keys_put h.nodup _ _
  · rcases List.mem_append.mp hmem with hmem | hmem
    · exact h.nonempty hmem
    · obtain ⟨-, rfl⟩ := Prod.mk.inj (List.mem_singleton.mp hmem)
      exact List.cons_ne_nil _ _

/-- One more operator of the last field is laid out at the end. -/
theorem LaidOut.addMember_last {fields : Entries (Entries Json)} {members : Entries Json}
    {entries : List Entry} {entry : Entry}
    (h : LaidOut (fields ++ [(entry.field, members)]) entries)
    (hfresh : entry.token ∉ members.keys) :
    LaidOut (addMember (fields ++ [(entry.field, members)]) entry) (entries ++ [entry]) := by
  have hlast : entry.field ∉ fields.keys := by
    have hnodup := h.nodup
    rw [Entries.keys, List.map_append, List.nodup_append] at hnodup
    exact fun hmem => hnodup.2.2 _ hmem _ (by simp) rfl
  have hadd : addMember (fields ++ [(entry.field, members)]) entry
      = fields ++ [(entry.field, members ++ [(entry.token, entry.value)])] := by
    rw [addMember, Entries.get?_append_last hlast, Entries.put_append_last hlast,
      Option.getD_some, Entries.put_of_notMem hfresh]
  rw [hadd]
  refine ⟨?_, ?_, fun hmem => ?_⟩
  · rw [← h.entries_eq, entriesOf_append, entriesOf_append, entriesOf_singleton,
      entriesOf_singleton, List.map_append, List.append_assoc]
    rfl
  · have hkeys : Entries.keys (fields ++ [(entry.field, members ++ [(entry.token, entry.value)])])
        = Entries.keys (fields ++ [(entry.field, members)]) := by
      simp [Entries.keys]
    rw [hkeys]
    exact h.nodup
  · rcases List.mem_append.mp hmem with hmem | hmem
    · exact h.nonempty (List.mem_append_left _ hmem)
    · obtain ⟨-, rfl⟩ := Prod.mk.inj (List.mem_singleton.mp hmem)
      simp

/-- A field that occurs and has one more entry is the last one, if its entries stand together. -/
theorem LaidOut.field_eq_last {fields : Entries (Entries Json)} {field : String}
    {members : Entries Json} {entries : List Entry} {entry : Entry}
    (h : LaidOut (fields ++ [(field, members)]) entries)
    (htogether : Together (entries ++ [entry]))
    (hfield : entry.field ∈ Entries.keys (fields ++ [(field, members)])) : field = entry.field := by
  rw [Entries.keys, List.map_append, List.mem_append] at hfield
  rcases hfield with hfield | hfield
  · obtain ⟨⟨_, first⟩, hmem, hfirst⟩ := List.mem_map.mp hfield
    obtain ⟨a, as, rfl⟩ :=
      List.exists_cons_of_ne_nil (h.nonempty (List.mem_append_left _ hmem))
    obtain ⟨b, bs, rfl⟩ :=
      List.exists_cons_of_ne_nil (h.nonempty (List.mem_append_right _ List.mem_cons_self))
    have hbefore : [⟨entry.field, a.1, a.2⟩].Sublist (entriesOf fields) :=
      List.singleton_sublist.mpr (List.mem_flatMap.mpr
        ⟨_, hmem, List.mem_map.mpr ⟨a, List.mem_cons_self, by rw [← hfirst]⟩⟩)
    have hlast : [⟨field, b.1, b.2⟩].Sublist (entriesOf [(field, b :: bs)]) :=
      List.singleton_sublist.mpr (by simp [entriesOf_singleton])
    have hsub : [⟨entry.field, a.1, a.2⟩, ⟨field, b.1, b.2⟩, entry].Sublist
        (entries ++ [entry]) := by
      rw [← h.entries_eq, entriesOf_append]
      exact (hbefore.append hlast).append (List.Sublist.refl [entry])
    exact htogether _ _ _ hsub rfl
  · exact (List.mem_singleton.mp hfield).symm

/-- **One more entry is laid out at the end.** -/
theorem LaidOut.addMember {fields : Entries (Entries Json)} {entries : List Entry} {entry : Entry}
    (h : LaidOut fields entries) (htogether : Together (entries ++ [entry]))
    (hdistinct : ∀ other ∈ entries, other.field = entry.field → other.token ≠ entry.token) :
    LaidOut (addMember fields entry) (entries ++ [entry]) := by
  by_cases hfield : entry.field ∈ fields.keys
  · rcases List.eq_nil_or_concat' fields with rfl | ⟨init, ⟨field, members⟩, rfl⟩
    · cases hfield
    obtain rfl := h.field_eq_last htogether hfield
    refine h.addMember_last fun htoken => ?_
    obtain ⟨⟨_, value⟩, hmem, rfl⟩ := List.mem_map.mp htoken
    refine hdistinct ⟨entry.field, _, value⟩ ?_ rfl rfl
    rw [← h.entries_eq, entriesOf_append, entriesOf_singleton]
    exact List.mem_append_right _ (List.mem_map.mpr ⟨_, hmem, rfl⟩)
  · exact h.addMember_of_notMem hfield

/-- **The form by operators stands for its entries**, in order. -/
theorem laidOut_keyedFields {entries : List Entry} (htogether : Together entries)
    (hdistinct : DistinctTokens entries) : LaidOut (keyedFields entries) entries := by
  induction entries using List.reverseRecOn with
  | nil => exact ⟨rfl, List.nodup_nil, fun hmem => nomatch hmem⟩
  | append_singleton entries entry ih =>
      rw [DistinctTokens, List.pairwise_append] at hdistinct
      have hbefore : LaidOut (keyedFields entries) entries :=
        ih (fun a b c hsub => htogether a b c (hsub.trans (List.sublist_append_left _ _)))
          hdistinct.1
      rw [keyedFields, List.foldl_append]
      exact hbefore.addMember htogether fun other hother =>
        hdistinct.2.2 other hother entry List.mem_cons_self

/-! ### What is read from the forms -/

/-- The outcome of an entry. -/
def Entry.outcome (schema : Schema) (entry : Entry) : Outcome :=
  entryOutcome schema entry.field entry.token (some entry.value)

variable {schema : Schema} {key : String}

/-- Parameters with the same outcomes are alike. -/
theorem alike_of_outcomes {given given' : Json}
    (h : outcomes schema schema.params.filter (some given)
      = outcomes schema schema.params.filter (some given')) : Alike schema given given' := by
  intro request request' hgiven hgiven'
  rw [read_eq_collect hgiven, read_eq_collect hgiven', h]

/-- The tag of a tagged entry is its token. -/
theorem tag?_tagged (hkey : key = "op" ∨ key = "operator") (token : String) (value : Json) :
    tag? [(key, .string token), ("value", value)] = some (.string token) := by
  rcases hkey with rfl | rfl <;> simp [tag?, Entries.get?]

/-- The value of a tagged entry is its value. -/
theorem value_tagged (hkey : key = "op" ∨ key = "operator") (token : String) (value : Json) :
    Entries.get? [(key, .string token), ("value", value)] "value" = some value := by
  rcases hkey with rfl | rfl <;> simp [Entries.get?]

/-- A tagged form is the entry that it is of. -/
theorem fieldOutcomes_entry (schema : Schema) (hkey : key = "op" ∨ key = "operator")
    (entry : Entry) :
    fieldOutcomes schema entry.field (entry.tagged key) = [entry.outcome schema] := by
  rw [Entry.tagged, fieldOutcomes_tagged schema _ (tag?_tagged hkey _ _), taggedOutcome_string,
    value_tagged hkey, Entry.outcome]

/-- An entry of the list form is the entry that it is of. -/
theorem listOutcome_entry (schema : Schema) (param : String)
    (hkey : key = "op" ∨ key = "operator") (entry : Entry) :
    listOutcome schema param (entry.listed key) = entry.outcome schema := by
  rcases hkey with rfl | rfl <;>
    simp [Entry.listed, listOutcome, tag?, Entries.get?, taggedOutcome, Entry.outcome]

/-- The list form has the outcomes of its entries, in order. -/
theorem outcomes_listForm (schema : Schema) (param : String)
    (hkey : key = "op" ∨ key = "operator") (entries : List Entry) :
    outcomes schema param (some (listForm key entries))
      = entries.map (Entry.outcome schema) := by
  rw [listForm, outcomes, List.map_map]
  exact List.map_congr_left fun entry _ => listOutcome_entry schema param hkey entry

/-- Members that are not named like a tag have no tag. -/
theorem tag?_eq_none {members : Entries Json}
    (h : ∀ token ∈ members.keys, token ≠ "op" ∧ token ≠ "operator") : tag? members = none := by
  rw [tag?, Entries.get?_of_notMem fun hop => (h _ hop).1 rfl,
    Entries.get?_of_notMem fun hoperator => (h _ hoperator).2 rfl]
  rfl

/-- Fields with their operands by operators have the outcomes of the entries that they stand
for. -/
theorem outcomes_fields (schema : Schema) (param : String) {fields : Entries (Entries Json)}
    (h : ∀ entry ∈ entriesOf fields, entry.token ≠ "op" ∧ entry.token ≠ "operator") :
    outcomes schema param (some (fieldsObject fields))
      = (entriesOf fields).map (Entry.outcome schema) := by
  rw [fieldsObject, outcomes, List.flatMap_map, entriesOf, List.map_flatMap]
  refine List.flatMap_congr ?_
  rintro ⟨field, members⟩ hmem
  have htag : tag? members = none := tag?_eq_none fun token htoken => by
    obtain ⟨⟨_, value⟩, hvalue, rfl⟩ := List.mem_map.mp htoken
    exact h ⟨field, _, value⟩
      (List.mem_flatMap.mpr ⟨_, hmem, List.mem_map.mpr ⟨_, hvalue, rfl⟩⟩)
  change fieldOutcomes schema field (.object members) = _
  rw [fieldOutcomes_untagged schema field htag, List.map_map]
  rfl

/-- When no field comes twice, the tagged form has its entries in order. -/
theorem outcomes_taggedForm (schema : Schema) (param : String)
    (hkey : key = "op" ∨ key = "operator") {entries : List Entry}
    (h : (entries.map Entry.field).Nodup) :
    outcomes schema param (some (taggedForm key entries))
      = entries.map (Entry.outcome schema) := by
  have hkeys : Entries.keys (entries.map fun entry => (entry.field, entry.tagged key))
      = entries.map Entry.field := by
    rw [Entries.keys, List.map_map]
    rfl
  rw [taggedForm, Entries.ofWrites_of_nodup (hkeys ▸ h), outcomes, List.flatMap_map]
  calc entries.flatMap (fun entry => fieldOutcomes schema entry.field (entry.tagged key))
      = entries.flatMap (fun entry => [entry.outcome schema]) :=
        List.flatMap_congr fun entry _ => fieldOutcomes_entry schema hkey entry
    _ = entries.map (Entry.outcome schema) := List.map_eq_flatMap.symm

/-- An operand by itself is short for a tagged form. -/
theorem fieldOutcomes_spelledOut (schema : Schema) (field : String) (asked : Json) :
    fieldOutcomes schema field (spelledOut asked) = fieldOutcomes schema field asked := by
  cases asked with
  | object members => rfl
  | _ => exact fieldOutcomes_entry schema (Or.inl rfl) ⟨field, "eq", _⟩

/-- **The forms of a filter agree.** The list form and the form by operators, if the entries of a
field stand together and their tokens are distinct and no names of tags. The list form and the
tagged form, if no field comes twice, whatever the tokens. And an object with the same object in
which operands by themselves are spelled out. What is read from the list form, and so from the
others, is the verdicts on its entries, in order. -/
theorem forms_agree (schema : Schema) {key : String} (hkey : key = "op" ∨ key = "operator") :
    (∀ entries, Together entries → DistinctTokens entries →
      (∀ entry ∈ entries, entry.token ≠ "op" ∧ entry.token ≠ "operator") →
      Alike schema (listForm key entries) (keyedForm entries)) ∧
    (∀ entries : List Entry, (entries.map Entry.field).Nodup →
      Alike schema (listForm key entries) (taggedForm key entries)) ∧
    (∀ fields : List (String × Json),
      Alike schema (.object fields) (.object (fields.map spelledOutMember))) ∧
    ∀ entries : List Entry, ∃ readings,
      readGiven schema (listForm key entries) = concat readings ∧
      List.Forall₂ (fun entry r => Verdict schema entry.field entry.token (some entry.value) r)
        entries readings := by
  refine ⟨fun entries htogether hdistinct htokens => alike_of_outcomes ?_,
    fun entries hnodup => alike_of_outcomes ?_, fun fields => alike_of_outcomes ?_,
    fun entries => ?_⟩
  · have hentries := (laidOut_keyedFields htogether hdistinct).entries_eq
    rw [outcomes_listForm schema _ hkey, keyedForm, outcomes_fields, hentries]
    rwa [hentries]
  · rw [outcomes_listForm schema _ hkey, outcomes_taggedForm schema _ hkey hnodup]
  · rw [outcomes, outcomes, List.flatMap_map]
    exact List.flatMap_congr fun member _ =>
      (fieldOutcomes_spelledOut schema member.1 member.2).symm
  · rw [readGiven_eq, outcomes_listForm schema _ hkey]
    exact verdicts_iff.mp rfl

/-- Entries of two fields that stand together: one with a list for an operand, one with a text for
an integer, and one on a field that cannot be filtered by. -/
def sampleEntries : List Entry :=
  [⟨"age", "in", .array [.number (.integer 18), .null]⟩, ⟨"age", "<", .string "65"⟩,
    ⟨"alias", "Equals", .null⟩]

/-- An entry whose token is the name of a tag, and one with an operator. -/
def oncePerField : List Entry :=
  [⟨"age", "op", .string "gte"⟩, ⟨"name", "eq", .array []⟩]

/-- The forms of the sample entries agree, and what is read from them is a predicate between two
faults. -/
theorem forms_agree_sample :
    ∃ schema, Schema.ofDefinition Sample.minimal = .ok schema ∧
      Alike schema (listForm "operator" sampleEntries) (keyedForm sampleEntries) ∧
      Alike schema (listForm "op" oncePerField) (taggedForm "op" oncePerField) ∧
      readGiven schema (keyedForm sampleEntries)
        = ⟨[⟨"age", .lt, .scalar (.string "65")⟩],
            [(FilterCause.notAScalar .null).fault "age",
              (FilterCause.notFilterable "alias").fault "alias"]⟩ := by
  refine ⟨_, rfl, (forms_agree _ (Or.inr rfl)).1 sampleEntries ?_ ?_ ?_,
    (forms_agree _ (Or.inl rfl)).2.1 oncePerField ?_, rfl⟩
  · intro first between last hsub hfield
    obtain ⟨rfl, rfl, rfl⟩ : first = _ ∧ between = _ ∧ last = _ := by
      simpa [sampleEntries] using hsub.eq_of_length rfl
    exact absurd hfield (by decide)
  · unfold DistinctTokens
    decide
  · decide
  · decide

end Filter

end ResourceQuery
