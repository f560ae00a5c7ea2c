import ResourceQuery.Proofs.Parameters
import ResourceQuery.Proofs.Respelling
import ResourceQuery.Proofs.Schema.Building

/-!
# What a search parameter asks for

A search parameter is a text, or an object with a value and perhaps a target, which stands under one
of two names. The value may be an integer or a truth value in place of its text. What a parameter
asks for is said here form by form (`SearchTerm.Asks`), and the reader depends on nothing else: all
forms are read as the search for the text of the value in the target that is named, or in none
(`SearchTerm.read_of_asks`). So two parameters that ask for the same are read alike.

Which search there is, if there is one, is said by the definition of the resource alone
(`SearchTerm.Finds`). A target is sought by its name without outer blanks, or else the default one
is, and it is found if it is declared. It stands for the named set of fields in the order of its
declaration, or for the search field of its name. A blank value asks for no search, and its target
is not even sought.

## Main definitions

* `SearchDeclaration.Declares`: a target of a search section, with its fields.
* `SearchTerm.Seeks`, `SearchTerm.Finds`: the target that is sought, and whether it is declared.
* `SearchTerm.Asks`: the target and the text that a parameter asks for.
* `SearchTerm.Resolves`: what is read, by what was asked for.

## Main statements

* `SearchTerm.read_of_asks`: what is read from a parameter that asks for a value.
* `SearchTerm.resolves_resolve`: which search, which fault or which silence there is.
* `SearchTerm.resolves_as_asked`: the forms are read alike, and a search is there exactly when its
  target is declared.
-/

namespace ResourceQuery

/-- A target of a search section, with the fields that it stands for: a named set of fields, or a
search field by itself, unless a named set has taken its name. -/
inductive SearchDeclaration.Declares (search : SearchDeclaration) : String → List String → Prop
  | composite {target : String} {fields : List String} :
      search.targets.get? target = some fields → Declares search target fields
  | field {field : String} : field ∈ search.fields → search.targets.get? field = none →
      Declares search field [field]

namespace SearchTerm

/-- The target that is sought: the one that is named, without outer blanks, or the default one when
the name is blank or there is none. -/
inductive Seeks (search : SearchDeclaration) : Option String → String → Prop
  | named {name : String} : Text.isBlankText name = false → Seeks search (some name)
      (Text.trimmed name)
  | blank {name target : String} : Text.isBlankText name = true →
      search.defaultTarget = some target → Seeks search (some name) target
  | missing {target : String} : search.defaultTarget = some target → Seeks search none target

/-- The target that is sought is declared, and stands for these fields. -/
def Finds (d : Definition) (named : Option String) (target : String) (fields : List String) :
    Prop :=
  ∃ search, d.search = some search ∧ Seeks search named target ∧ search.Declares target fields

/-- The target that a search parameter names, and the text that it asks for: that of a string, an
integer or a truth value. -/
inductive Asks : Json → Option String → String → Prop
  | text (value : String) : Asks (.string value) none value
  | object {members : Entries Json} {given : Json} {value : String} :
      members.get? "value" = some given → Json.Respelled (fun _ => True) given (.string value) →
      (∀ target ∈ targetMember? members, target = .null) → Asks (.object members) none value
  | targeted {members : Entries Json} {given : Json} {target value : String} :
      members.get? "value" = some given → Json.Respelled (fun _ => True) given (.string value) →
      targetMember? members = some (.string target) →
      Asks (.object members) (some target) value

/-- Two search parameters from which the same is read: the same search, and the same faults. -/
def Alike (schema : Schema) (given given' : Json) : Prop :=
  ∀ request request' : Request, request.get? schema.params.search = some given →
    request'.get? schema.params.search = some given' → read schema request = read schema request'

/-- What is read, by what was asked for: nothing when the value is blank, a search for the value as
it was given when the target is found, and else one fault. -/
inductive Resolves (d : Definition) (named : Option String) (value : String) :
    Reading (Option SearchTerm) → Prop
  | blank : Text.isBlankText value = true → Resolves d named value (.clean none)
  | found {target : String} {fields : List String} : Text.isBlankText value = false →
      Finds d named target fields → Resolves d named value (.clean (some ⟨target, fields, value⟩))
  | refused {fault : Fault} : Text.isBlankText value = false →
      (∀ target fields, ¬Finds d named target fields) → Resolves d named value (refused fault)

/-! ### The forms of a parameter -/

/-- A string, an integer or a truth value is searched for as its text. -/
theorem ofValueMember_of_respelled (schema : Schema) (named : Option String) {given : Json}
    {value : String} (h : Json.Respelled (fun _ => True) given (.string value)) :
    ofValueMember schema named (some given) = resolve schema named value := by
  cases h with
  | same => rfl
  | boolean b => cases b <;> rfl
  | integer _ => rfl

/-- A parameter that is an object is read as one. -/
theorem read_object {schema : Schema} {request : Request} {members : Entries Json}
    (h : request.get? schema.params.search = some (.object members)) :
    read schema request = ofObject schema members := by
  rw [read, h]

/-- **A parameter is read as what it asks for**, in whatever form. -/
theorem read_of_asks {schema : Schema} {request : Request} {given : Json} {named : Option String}
    {value : String} (hgiven : request.get? schema.params.search = some given)
    (h : Asks given named value) : read schema request = resolve schema named value := by
  cases h with
  | text =>
      rw [read, hgiven]
  | object hvalue hspelled hnull =>
      rw [read_object hgiven, ofObject, hvalue]
      cases htarget : targetMember? _ with
      | none => exact ofValueMember_of_respelled schema none hspelled
      | some target =>
          rw [hnull target htarget]
          exact ofValueMember_of_respelled schema none hspelled
  | targeted hvalue hspelled htarget =>
      rw [read_object hgiven, ofObject, hvalue, htarget]
      exact ofValueMember_of_respelled schema _ hspelled

/-- Parameters that ask for the same are read alike. -/
theorem Asks.alike {schema : Schema} {given given' : Json} {named : Option String}
    {value : String} (h : Asks given named value) (h' : Asks given' named value) :
    Alike schema given given' :=
  fun _ _ hgiven hgiven' => (read_of_asks hgiven h).trans (read_of_asks hgiven' h').symm

/-- The default target may be named, if its name has no outer blanks. -/
theorem resolve_defaultTarget {schema : Schema} {target : String}
    (hdefault : schema.defaultTarget = some target) (hblank : Text.isBlankText target = false)
    (htrimmed : Text.trimmed target = target) (value : String) :
    resolve schema (some target) value = resolve schema none value := by
  have htarget : targetOf? schema (some target) = targetOf? schema none := by
    rw [targetOf?_some, if_neg (by simp [hblank]), htrimmed, ← hdefault]
    rfl
  rw [resolve, resolve, htarget]

/-- The target of an object may stand under its other name. -/
theorem alike_renamed (schema : Schema) {members : Entries Json}
    (h : "condition" ∉ members.keys) :
    Alike schema (.object members) (.object (members.renamed "target" "condition")) := by
  intro request request' hgiven hgiven'
  have htarget : targetMember? (members.renamed "target" "condition") = targetMember? members := by
    rw [targetMember?, targetMember?, members.get?_renamed_old (by decide),
      Entries.get?_renamed_new h, Entries.get?_of_notMem h]
    simp
  rw [read_object hgiven, read_object hgiven', ofObject, ofObject, htarget,
    members.get?_renamed_of_ne (by decide) (by decide)]

/-- The value of an object may be its text. -/
theorem alike_put_value (schema : Schema) {members : Entries Json} {given : Json} {value : String}
    (hvalue : members.get? "value" = some given)
    (h : Json.Respelled (fun _ => True) given (.string value)) :
    Alike schema (.object members) (.object (members.put "value" (.string value))) := by
  intro request request' hgiven hgiven'
  have htarget : targetMember? (members.put "value" (.string value)) = targetMember? members := by
    rw [targetMember?, targetMember?, Entries.get?_put, Entries.get?_put, if_neg (by decide),
      if_neg (by decide)]
  have hmember : ∀ named, ofValueMember schema named (some given)
      = ofValueMember schema named (some (.string value)) := fun named =>
    ofValueMember_of_respelled schema named h
  rw [read_object hgiven, read_object hgiven', ofObject, ofObject, htarget, hvalue,
    Entries.get?_put, if_pos rfl]
  simp only [hmember]

/-! ### The target that is found -/

section Built

variable {d : Definition} {schema : Schema} {search : SearchDeclaration} {named : Option String}

/-- The default target of a schema is the declared one. -/
theorem defaultTarget_of_ofDefinition (h : Schema.ofDefinition d = .ok schema)
    (hsearch : d.search = some search) : schema.defaultTarget = search.defaultTarget := by
  rw [Schema.defaultTarget, (Schema.rules_of_ofDefinition h).2.2.2, hsearch]
  rfl

/-- The target of a search is the one that is sought. -/
theorem targetOf?_eq_some_iff (h : Schema.ofDefinition d = .ok schema)
    (hsearch : d.search = some search) {target : String} :
    targetOf? schema named = some target ↔ Seeks search named target := by
  have hdefault := defaultTarget_of_ofDefinition h hsearch
  cases named with
  | none =>
      have hnone : targetOf? schema none = search.defaultTarget := hdefault
      rw [hnone]
      refine ⟨fun hdefault => .missing hdefault, fun hseeks => ?_⟩
      cases hseeks with
      | missing hdefault => exact hdefault
  | some name =>
      rw [targetOf?_some, hdefault]
      split
      · next hblank =>
          refine ⟨fun h => .blank hblank h, fun hseeks => ?_⟩
          cases hseeks with
          | named hnamed => simp [hblank] at hnamed
          | blank _ hdefault => exact hdefault
      · next hblank =>
          refine ⟨fun heq => Option.some.inj heq ▸ .named (by simpa using hblank),
            fun hseeks => ?_⟩
          cases hseeks with
          | named _ => rfl
          | blank hnamed _ => exact absurd hnamed hblank

/-- The fields of a target are those that it is declared with. -/
theorem searchTarget?_eq_some_iff (h : Schema.ofDefinition d = .ok schema)
    (hsearch : d.search = some search) {target : String} {fields : List String} :
    schema.searchTarget? target = some fields ↔ search.Declares target fields := by
  rw [Schema.searchTarget?_of_ofDefinition h, hsearch, Option.bind_some]
  cases hset : search.targets.get? target with
  | none =>
      rw [Option.none_or, Option.ite_none_right_eq_some, Option.some.injEq]
      constructor
      · rintro ⟨hmem, rfl⟩
        exact .field hmem hset
      · intro hdeclares
        cases hdeclares with
        | composite hget => simp [hset] at hget
        | field hmem _ => exact ⟨hmem, rfl⟩
  | some set =>
      rw [Option.some_or, Option.some.injEq]
      refine ⟨fun heq => heq ▸ .composite hset, fun hdeclares => ?_⟩
      cases hdeclares with
      | composite hget => exact Option.some.inj (hset.symm.trans hget)
      | field _ hnone => simp [hset] at hnone

/-- **A target is found exactly when it is the target of the search and has fields.** -/
theorem finds_iff (h : Schema.ofDefinition d = .ok schema) {target : String}
    {fields : List String} :
    Finds d named target fields ↔
      targetOf? schema named = some target ∧ schema.searchTarget? target = some fields := by
  constructor
  · rintro ⟨search, hsearch, hseeks, hdeclares⟩
    exact ⟨(targetOf?_eq_some_iff h hsearch).mpr hseeks,
      (searchTarget?_eq_some_iff h hsearch).mpr hdeclares⟩
  · rintro ⟨htarget, hfields⟩
    obtain ⟨search, hsearch, -⟩ := (Schema.realises_of_ofDefinition h).declaredTarget _ _ hfields
    exact ⟨search, hsearch, (targetOf?_eq_some_iff h hsearch).mp htarget,
      (searchTarget?_eq_some_iff h hsearch).mp hfields⟩

/-- **Which search, which fault or which silence there is.** -/
theorem resolves_resolve (h : Schema.ofDefinition d = .ok schema) (named : Option String)
    (value : String) : Resolves d named value (resolve schema named value) := by
  unfold resolve
  split
  · next hblank => exact .blank hblank
  · next hblank =>
      have hblank : Text.isBlankText value = false := by simpa using hblank
      split
      · next hnone =>
          refine .refused hblank fun target fields hfinds => ?_
          have htarget := ((finds_iff h).mp hfinds).1
          simp [hnone] at htarget
      · next target htarget =>
          split
          · next fields hfields => exact .found hblank ((finds_iff h).mpr ⟨htarget, hfields⟩)
          · next hnone =>
              refine .refused hblank fun target' fields hfinds => ?_
              obtain ⟨htarget', hfields⟩ := (finds_iff h).mp hfinds
              obtain rfl := Option.some.inj (htarget.symm.trans htarget')
              simp [hnone] at hfields

/-- There is one target to be found, with one list of fields. -/
theorem Finds.unique (h : Schema.ofDefinition d = .ok schema) {target target' : String}
    {fields fields' : List String} (hfinds : Finds d named target fields)
    (hfinds' : Finds d named target' fields') : target = target' ∧ fields = fields' := by
  obtain ⟨htarget, hfields⟩ := (finds_iff h).mp hfinds
  obtain ⟨htarget', hfields'⟩ := (finds_iff h).mp hfinds'
  obtain rfl := Option.some.inj (htarget.symm.trans htarget')
  exact ⟨rfl, Option.some.inj (hfields.symm.trans hfields')⟩

variable {value : String} {reading : Reading (Option SearchTerm)}

/-- A search is for the value, in the target that is found. -/
theorem Resolves.output_eq_some_iff (h : Schema.ofDefinition d = .ok schema)
    (hresolves : Resolves d named value reading) {term : SearchTerm} :
    reading.output = some term ↔ Text.isBlankText value = false ∧
      ∃ target fields, Finds d named target fields ∧ term = ⟨target, fields, value⟩ := by
  cases hresolves with
  | blank hblank =>
      refine ⟨nofun, ?_⟩
      rintro ⟨hvalue, -⟩
      simp [hblank] at hvalue
  | found hblank hfinds =>
      constructor
      · intro hterm
        exact ⟨hblank, _, _, hfinds, (Option.some.inj hterm).symm⟩
      · rintro ⟨-, target, fields, hfinds', rfl⟩
        obtain ⟨rfl, rfl⟩ := hfinds.unique h hfinds'
        rfl
  | refused _ hnone =>
      refine ⟨nofun, ?_⟩
      rintro ⟨-, target, fields, hfinds, -⟩
      exact absurd hfinds (hnone target fields)

/-- A target that is not found is a fault, if there is something to search for. -/
theorem Resolves.refused_of_not_finds (hresolves : Resolves d named value reading)
    (hvalue : Text.isBlankText value = false)
    (hnone : ∀ target fields, ¬Finds d named target fields) :
    ∃ fault, reading = SearchTerm.refused fault := by
  cases hresolves with
  | blank hblank => simp [hblank] at hvalue
  | found _ hfinds => exact absurd hfinds (hnone _ _)
  | refused _ _ => exact ⟨_, rfl⟩

/-- A blank value is neither searched for nor a fault. -/
theorem Resolves.clean_of_isBlank (hresolves : Resolves d named value reading)
    (hvalue : Text.isBlankText value = true) : reading = .clean none := by
  cases hresolves with
  | blank _ => rfl
  | found hblank _ => simp [hblank] at hvalue
  | refused hblank _ => simp [hblank] at hvalue

end Built

/-- **The forms of a search parameter are read alike, and a search is there exactly when its target
is declared.** A parameter has one fault at most, and then no search. A text by itself is read like
an object with it as the value, also when the default target is named; the target may stand under
its other name, and an integer or a truth value may stand in place of its text. What asks for a
value that is not blank is read as the search in the target that is found, with its fields as they
are declared and the value as it was given, or as one fault when no target is found. What asks for a
blank value is read as nothing, whatever target it names. -/
theorem resolves_as_asked {d : Definition} {schema : Schema}
    (h : Schema.ofDefinition d = .ok schema) :
    (∀ request : Request, (read schema request).faults = [] ∨
      ∃ fault, read schema request = refused fault) ∧
    (∀ value, Alike schema (.string value) (.object [("value", .string value)])) ∧
    (∀ value target, schema.defaultTarget = some target → Text.isBlankText target = false →
      Text.trimmed target = target → Alike schema (.string value)
        (.object [("target", .string target), ("value", .string value)])) ∧
    (∀ members : Entries Json, "condition" ∉ members.keys →
      Alike schema (.object members) (.object (members.renamed "target" "condition"))) ∧
    (∀ (members : Entries Json) (given : Json) (value : String),
      members.get? "value" = some given →
      Json.Respelled (fun _ => True) given (.string value) →
      Alike schema (.object members) (.object (members.put "value" (.string value)))) ∧
    ∀ request given named value, request.get? schema.params.search = some given →
      Asks given named value →
      (∀ term, (read schema request).output = some term ↔ Text.isBlankText value = false ∧
        ∃ target fields, Finds d named target fields ∧ term = ⟨target, fields, value⟩) ∧
      (Text.isBlankText value = false → (∀ target fields, ¬Finds d named target fields) →
        ∃ fault, read schema request = refused fault) ∧
      (Text.isBlankText value = true → read schema request = .clean none) := by
  refine ⟨fun request => ?_, fun value => ?_, fun value target hdefault hblank htrimmed => ?_,
    fun members hmembers => alike_renamed schema hmembers,
    fun members given value hvalue hspelled => alike_put_value schema hvalue hspelled,
    fun request given named value hgiven hasks => ?_⟩
  · have hpossible := possible_read schema request
    generalize read schema request = reading at hpossible
    cases hpossible with
    | refused fault => exact Or.inr ⟨fault, rfl⟩
    | absent => exact Or.inl rfl
    | found _ _ _ => exact Or.inl rfl
  · exact (Asks.text value).alike (.object rfl (.same _) (by simp [targetMember?, Entries.get?]))
  · intro request request' hgiven hgiven'
    rw [read_of_asks hgiven (.text value), read_of_asks hgiven' (.targeted rfl (.same _) rfl),
      resolve_defaultTarget hdefault hblank htrimmed]
  · rw [read_of_asks hgiven hasks]
    have hresolves := resolves_resolve h named value
    exact ⟨fun term => hresolves.output_eq_some_iff h, hresolves.refused_of_not_finds,
      hresolves.clean_of_isBlank⟩

/-- A request with this search parameter only. -/
def searching (given : Json) : Request :=
  ⟨[("search", given)]⟩

/-- A search for an integer, in a target that has other blanks around it and stands under its other
name. -/
def numeric : Entries Json :=
  [("value", .number (.integer 42)), ("target", .string " name ")]

/-- The named set of fields is searched for the digits of the integer, and not the field of its
name. The default target may be left out. A blank value in a target that there is not is no fault,
while another value is one. -/
theorem resolves_as_asked_wares :
    ∃ schema, Schema.ofDefinition Schema.wares = .ok schema ∧
      (read schema (searching (.object numeric))).output
        = some ⟨"name", ["name", "title"], "42"⟩ ∧
      Alike schema (.object numeric) (.object (numeric.renamed "target" "condition")) ∧
      Alike schema (.object numeric) (.object (numeric.put "value" (.string "42"))) ∧
      Alike schema (.string " 7 ")
        (.object [("target", .string "tags"), ("value", .string " 7 ")]) ∧
      read schema (searching (.object [("target", .string "size"), ("value", .string " ")]))
        = .clean none ∧
      ∃ fault, read schema (searching (.object [("target", .string "size"), ("value", .bool true)]))
        = refused fault := by
  obtain ⟨schema, hbuilt, hparam, hdefault⟩ : ∃ schema,
      Schema.ofDefinition Schema.wares = .ok schema ∧ schema.params.search = "search" ∧
        schema.defaultTarget = some "tags" := ⟨_, rfl, rfl, rfl⟩
  have hgiven : ∀ given, (searching given).get? schema.params.search = some given := by
    rw [hparam]
    exact fun given => rfl
  have hdigits : Json.Respelled (fun _ => True) (.number (.integer 42)) (.string "42") := by
    have htext : Text.integerText 42 = "42".toList := by
      simp [Text.integerText, Text.digits, Text.digitChar]
    rw [← String.ofList_toList (s := "42"), ← htext]
    exact .integer trivial
  have htrimmed : Text.trimmed " name " = "name" := by decide
  have hfinds : Finds Schema.wares (some " name ") "name" ["name", "title"] :=
    ⟨_, rfl, htrimmed ▸ .named (by decide), .composite rfl⟩
  have hlost : ∀ target fields, ¬Finds Schema.wares (some "size") target fields := by
    rintro target fields ⟨search, hsearch, hseeks, hdeclares⟩
    obtain rfl := Option.some.inj hsearch
    have hsize : Text.trimmed "size" = "size" := by decide
    cases hseeks with
    | named _ =>
        rw [hsize] at hdeclares
        cases hdeclares with
        | composite hget => cases hget
        | field hmem _ => simp at hmem
    | blank hblank _ => exact absurd hblank (by decide)
  obtain ⟨-, -, htagged, hrenamed, hspelled, hasked⟩ := resolves_as_asked hbuilt
  refine ⟨schema, hbuilt, ?_, hrenamed numeric (by decide), hspelled numeric _ _ rfl hdigits,
    htagged _ _ hdefault (by decide) (by decide), ?_, ?_⟩
  · exact ((hasked _ _ _ _ (hgiven _) (.targeted rfl hdigits rfl)).1 _).mpr
      ⟨by decide, _, _, hfinds, rfl⟩
  · exact (hasked _ _ _ _ (hgiven _) (.targeted rfl (.same _) rfl)).2.2 (by decide)
  · exact (hasked _ _ _ _ (hgiven _) (.targeted rfl (.boolean true) rfl)).2.1 (by decide) hlost

end SearchTerm

end ResourceQuery
