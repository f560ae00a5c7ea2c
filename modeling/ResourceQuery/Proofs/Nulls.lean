import ResourceQuery.Proofs.Independence
import ResourceQuery.Proofs.Normalization
import ResourceQuery.Proofs.Ordering
import ResourceQuery.Proofs.Searching

/-!
# Null is absence

A parameter that is null is read like one that is not there, and so is a null member of the object
that asks for an ordering or a search. To leave nulls out changes what is looked up in one way only:
where there was null there is nothing (`Json.Omits`). No reader tells these two apart, so none of
them returns anything else.

Two things set limits to this. A member that stands under either of two names is looked up under the
first one, and a null there hides what is under the second (`Entries.Hides`). And a parameter may
serve several capabilities, since nothing keeps the names of parameters apart: a null member of an
ordering is then a filter as well, and null is no operand. `Specification.null_counts` has an
example of each.

## Main definitions

* `Json.Omits`: what is looked up after nulls have been left out.
* `Entries.AllNull`, `Entries.Hides`: the members that are left out, and what they may hide.
* `Request.without`, `Request.withoutMembers`: parameters and members left out.

## Main statements

* `Specification.sameReading_of_omits`: no reader tells null from nothing.
* `SortKey.ofObject_without`, `SearchTerm.ofObject_without`: nor do the readers of members.
* `Specification.null_is_absence`: leaving nulls out changes nothing.
* `Specification.null_counts`: the two exceptions.
-/

namespace ResourceQuery

/-! ### Look-ups -/

/-- What is looked up after nulls have been left out: the same, or nothing where there was null. -/
inductive Json.Omits : Option Json → Option Json → Prop
  | kept (given : Option Json) : Omits given given
  | null : Omits (some .null) none

namespace Entries

/-- The members with these names are null, as far as there are any. -/
def AllNull (members : Entries Json) (names : List String) : Prop :=
  ∀ name ∈ names, ∀ given ∈ members.get? name, given = .null

/-- Among the names there is the first one of two, its member is null, and the member under the
second one is not. -/
def Hides (members : Entries Json) (names : List String) (first second : String) : Prop :=
  first ∈ names ∧ members.get? first = some .null ∧
    ∃ given, members.get? second = some given ∧ given ≠ .null

variable {members : Entries Json} {names : List String}

/-- Leaving out names that are all null only omits nulls. -/
theorem AllNull.omits (h : members.AllNull names) (name : String) :
    Json.Omits (members.get? name) ((members.without names).get? name) := by
  rw [get?_without]
  split
  · next hmem =>
      cases hgiven : members.get? name with
      | none => exact .kept none
      | some given =>
          rw [h name hmem given hgiven]
          exact .null
  · exact .kept _

/-- The same holds of a member with two names, unless a null under the first one hides the other. -/
theorem AllNull.omits_or (h : members.AllNull names) {first second : String}
    (hshown : ¬members.Hides names first second) :
    Json.Omits ((members.get? first).or (members.get? second))
      (((members.without names).get? first).or ((members.without names).get? second)) := by
  have hsecond := h.omits second
  cases hgiven : members.get? first with
  | none =>
      rw [get?_without, hgiven, ite_self, Option.none_or, Option.none_or]
      exact hsecond
  | some given =>
      rw [Option.some_or]
      by_cases hmem : first ∈ names
      · obtain rfl := h first hmem given hgiven
        -- nothing but null may be under the second name, so null or nothing is found
        have hnull : ∀ other ∈ members.get? second, other = .null := by
          intro other hother
          by_contra hne
          exact hshown ⟨hmem, hgiven, other, hother, hne⟩
        rw [get?_without, if_pos hmem, Option.none_or]
        generalize members.get? second = other at hsecond hnull
        generalize (members.without names).get? second = found at hsecond
        cases hsecond with
        | null => exact .null
        | kept =>
            cases other with
            | none => exact .null
            | some other =>
                rw [hnull other rfl]
                exact .kept _
      · rw [get?_without, if_neg hmem, hgiven, Option.some_or]
        exact .kept _

end Entries

/-! ### Readers of parameters -/

section Readers

variable {schema : Schema} {request request' : Request}

/-- A null for a selection is read like no parameter. -/
theorem Selection.read_of_omits
    (h : Json.Omits (request.get? schema.params.select) (request'.get? schema.params.select)) :
    read schema request' = read schema request := by
  unfold read
  generalize request.get? schema.params.select = given at h
  generalize request'.get? schema.params.select = given' at h
  cases h <;> rfl

/-- A null for filters is read like no parameter. -/
theorem Filter.read_of_omits
    (h : Json.Omits (request.get? schema.params.filter) (request'.get? schema.params.filter)) :
    read schema request' = read schema request := by
  unfold read
  dsimp only
  generalize request.get? schema.params.filter = given at h
  generalize request'.get? schema.params.filter = given' at h
  cases h <;> rfl

/-- A null for a count is read like no parameter. -/
theorem CountParam.ofValue_of_omits {given given' : Option Json} (h : Json.Omits given given') :
    ofValue given' = ofValue given := by
  cases h <;> rfl

/-- Nulls for a limit and an offset are read like no parameters. -/
theorem Window.read_of_omits
    (hlimit : Json.Omits (request.get? schema.params.limit) (request'.get? schema.params.limit))
    (hoffset :
      Json.Omits (request.get? schema.params.offset) (request'.get? schema.params.offset)) :
    read schema request' = read schema request := by
  unfold read
  dsimp only
  rw [CountParam.ofValue_of_omits hlimit, CountParam.ofValue_of_omits hoffset]

/-- A null for an ordering is read like no parameter. -/
theorem SortKey.read_of_omits
    (h : Json.Omits (request.get? schema.params.sort) (request'.get? schema.params.sort)) :
    read schema request' = read schema request := by
  unfold read
  generalize request.get? schema.params.sort = given at h
  generalize request'.get? schema.params.sort = given' at h
  cases h <;> rfl

/-- A null for a search is read like no parameter. -/
theorem SearchTerm.read_of_omits
    (h : Json.Omits (request.get? schema.params.search) (request'.get? schema.params.search)) :
    read schema request' = read schema request := by
  unfold read
  generalize request.get? schema.params.search = given at h
  generalize request'.get? schema.params.search = given' at h
  cases h <;> rfl

/-- **No reader tells null from nothing.** -/
theorem Specification.sameReading_of_omits {c : Capability}
    (h : ∀ name ∈ c.paramsOf schema.params,
      Json.Omits (request.get? name) (request'.get? name)) :
    SameReading schema schema request' request c := by
  cases c with
  | selection => exact Selection.read_of_omits (h _ (List.mem_singleton_self _))
  | filtering => exact Filter.read_of_omits (h _ (List.mem_singleton_self _))
  | pagination =>
      exact Window.read_of_omits (h _ List.mem_cons_self)
        (h _ (List.mem_cons_of_mem _ (List.mem_singleton_self _)))
  | sorting => exact SortKey.read_of_omits (h _ (List.mem_singleton_self _))
  | search => exact SearchTerm.read_of_omits (h _ (List.mem_singleton_self _))

end Readers

/-! ### Readers of members -/

section Members

variable {members : Entries Json} {names : List String}

/-- An ordering is read from the members that are left. -/
theorem SortKey.ofObject_without (schema : Schema) (h : members.AllNull names)
    (hshown : ¬members.Hides names "direction" "dir") :
    ofObject schema (members.without names) = ofObject schema members := by
  have hfield := h.omits "field"
  have hmember : ∀ field, ofDirectionMember schema field (directionMember? (members.without names))
      = ofDirectionMember schema field (directionMember? members) := by
    intro field
    have hdirection := h.omits_or hshown
    rw [← directionMember?, ← directionMember?] at hdirection
    generalize directionMember? members = given at hdirection
    generalize directionMember? (members.without names) = given' at hdirection
    cases hdirection <;> rfl
  unfold ofObject
  simp only [hmember]
  generalize members.get? "field" = given at hfield
  generalize (members.without names).get? "field" = given' at hfield
  cases hfield <;> rfl

/-- A search is read from the members that are left. -/
theorem SearchTerm.ofObject_without (schema : Schema) (h : members.AllNull names)
    (hshown : ¬members.Hides names "target" "condition") :
    ofObject schema (members.without names) = ofObject schema members := by
  have hmember : ∀ named, ofValueMember schema named ((members.without names).get? "value")
      = ofValueMember schema named (members.get? "value") := by
    intro named
    have hvalue := h.omits "value"
    generalize members.get? "value" = given at hvalue
    generalize (members.without names).get? "value" = given' at hvalue
    cases hvalue <;> rfl
  have htarget := h.omits_or hshown
  rw [← targetMember?, ← targetMember?] at htarget
  unfold ofObject
  simp only [hmember]
  generalize targetMember? members = given at htarget
  generalize targetMember? (members.without names) = given' at htarget
  cases htarget <;> rfl

end Members

/-! ### Requests -/

namespace Request

/-- The request but for the parameters with some names. -/
def without (request : Request) (names : List String) : Request :=
  ⟨Entries.without request.params names⟩

/-- The request with a parameter that has these members but for those with some names. -/
def withoutMembers (request : Request) (param : String) (members : Entries Json)
    (names : List String) : Request :=
  request.set param (.object (members.without names))

/-- Only the parameter whose members are left out changes. -/
theorem get?_withoutMembers (request : Request) (param : String) (members : Entries Json)
    (names : List String) (name : String) :
    (request.withoutMembers param members names).get? name
      = if param = name then some (.object (members.without names)) else request.get? name :=
  Entries.get?_put _ _ _ _

end Request

namespace Specification

variable {schema : Schema} {request request' : Request} {param : String} {members : Entries Json}
  {names : List String}

/-- Requests that are read alike have the same specification. -/
theorem ofRequest_eq_of_sameReading (h : ∀ c, SameReading schema schema request' request c) :
    ofRequest schema request' = ofRequest schema request :=
  ofRequest_congr (fun _ => h .selection) (fun _ => h .filtering) (fun _ => h .pagination)
    (fun _ => h .sorting) (fun _ => h .search)

/-- A reader does not see what is left out of a parameter, if this is the object that it reads as an
ordering or a search, or no parameter of its own. -/
theorem sameReading_withoutMembers (hgiven : request.get? param = some (.object members))
    (hnull : members.AllNull names)
    (hsort : param = schema.params.sort → ¬members.Hides names "direction" "dir")
    (hsearch : param = schema.params.search → ¬members.Hides names "target" "condition")
    {c : Capability} (hc : c = .sorting ∨ c = .search ∨ param ∉ c.paramsOf schema.params) :
    SameReading schema schema (request.withoutMembers param members names) request c := by
  by_cases hown : param ∈ c.paramsOf schema.params
  · have hleft : (request.withoutMembers param members names).get? param
        = some (.object (members.without names)) := by
      rw [Request.get?_withoutMembers, if_pos rfl]
    rcases hc with rfl | rfl | hnot
    · obtain rfl := List.mem_singleton.mp hown
      exact (SortKey.read_object hleft).trans
        ((SortKey.ofObject_without schema hnull (hsort rfl)).trans
          (SortKey.read_object hgiven).symm)
    · obtain rfl := List.mem_singleton.mp hown
      exact (SearchTerm.read_object hleft).trans
        ((SearchTerm.ofObject_without schema hnull (hsearch rfl)).trans
          (SearchTerm.read_object hgiven).symm)
    · exact absurd hown hnot
  · refine sameReading_of_omits fun name hname => ?_
    have hne : param ≠ name := fun heq => hown (heq ▸ hname)
    rw [Request.get?_withoutMembers, if_neg hne]
    exact .kept _

/-- **Leaving nulls out changes nothing.** Parameters that are null may be left out of a request. So
may null members of the object that is given as the sort or the search parameter, for these two
capabilities and for all that have no parameter of the same name; and then, if no other capability
has such a parameter, the specification is the same. A null under the first of two names that hides
a value under the second is not considered. -/
theorem null_is_absence (schema : Schema) (request : Request) :
    (∀ names, Entries.AllNull request.params names →
      ofRequest schema (request.without names) = ofRequest schema request) ∧
    ∀ (param : String) (members : Entries Json) (names : List String),
      request.get? param = some (.object members) → members.AllNull names →
      (param = schema.params.sort → ¬members.Hides names "direction" "dir") →
      (param = schema.params.search → ¬members.Hides names "target" "condition") →
      (∀ c : Capability, c = .sorting ∨ c = .search ∨ param ∉ c.paramsOf schema.params →
        (ofRequest schema (request.withoutMembers param members names)).SameFragment c
            (ofRequest schema request) ∧
          (ofRequest schema (request.withoutMembers param members names)).report.ofCapability c
            = (ofRequest schema request).report.ofCapability c) ∧
      ((∀ c : Capability, c ≠ .sorting → c ≠ .search → param ∉ c.paramsOf schema.params) →
        ofRequest schema (request.withoutMembers param members names)
          = ofRequest schema request) := by
  refine ⟨fun names hnull => ?_, fun param members names hgiven hnull hsort hsearch => ?_⟩
  · exact ofRequest_eq_of_sameReading fun c =>
      sameReading_of_omits fun name _ => hnull.omits name
  · have hsame : ∀ c : Capability, c = .sorting ∨ c = .search ∨ param ∉ c.paramsOf schema.params →
        SameReading schema schema (request.withoutMembers param members names) request c :=
      fun c hc => sameReading_withoutMembers hgiven hnull hsort hsearch hc
    refine ⟨fun c hc => ⟨(hsame c hc).sameFragment rfl, ?_⟩, fun hown => ?_⟩
    · rw [ofCapability_report, ofCapability_report, (hsame c hc).faultsOf_eq]
    · refine ofRequest_eq_of_sameReading fun c => hsame c ?_
      by_cases hsorting : c = .sorting
      · exact Or.inl hsorting
      by_cases hsearching : c = .search
      · exact Or.inr (Or.inl hsearching)
      · exact Or.inr (Or.inr (hown c hsorting hsearching))

/-- A request with a null limit, and with an ordering that has null members. -/
def withNulls : Request :=
  ⟨[("limit", .null), ("sort", .object [("direction", .null), ("field", .string "name"),
    ("dir", .null)])]⟩

/-- The null limit may be left out, and so may both names of the direction. -/
theorem null_is_absence_both :
    ∃ schema, Schema.ofDefinition Sample.minimal = .ok schema ∧
      (withNulls.without ["limit"]).params = withNulls.params.tail ∧
      ofRequest schema (withNulls.without ["limit"]) = ofRequest schema withNulls ∧
      ofRequest schema ⟨[("limit", .null), ("sort", .object [("field", .string "name")])]⟩
        = ofRequest schema withNulls := by
  obtain ⟨schema, hbuilt, hparams⟩ : ∃ schema,
      Schema.ofDefinition Sample.minimal = .ok schema ∧ schema.params = {} := ⟨_, rfl, rfl⟩
  obtain ⟨hparam, hmember⟩ := null_is_absence schema withNulls
  have hlimit : Entries.AllNull withNulls.params ["limit"] := by
    intro name hname given hgiven
    obtain rfl := List.mem_singleton.mp hname
    exact (Option.some.inj hgiven).symm
  refine ⟨schema, hbuilt, rfl, hparam _ hlimit, ?_⟩
  refine (hmember "sort" _ ["direction", "dir"] rfl ?_ ?_ ?_).2 ?_
  · intro name hname given hgiven
    rcases List.mem_pair.mp hname with rfl | rfl <;> exact (Option.some.inj hgiven).symm
  · rintro - ⟨-, -, given, hgiven, hne⟩
    exact hne (Option.some.inj hgiven).symm
  · intro hsearch
    rw [hparams] at hsearch
    exact absurd hsearch (by decide)
  · intro c hsorting hsearching
    rw [hparams]
    cases c with
    | sorting => exact absurd rfl hsorting
    | search => exact absurd rfl hsearching
    | _ => decide

/-- A definition whose orderings and filters are read from one parameter. -/
def shared : Definition :=
  { Sample.minimal with params := { filter := "q", sort := "q" } }

/-- The members of an ordering, one of which is a filter too. -/
def filtered : Entries Json :=
  [("field", .string "name"), ("age", .null)]

/-- The members of an ordering, with a null direction beside another one. -/
def redirected : Entries Json :=
  [("field", .string "name"), ("direction", .null), ("dir", .string "desc")]

/-- A request with these members under the name of a parameter. -/
def asking (param : String) (members : Entries Json) : Request :=
  ⟨[(param, .object members)]⟩

/-- Two null members of an ordering that are not like absent ones. One of them is a filter as well,
and null is no operand: without it there is one fault less. The other one hides a direction that
stands under its other name. -/
theorem null_counts :
    (∃ schema, Schema.ofDefinition shared = .ok schema ∧ schema.params.sort = "q" ∧
      (asking "q" filtered).get? "q" = some (.object filtered) ∧ filtered.AllNull ["age"] ∧
      (ofRequest schema (asking "q" filtered)).report.size = 2 ∧
      (ofRequest schema ((asking "q" filtered).withoutMembers "q" filtered ["age"])).report.size
        = 1) ∧
    ∃ schema, Schema.ofDefinition Sample.minimal = .ok schema ∧ schema.params.sort = "sort" ∧
      (asking "sort" redirected).get? "sort" = some (.object redirected) ∧
      redirected.AllNull ["direction"] ∧
      (ofRequest schema (asking "sort" redirected)).sort = some ⟨some "name", .ascending⟩ ∧
      (ofRequest schema ((asking "sort" redirected).withoutMembers "sort" redirected
        ["direction"])).sort = some ⟨some "name", .descending⟩ := by
  have hnull : filtered.AllNull ["age"] ∧ redirected.AllNull ["direction"] := by
    constructor <;>
    · intro name hname given hgiven
      obtain rfl := List.mem_singleton.mp hname
      exact (Option.some.inj hgiven).symm
  exact ⟨⟨_, rfl, rfl, rfl, hnull.1, by decide, by decide⟩, _, rfl, rfl, rfl, hnull.2, by decide,
    by decide⟩

end Specification

end ResourceQuery
