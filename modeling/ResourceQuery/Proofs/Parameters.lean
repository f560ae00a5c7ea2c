import ResourceQuery.Pagination
import ResourceQuery.Proofs.Ordering
import ResourceQuery.Proofs.Text.Cutting
import ResourceQuery.Search

/-!
# What the readers of single parameters return

Orderings, searches and limits each come from one parameter with several forms. Whatever the form,
a reader ends in one of a few ways, which `SortKey.Possible` and `SearchTerm.Possible` list: it
refuses with a fault, it falls back to what the schema or an absent parameter says, or it returns
something that the schema allows.

## Main statements

* `SortKey.possible_read`: how the reading of an ordering ends.
* `SearchTerm.possible_read`: how the reading of a search ends.
* `Window.limit_le_maxLimit`: a limit that is read is not beyond the maximum.
-/

namespace ResourceQuery

/-! ### Orderings -/

namespace SortKey

/-- How the reading of an ordering can end: it is refused with a fault, it is the ordering that
the schema falls back to, or it is by a sortable field, which has no outer blanks. -/
inductive Possible (schema : Schema) : Reading SortKey → Prop
  | refused {faults : List Fault} : faults ≠ [] → Possible schema (refused faults)
  | fallback : Possible schema (.clean (fallback schema))
  | byField {field : String} (direction : Direction) :
      schema.isSortable field = true → Text.trimmed field = field → field ≠ "" →
      Possible schema (.clean ⟨some field, direction⟩)

/-- **How the reading of an ordering ends**, whatever was asked for. -/
theorem possible_read (schema : Schema) (request : Request) :
    Possible schema (read schema request) := by
  have hends := ends_read schema request
  generalize read schema request = reading at hends
  cases hends with
  | refused hfaults => exact .refused hfaults
  | fallback _ => exact .fallback
  | @asked _ field _ direction _ _ hblank hsortable _ =>
      exact .byField direction hsortable (Text.trimmed_trimmed field)
        (Text.trimmed_ne_empty hblank)

end SortKey

/-! ### Searches -/

namespace SearchTerm

/-- How the reading of a search can end: it is refused with a fault, nothing is searched, or a
value that is not blank is searched in a target of the schema: the default one, or one that was
named without outer blanks. -/
inductive Possible (schema : Schema) : Reading (Option SearchTerm) → Prop
  | refused (fault : Fault) : Possible schema (refused fault)
  | absent : Possible schema (.clean none)
  | found {term : SearchTerm} :
      schema.searchTarget? term.target = some term.fields → Text.isBlankText term.value = false →
      (schema.defaultTarget = some term.target ∨
        (Text.trimmed term.target = term.target ∧ term.target ≠ "")) →
      Possible schema (.clean (some term))

/-- A target is named by what is left of its name without outer blanks, if anything is. -/
theorem targetOf?_some (schema : Schema) (name : String) :
    targetOf? schema (some name)
      = if Text.isBlankText name = true then schema.defaultTarget
        else some (Text.trimmed name) := by
  rw [targetOf?, Option.map_some]
  split
  · next hblank =>
      rw [Text.trimmed_eq_empty_iff.mpr hblank, Option.filter_some_neg (by decide), Option.none_or]
  · next hblank =>
      have hne : Text.trimmed name ≠ "" := Text.trimmed_ne_empty (by simpa using hblank)
      rw [Option.filter_some_pos (by simpa using hne), Option.some_or]

/-- The target of a search is the default one, or was named without outer blanks. -/
theorem default_or_trimmed_of_targetOf? {schema : Schema} {named : Option String} {target : String}
    (h : targetOf? schema named = some target) :
    schema.defaultTarget = some target ∨ (Text.trimmed target = target ∧ target ≠ "") := by
  cases named with
  | none => exact Or.inl h
  | some name =>
      rw [targetOf?_some] at h
      split at h
      · exact Or.inl h
      · next hblank =>
          obtain rfl := Option.some.inj h
          exact Or.inr ⟨Text.trimmed_trimmed name, Text.trimmed_ne_empty (by simpa using hblank)⟩

/-- The search for a value in a target is one of the possible readings. -/
theorem possible_resolve (schema : Schema) (named : Option String) (value : String) :
    Possible schema (resolve schema named value) := by
  unfold resolve
  split
  · exact .absent
  · next hblank =>
      split
      · exact .refused _
      · next target htarget =>
          split
          · next fields hfields =>
              exact .found hfields (by simpa using hblank) (default_or_trimmed_of_targetOf? htarget)
          · exact .refused _

/-- The search for a value member is one of the possible readings. -/
theorem possible_ofValueMember (schema : Schema) (named : Option String) (given : Option Json) :
    Possible schema (ofValueMember schema named given) := by
  unfold ofValueMember
  split
  · exact .absent
  · exact .absent
  · exact possible_resolve schema named _
  · exact possible_resolve schema named _
  · exact possible_resolve schema named _
  · exact .refused _

/-- **How the reading of a search ends.** -/
theorem possible_read (schema : Schema) (request : Request) :
    Possible schema (read schema request) := by
  unfold read
  split
  · exact .absent
  · exact .absent
  · exact possible_resolve schema none _
  · unfold ofObject
    split
    · exact possible_ofValueMember schema none _
    · exact possible_ofValueMember schema none _
    · exact possible_ofValueMember schema _ _
    · exact .refused _
  · exact .refused _

end SearchTerm

/-! ### Windows -/

namespace Window

/-- A limit that is within the maximum is read as it is. -/
theorem boundedLimit_of_le {param : String} {maximum limit : Option UInt64}
    (h : ∀ l ∈ limit, ∀ m ∈ maximum, l ≤ m) : boundedLimit param maximum limit = .clean limit := by
  cases limit with
  | none => cases maximum <;> rfl
  | some l =>
      cases maximum with
      | none => rfl
      | some m =>
          have hle : l ≤ m := h l rfl m rfl
          rw [boundedLimit, if_neg (UInt64.not_lt.mpr hle)]

/-- Only a limit that is beyond the maximum is left out. -/
theorem mem_boundedLimit_iff {param : String} {maximum limit : Option UInt64} {l : UInt64} :
    l ∈ (boundedLimit param maximum limit).output ↔ l ∈ limit ∧ ∀ m ∈ maximum, l ≤ m := by
  constructor
  · intro h
    cases limit with
    | none => cases maximum <;> cases h
    | some given =>
        cases maximum with
        | none => exact ⟨h, nofun⟩
        | some m =>
            rw [boundedLimit] at h
            split at h
            · cases h
            · next hlt =>
                obtain rfl := Option.some.inj h
                exact ⟨rfl, fun m' hm => Option.some.inj hm ▸ UInt64.not_lt.mp hlt⟩
  · rintro ⟨rfl, hle⟩
    rw [boundedLimit_of_le fun l' hl m hm => Option.some.inj hl ▸ hle m hm]
    rfl

/-- **A limit that is read is not beyond the maximum of the schema.** -/
theorem limit_le_maxLimit {schema : Schema} {request : Request} {limit maximum : UInt64}
    (h : limit ∈ (read schema request).output.limit) (hm : maximum ∈ schema.maxLimit) :
    limit ≤ maximum :=
  (mem_boundedLimit_iff.mp h).2 maximum hm

end Window

end ResourceQuery
