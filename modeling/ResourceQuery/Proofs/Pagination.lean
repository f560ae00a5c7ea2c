import ResourceQuery.Proofs.Parameters
import ResourceQuery.Proofs.Text.Cutting
import ResourceQuery.Proofs.Text.Writing

/-!
# What the parameters of a window say

Each of the two parameters says nothing, or a count, or is refused. Nothing is said by a parameter
that is absent, null or blank. A count is a JSON integer from zero up to `2 ^ 64`, or a text that,
but for outer blanks, writes such a number with digits and perhaps a plus (`Text.Writes`). All else
is refused: no number is rounded, cut down or taken modulo anything.

The window holds the counts as they are given. The limit is missing when it is beyond the maximum,
and that has no effect on the offset. The faults are those of the limit, those of the offset, and
the one about the maximum.

## Main definitions

* `CountParam.Unset`, `CountParam.Counts`, `CountParam.Invalid`: what a parameter says.
* `CountParam.Refusals`, `Window.Excesses`: the faults about a parameter and about the maximum.

## Main statements

* `CountParam.says_ofValue`: a parameter is read as what it says.
* `Window.as_given`: the window has the counts that are given, and every fault has its cause.
-/

namespace ResourceQuery

namespace CountParam

/-- A parameter that says nothing. -/
inductive Unset : Option Json → Prop
  | absent : Unset none
  | null : Unset (some .null)
  | blank {text : String} : Text.isBlankText text = true → Unset (some (.string text))

/-- A parameter that says a count. -/
inductive Counts : Option Json → Nat → Prop
  | integer {n : Nat} : n < 2 ^ 64 → Counts (some (.number (.integer n))) n
  | text {text : String} {n : Nat} : Text.Writes (Text.trim text.toList) n → n < 2 ^ 64 →
      Counts (some (.string text)) n

/-- A parameter that says something else. -/
def Invalid (given : Option Json) : Prop :=
  ¬Unset given ∧ ∀ n, ¬Counts given n

/-- The faults about a parameter: one, under its own name, when it is invalid. -/
inductive Refusals (param : String) (given : Option Json) : List Fault → Prop
  | none : ¬Invalid given → Refusals param given []
  | one {value : Json} : given = some value → Invalid given → Refusals param given
      [⟨.pagination, param, .paginationValue, (PaginationCause.notACount param value).message⟩]

/-- What is read from a parameter, by what it says. -/
inductive Says (given : Option Json) : CountParam → Prop
  | unset : Unset given → Says given .unset
  | count {n : UInt64} : (∀ k, n.toNat = k ↔ Counts given k) → Says given (.count n)
  | invalid {value : Json} : given = some value → Invalid given → Says given (.invalid value)

/-- What says nothing says no count. -/
theorem Unset.not_counts {given : Option Json} {n : Nat} (h : Unset given) :
    ¬Counts given n := by
  intro hcounts
  cases hcounts with
  | integer _ => cases h
  | text hwrites _ =>
      cases h with
      | blank hblank => exact hwrites.ne_nil (Text.trim_eq_nil_iff.mpr hblank)

/-- A number gives a count exactly when it counts it. -/
theorem map_toNat_number {number : Json.Number} {n : Nat} :
    number.count?.map UInt64.toNat = some n ↔ Counts (some (.number number)) n := by
  constructor
  · intro h
    match number, h with
    | .integer (.ofNat k), h =>
        obtain ⟨rfl, hlt⟩ := Text.map_toNat_countOf?_eq_some_iff.mp h
        exact .integer hlt
  · intro h
    cases h with
    | integer hlt => exact Text.map_toNat_countOf?_eq_some_iff.mpr ⟨rfl, hlt⟩

/-- A text gives a count exactly when it counts it. -/
theorem map_toNat_text {text : String} {n : Nat} :
    (Text.count? (Text.trim text.toList)).map UInt64.toNat = some n ↔
      Counts (some (.string text)) n := by
  rw [Text.map_toNat_count?_eq_some_iff]
  constructor
  · exact fun ⟨hwrites, hlt⟩ => .text hwrites hlt
  · intro h
    cases h with
    | text hwrites hlt => exact ⟨hwrites, hlt⟩

/-- A value that is read as a count, if it says one, is refused if it does not. -/
theorem says_of_counts {value : Json} {found : Option UInt64} (hset : ¬Unset (some value))
    (h : ∀ n, found.map UInt64.toNat = some n ↔ Counts (some value) n) :
    Says (some value) ((found.map count).getD (.invalid value)) := by
  cases found with
  | none => exact .invalid rfl ⟨hset, fun n hcounts => nomatch (h n).mpr hcounts⟩
  | some m => exact .count fun k => by rw [← h, Option.map_some, Option.some.injEq]

/-- **A parameter is read as what it says.** -/
theorem says_ofValue (given : Option Json) : Says given (ofValue given) := by
  unfold ofValue
  split
  · exact .unset .absent
  · exact .unset .null
  · next text =>
      split
      · next hblank => exact .unset (.blank hblank)
      · next hblank =>
          have hset : ¬Unset (some (.string text)) := fun | .blank h => hblank h
          have hsays := says_of_counts hset fun _ => map_toNat_text
          cases hcount : Text.count? (Text.trim text.toList) with
          | none => rwa [hcount] at hsays
          | some n => rwa [hcount] at hsays
  · next number =>
      have hset : ¬Unset (some (.number number)) := nofun
      have hsays := says_of_counts hset fun _ => map_toNat_number
      cases hcount : number.count? with
      | none => rwa [hcount] at hsays
      | some n => rwa [hcount] at hsays
  · next value hnull htext hnumber =>
      refine .invalid rfl ⟨fun h => ?_, fun n h => ?_⟩
      · cases h with
        | null => exact hnull rfl
        | blank _ => exact htext _ rfl
      · cases h with
        | integer _ => exact hnumber _ rfl
        | text _ _ => exact htext _ rfl

/-- The count of a parameter is the one that it says. -/
theorem map_toNat_count?_eq_some_iff {given : Option Json} {n : Nat} :
    (ofValue given).count?.map UInt64.toNat = some n ↔ Counts given n := by
  have hsays := says_ofValue given
  generalize ofValue given = said at hsays
  cases hsays with
  | unset hunset => exact iff_of_false nofun hunset.not_counts
  | count hcounts => rw [count?, Option.map_some, Option.some.injEq, hcounts]
  | invalid _ hinvalid => exact iff_of_false nofun (hinvalid.2 n)

/-- **A parameter is reported exactly when it is invalid.** -/
theorem refusals_ofValue (param : String) (given : Option Json) :
    Refusals param given ((ofValue given).faults param) := by
  have hsays := says_ofValue given
  generalize ofValue given = said at hsays
  cases hsays with
  | unset hunset => exact .none fun hinvalid => hinvalid.1 hunset
  | count hcounts => exact .none fun hinvalid => hinvalid.2 _ ((hcounts _).mp rfl)
  | invalid hgiven hinvalid => exact .one hgiven hinvalid

end CountParam

namespace Window

open CountParam

/-- The faults about the maximum: one, under the name of the limit, when the limit is beyond it. -/
inductive Excesses (schema : Schema) (given : Option Json) : List Fault → Prop
  | none : (∀ n, Counts given n → ∀ maximum ∈ schema.maxLimit, n ≤ maximum.toNat) →
      Excesses schema given []
  | one {limit maximum : UInt64} : Counts given limit.toNat → schema.maxLimit = some maximum →
      maximum < limit → Excesses schema given
        [⟨.pagination, schema.params.limit, .paginationValue,
          (PaginationCause.limitBeyond limit maximum).message⟩]

/-- A limit is left out exactly when it is beyond the maximum. -/
theorem map_toNat_boundedLimit {param : String} {maximum limit : Option UInt64} {n : Nat} :
    (boundedLimit param maximum limit).output.map UInt64.toNat = some n ↔
      limit.map UInt64.toNat = some n ∧ ∀ m ∈ maximum, n ≤ m.toNat := by
  rw [Option.map_eq_some_iff, Option.map_eq_some_iff]
  constructor
  · rintro ⟨l, h, rfl⟩
    obtain ⟨hl, hle⟩ := mem_boundedLimit_iff.mp h
    exact ⟨⟨l, hl, rfl⟩, fun m hm => UInt64.le_iff_toNat_le.mp (hle m hm)⟩
  · rintro ⟨⟨l, hl, rfl⟩, hle⟩
    have hmem : l ∈ (boundedLimit param maximum limit).output :=
      mem_boundedLimit_iff.mpr ⟨hl, fun m hm => UInt64.le_iff_toNat_le.mpr (hle m hm)⟩
    exact ⟨l, hmem, rfl⟩

/-- **The maximum is reported exactly when a limit is given that is beyond it.** -/
theorem excesses_boundedLimit (schema : Schema) (given : Option Json) :
    Excesses schema given
      (boundedLimit schema.params.limit schema.maxLimit (ofValue given).count?).faults := by
  by_cases hle : ∀ n, Counts given n → ∀ maximum ∈ schema.maxLimit, n ≤ maximum.toNat
  · rw [boundedLimit_of_le]
    · exact .none hle
    · intro l hl m hm
      have hcounts := map_toNat_count?_eq_some_iff.mp (congrArg (Option.map UInt64.toNat) hl)
      exact UInt64.le_iff_toNat_le.mpr (hle _ hcounts m hm)
  · push Not at hle
    obtain ⟨n, hcounts, maximum, hmaximum, hlt⟩ := hle
    obtain ⟨limit, hlimit, rfl⟩ :=
      Option.map_eq_some_iff.mp (map_toNat_count?_eq_some_iff.mpr hcounts)
    have hbeyond : maximum < limit := UInt64.lt_iff_toNat_lt.mpr hlt
    rw [hlimit, hmaximum, boundedLimit, if_pos hbeyond]
    exact .one hcounts hmaximum hbeyond

/-- **The window has the counts that are given.** Its offset is the count that the offset says, and
its limit the count that the limit says, if it is not beyond the maximum; there is no other way to a
limit or an offset. The faults are one about the limit when it is invalid, then one about the offset
when it is invalid, and then one about the limit when it is beyond the maximum. -/
theorem as_given (schema : Schema) (request : Request) :
    (∀ n : Nat, (read schema request).output.offset.map UInt64.toNat = some n ↔
      Counts (request.get? schema.params.offset) n) ∧
    (∀ n : Nat, (read schema request).output.limit.map UInt64.toNat = some n ↔
      Counts (request.get? schema.params.limit) n ∧
        ∀ maximum ∈ schema.maxLimit, n ≤ maximum.toNat) ∧
    ∃ ofLimit ofOffset ofMaximum : List Fault,
      (read schema request).faults = ofLimit ++ ofOffset ++ ofMaximum ∧
      Refusals schema.params.limit (request.get? schema.params.limit) ofLimit ∧
      Refusals schema.params.offset (request.get? schema.params.offset) ofOffset ∧
      Excesses schema (request.get? schema.params.limit) ofMaximum := by
  refine ⟨fun n => map_toNat_count?_eq_some_iff, fun n => ?_, _, _, _, rfl,
    refusals_ofValue _ _, refusals_ofValue _ _, excesses_boundedLimit schema _⟩
  rw [read, map_toNat_boundedLimit, map_toNat_count?_eq_some_iff]

end Window

end ResourceQuery
