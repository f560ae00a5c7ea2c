import Mathlib.Algebra.Group.Nat.Defs
import Mathlib.Tactic.Set
import ResourceQuery.Binary64.Nearest
import ResourceQuery.Proofs.Filter.Reading
import ResourceQuery.Proofs.Text.Writing

/-!
# Scalars that were read

A scalar that a reader returns can be written as JSON and read again. Two facts are behind this.
Coercion is stable: what was coerced to a type is coerced to itself. And every double that is read
is finite: one of a JSON text is finite by its type, one of a string is checked, and the double
nearest to a 64-bit integer is far from the largest one, since a quotient that is rounded at the
right exponent stays below `2 ^ 54`.

## Main statements

* `Binary64.isFinite_ofInt`: the double nearest to an integer below `2 ^ 64` is finite.
* `Scalar.coerce?_stable`: coercion is stable.
* `Scalar.read_toJson`, `Operand.Reads.toJson`, `Predicate.readEntry_toJson`: what was read is read
  again from its JSON form.
-/

namespace ResourceQuery

/-! ### Integers as doubles -/

/-- A quotient below a bound is rounded to the bound at most. -/
theorem roundHalfEven_le {num den bound : Nat} (h : num < bound * den) :
    roundHalfEven num den ≤ bound := by
  have hfloor : num / den < bound := Nat.div_lt_of_lt_mul (by rwa [Nat.mul_comm] at h)
  rw [roundHalfEven]
  split <;> omega

/-- A number of `l + 1` binary digits, scaled down so that at most 54 of them are left, stays below
`2 ^ 54`. -/
theorem scaleDown_lt {num l : Nat} {e : Int} (hnum : num < 2 ^ (l + 1)) (he : (l : Int) - 53 ≤ e) :
    (scaleDown num 1 e).1 < 2 ^ 54 * (scaleDown num 1 e).2 := by
  cases e with
  | ofNat k =>
      have hpow : 2 ^ (l + 1) ≤ 2 ^ (54 + k) := by
        refine Nat.pow_le_pow_right (by omega) ?_
        have hk : (l : Int) - 53 ≤ (k : Int) := he
        omega
      calc num < 2 ^ (l + 1) := hnum
        _ ≤ 2 ^ (54 + k) := hpow
        _ = 2 ^ 54 * (1 * 2 ^ k) := by rw [Nat.pow_add, Nat.one_mul]
  | negSucc k =>
      have hpow : 2 ^ (l + 1 + (k + 1)) ≤ 2 ^ 54 := by
        refine Nat.pow_le_pow_right (by omega) ?_
        rw [Int.negSucc_eq] at he
        omega
      calc num * 2 ^ (k + 1) < 2 ^ (l + 1) * 2 ^ (k + 1) :=
            Nat.mul_lt_mul_of_pos_right hnum (Nat.two_pow_pos _)
        _ = 2 ^ (l + 1 + (k + 1)) := (Nat.pow_add 2 _ _).symm
        _ ≤ 2 ^ 54 * 1 := by omega

namespace Binary64

/-- A number that is rounded at an exponent of at most 11, where at most 54 of its digits are left,
does not reach the infinite magnitude. -/
theorem magnitude_lt {num : Nat} {e : Int} (hnum : num < 2 ^ (Nat.log2 num + 1))
    (hdigits : (Nat.log2 num : Int) - 53 ≤ e) (he : e ≤ 11) :
    (e + 1074).toNat * 2 ^ 52 + roundHalfEven (scaleDown num 1 e).1 (scaleDown num 1 e).2
      < infiniteMagnitude := by
  have hround : roundHalfEven (scaleDown num 1 e).1 (scaleDown num 1 e).2 ≤ 2 ^ 54 :=
    roundHalfEven_le (scaleDown_lt hnum hdigits)
  have hexponent : (e + 1074).toNat ≤ 1085 := by omega
  rw [infiniteMagnitude, Nat.pow_eq]
  omega

/-- The magnitude of the double nearest to a number below `2 ^ 64` is not that of an infinity. -/
theorem nearestMagnitude_lt {num : Nat} (h : num < 2 ^ 64) :
    nearestMagnitude num 1 < infiniteMagnitude := by
  rw [nearestMagnitude]
  split
  · decide
  · next hne =>
      have hlog : Nat.log2 num < 64 := (Nat.log2_lt hne).mpr h
      have hnum : num < 2 ^ (Nat.log2 num + 1) := Nat.lt_log2_self
      have hone : Nat.log2 1 = 0 := by decide
      simp only [hone, Nat.pow_eq]
      -- of both exponents only the bounds count, so their definitions are forgotten
      set low : Int := max (-1074) ((Nat.log2 num : Int) - ((0 : Nat) : Int) - 53) with hlow
      have hbounds : ((Nat.log2 num : Int) - 53 ≤ low) ∧ low ≤ 10 ∧ -1074 ≤ low := by omega
      clear_value low
      set e : Int := if 2 ^ 53 * (scaleDown num 1 low).2 ≤ (scaleDown num 1 low).1 then low + 1
        else low with he
      have hexponent : (Nat.log2 num : Int) - 53 ≤ e ∧ e ≤ 11 := by
        rw [he]
        split <;> omega
      clear_value e
      exact Nat.lt_of_le_of_lt (Nat.min_le_right _ _)
        (magnitude_lt hnum hexponent.1 hexponent.2)

/-- **The double nearest to an integer below `2 ^ 64` is finite.** -/
theorem isFinite_ofInt {i : Int} (h : i.natAbs < 2 ^ 64) : (ofInt i).isFinite = true := by
  have hlt : nearestMagnitude i.natAbs 1 < infiniteMagnitude := nearestMagnitude_lt h
  have hmod : nearestMagnitude i.natAbs 1 % 2 ^ 63 < infiniteMagnitude :=
    Nat.lt_of_le_of_lt (Nat.mod_le _ _) hlt
  exact decide_eq_true hmod

end Binary64

/-! ### Scalars -/

namespace Scalar

/-- A scalar that has a JSON form other than null: any but a double without a value. -/
def IsFinite : Scalar → Prop
  | .float d => d.isFinite = true
  | _ => True

/-- A scalar of a JSON value is finite. -/
theorem isFinite_of_ofJson? {given : Json} {v : Scalar} (h : ofJson? given = some v) :
    v.IsFinite := by
  unfold ofJson? at h
  split at h
  · obtain rfl := Option.some.inj h
    trivial
  · obtain ⟨i, -, rfl⟩ := Option.map_eq_some_iff.mp h
    trivial
  · next d =>
      obtain rfl := Option.some.inj h
      exact d.property
  · obtain rfl := Option.some.inj h
    trivial
  · cases h

/-- A finite scalar is the scalar of its JSON form. -/
theorem ofJson?_toJson {v : Scalar} (h : v.IsFinite) : ofJson? v.toJson = some v := by
  cases v with
  | boolean b => rfl
  | integer i => simp [toJson, ofJson?, Text.int64Of?_toInt]
  | float d =>
      have hfinite : d.isFinite = true := h
      simp [toJson, ofJson?, hfinite]
  | string s => rfl

/-- What was coerced has the type that it was coerced to. -/
theorem type_of_coerce? {t : ScalarType} {v w : Scalar} (h : coerce? t v = some w) :
    w.type = t := by
  unfold coerce? at h
  split at h
  case h_1 | h_2 | h_4 | h_5 | h_7 =>
    obtain rfl := Option.some.inj h
    rfl
  case h_3 | h_6 | h_8 =>
    obtain ⟨_, -, rfl⟩ := Option.map_eq_some_iff.mp h
    rfl
  case h_9 =>
    split at h
    · obtain rfl := Option.some.inj h
      rfl
    · split at h
      · obtain rfl := Option.some.inj h
        rfl
      · cases h
  case h_10 => cases h

/-- A scalar of a type is coerced to itself. -/
theorem coerce?_type (v : Scalar) : coerce? v.type v = some v := by
  cases v <;> rfl

/-- **Coercion is stable**: what was coerced to a type is coerced to itself. -/
theorem coerce?_stable {t : ScalarType} {v w : Scalar} (h : coerce? t v = some w) :
    coerce? t w = some w := by
  rw [← type_of_coerce? h]
  exact coerce?_type w

/-- Coercion makes no double without a value. -/
theorem IsFinite.coerce? {t : ScalarType} {v w : Scalar} (hv : v.IsFinite)
    (h : coerce? t v = some w) : w.IsFinite := by
  cases w with
  | float d =>
      have htype : t = .float := (type_of_coerce? h).symm
      subst htype
      cases v with
      | boolean b => cases h
      | integer i =>
          -- the one case in which a double comes up that no text or document has spelt
          obtain rfl := Scalar.float.inj (Option.some.inj h)
          refine Binary64.isFinite_ofInt ?_
          have hlow := Int64.le_toInt i
          have hhigh := Int64.toInt_lt i
          omega
      | float d' =>
          obtain rfl := Scalar.float.inj (Option.some.inj h)
          exact hv
      | string s =>
          obtain ⟨d', hd', heq⟩ := Option.map_eq_some_iff.mp h
          obtain rfl := Scalar.float.inj heq
          exact (Option.filter_eq_some_iff.mp hd').2
  | _ => trivial

/-- A scalar is read from a value that is one, and that can be coerced, if a type is declared. -/
theorem read_eq_ok_iff {type : Option ScalarType} {given : Json} {v : Scalar} :
    read type given = .ok v ↔
      ∃ v₀, ofJson? given = some v₀ ∧ ((type = none ∧ v = v₀) ∨
        ∃ t, type = some t ∧ coerce? t v₀ = some v) := by
  unfold read
  cases hgiven : ofJson? given with
  | none => simp
  | some v₀ =>
      cases type with
      | none => simp [eq_comm]
      | some t => cases hcoerce : coerce? t v₀ <;> simp [hcoerce]

/-- A scalar that is read is finite. -/
theorem isFinite_of_read {type : Option ScalarType} {given : Json} {v : Scalar}
    (h : read type given = .ok v) : v.IsFinite := by
  obtain ⟨v₀, hgiven, ⟨-, rfl⟩ | ⟨t, -, hcoerce⟩⟩ := read_eq_ok_iff.mp h
  · exact isFinite_of_ofJson? hgiven
  · exact (isFinite_of_ofJson? hgiven).coerce? hcoerce

/-- **A scalar that is read is read again** from its JSON form. -/
theorem read_toJson {type : Option ScalarType} {given : Json} {v : Scalar}
    (h : read type given = .ok v) : read type v.toJson = .ok v := by
  refine read_eq_ok_iff.mpr ⟨v, ofJson?_toJson (isFinite_of_read h), ?_⟩
  obtain ⟨v₀, -, ⟨hnone, -⟩ | ⟨t, hsome, hcoerce⟩⟩ := read_eq_ok_iff.mp h
  · exact Or.inl ⟨hnone, rfl⟩
  · exact Or.inr ⟨t, hsome, coerce?_stable hcoerce⟩

/-- Scalars that are read are read again from their JSON forms. -/
theorem readAll_toJson {type : Option ScalarType} {items : List Json} {vs : List Scalar}
    (h : readAll type items = .ok vs) : readAll type (vs.map toJson) = .ok vs := by
  rw [readAll_eq_ok_iff] at h ⊢
  induction h with
  | nil => exact .nil
  | cons hv _ ih => exact .cons (read_toJson hv) ih

end Scalar

/-! ### Operands and predicates -/

/-- **An operand that is read is read again** from its JSON form. -/
theorem Operand.Reads.toJson {type : Option ScalarType} {shape : OperandShape} {given : Json}
    {operand : Operand} (h : Reads type shape given operand) :
    Reads type shape operand.toJson operand := by
  cases h with
  | list hvs =>
      obtain ⟨v, vs, -, -, rfl⟩ := List.forall₂_cons_left_iff.mp (Scalar.readAll_eq_ok_iff.mp hvs)
      exact .list (Scalar.readAll_toJson hvs)
  | pair hfirst hlast => exact .pair (Scalar.read_toJson hfirst) (Scalar.read_toJson hlast)
  | text s => exact .text s
  | anyList hvs => exact .anyList (Scalar.readAll_toJson hvs)
  | anyScalar hv => exact .anyScalar (Scalar.read_toJson hv)

/-- The name of an operator means the operator. -/
theorem Operator.ofToken?_name (op : Operator) : ofToken? op.name = some op := by
  cases op <;> decide

/-- **A predicate that is read is read again** from its field, the name of its operator and the
JSON form of its operand. -/
theorem Predicate.readEntry_toJson {schema : Schema} {field token : String} {given : Option Json}
    {p : Predicate} (h : readEntry schema field token given = .ok p) :
    readEntry schema p.field p.operator.name (some p.operand.toJson) = .ok p := by
  obtain ⟨rule, op, json, operand, hrule, -, hallowed, -, hreads, rfl⟩ := readEntry_eq_ok_iff.mp h
  exact readEntry_eq_ok_iff.mpr ⟨rule, op, operand.toJson, operand, hrule,
    Operator.ofToken?_name op, hallowed, rfl, hreads.toJson, rfl⟩

end ResourceQuery
