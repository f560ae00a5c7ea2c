import Mathlib.Data.List.Basic
import ResourceQuery.Sql.Text

/-!
# Reading names and values off a statement

What a client or a resource adds to a text is found in the names and the values among its pieces;
words, signs and spaces are the same for everyone. Given what is wanted of a name and of a value,
this module tells what is wanted of a whole statement, clause by clause, in the order of the text.
Separators, parentheses and negations have neither names nor values, so they drop out once, here,
and not in every proof about the values or the names of a statement.

## Main definitions

* `Piece.gather`, `Condition.gather`, `Statement.gather`: what is wanted of pieces, conditions and
  statements.

## Main statements

* `Condition.flatMap_gather_pieces`: the names and values of a condition, from its pieces.
* `Statement.flatMap_gather_pieces`: the names and values of a statement, from its pieces.
-/

namespace ResourceQuery

variable {α : Type} (name : String → List α) (value : Literal → List α)

/-- What is wanted of a piece. -/
def Piece.gather : Piece → List α
  | .name s => name s
  | .value v => value v
  | _ => []

/-- What is wanted of a column: its table comes first. -/
def Column.gather (c : Column) : List α :=
  name c.table ++ name c.name

/-- What is wanted of a test. -/
def Atom.gather : Atom → List α
  | .compare column _ v => column.gather name ++ value v
  | .like column pattern => column.gather name ++ value (.scalar (.string pattern))

/-- What is wanted of a condition. Membership in the empty list compares two constants. -/
def Condition.gather : Condition → List α
  | .atom t => t.gather name value
  | .member _ negated [] => value (.constant 1) ++ value (.constant (if negated then 1 else 2))
  | .member column _ values => column.gather name ++ values.flatMap value
  | .between column _ first last => column.gather name ++ value first ++ value last
  | .anyOf atoms => atoms.flatMap (Atom.gather name value)
  | .never => []

/-- What is wanted of a statement: of its columns, its table, its conditions, its sort keys and its
numbers of rows. -/
def Statement.gather (statement : Statement) : List α :=
  (if statement.columns = [] then name statement.table
    else statement.columns.flatMap fun column => name statement.table ++ name column)
  ++ name statement.table
  ++ statement.conditions.flatMap (Condition.gather name value)
  ++ statement.order.flatMap (fun key => key.1.gather name)
  ++ statement.limit.toList.flatMap (fun n => value (.count n))
  ++ statement.offset.toList.flatMap (fun n => value (.count n))

/-- What is wanted of the things that are added is wanted of those that add them. -/
theorem flatMap_filterMap {β γ : Type} {add? : β → Option γ} {f : γ → List α} {g : β → List α}
    (h : ∀ b, (add? b).toList.flatMap f = g b) (bs : List β) :
    (bs.filterMap add?).flatMap f = bs.flatMap g := by
  rw [List.filterMap_eq_flatMap_toList, List.flatMap_assoc]
  exact List.flatMap_congr fun b _ => h b

namespace Piece

/-- Lists with a separator that has nothing of it have what the lists have. -/
theorem flatMap_join {f : Piece → List α} {separator : List Piece}
    (hseparator : separator.flatMap f = []) (parts : List (List Piece)) :
    (join separator parts).flatMap f = parts.flatMap (List.flatMap f) := by
  induction parts using Piece.join.induct with
  | case1 => rfl
  | case2 ps => simp [join]
  | case3 ps rest hrest ih =>
      rw [join, List.flatMap_append, List.flatMap_append, hseparator, ih, List.append_nil]
      · rfl
      · exact hrest

/-- Parentheses have neither names nor values. -/
theorem flatMap_gather_parenthesized (asked : Bool) (ps : List Piece) :
    (parenthesized asked ps).flatMap (gather name value) = ps.flatMap (gather name value) := by
  cases asked <;> simp [parenthesized, gather]

end Piece

/-- A column is made of two names. -/
theorem Column.flatMap_gather_pieces (c : Column) :
    c.pieces.flatMap (Piece.gather name value) = c.gather name := by
  simp [pieces, Piece.gather, gather]

/-- A test has a column and a value. -/
theorem Atom.flatMap_gather_pieces (t : Atom) :
    t.pieces.flatMap (Piece.gather name value) = t.gather name value := by
  cases t <;>
    simp [pieces, gather, Column.flatMap_gather_pieces, Piece.spaced, Piece.gather]

/-- **The names and values of a condition** do not depend on the conditions around it. -/
theorem Condition.flatMap_gather_pieces (amongOthers : Bool) (c : Condition) :
    (c.pieces amongOthers).flatMap (Piece.gather name value) = c.gather name value := by
  have hnegation : ∀ negated, (negation negated).flatMap (Piece.gather name value) = [] := by
    intro negated
    cases negated <;> rfl
  have hspaced : ∀ w, (Piece.spaced w).flatMap (Piece.gather name value) = [] := fun _ => rfl
  cases c with
  | atom t => exact t.flatMap_gather_pieces name value
  | member column negated values =>
      cases values with
      | nil => simp [pieces, gather, Piece.gather]
      | cons v values =>
          simp only [pieces, gather, List.flatMap_append, Column.flatMap_gather_pieces, hnegation,
            hspaced, Piece.flatMap_gather_parenthesized, List.append_nil]
          rw [Piece.flatMap_join rfl, List.flatMap_map]
          simp [Piece.gather]
  | between column negated first last =>
      simp [pieces, gather, Piece.flatMap_gather_parenthesized, Column.flatMap_gather_pieces,
        hnegation, hspaced, Piece.gather]
  | anyOf atoms =>
      rcases atoms with - | ⟨t, - | ⟨u, rest⟩⟩
      · rfl
      · simpa [pieces, gather] using t.flatMap_gather_pieces name value
      · rw [pieces, Piece.flatMap_gather_parenthesized, Piece.flatMap_join (hspaced "OR"),
          List.flatMap_map, gather]
        · exact List.flatMap_congr fun t _ => t.flatMap_gather_pieces name value
        · simp
        · simp
  | never => cases amongOthers <;> rfl

namespace Condition

/-- Alternatives have the column and a value each. -/
theorem gather_ordering (column : Column) (comparison : Comparison) (vs : List Scalar) :
    (ordering column comparison (.list vs)).gather name value
      = vs.flatMap fun v => column.gather name ++ value (.scalar v) := by
  rw [ordering, gather, List.flatMap_map]
  rfl

/-- Membership in a list has the column once, and the values. -/
theorem gather_equality (column : Column) (negated : Bool) (v : Scalar) (vs : List Scalar) :
    (equality column negated (.list (v :: vs))).gather name value
      = column.gather name ++ (v :: vs).flatMap fun v => value (.scalar v) := by
  have hvalues : ((v :: vs).map Literal.scalar).flatMap value
      = (v :: vs).flatMap fun v => value (.scalar v) := List.flatMap_map ..
  exact congrArg (column.gather name ++ ·) hvalues

/-- A search has a column and its pattern for every field. -/
theorem gather_ofSearch (base : String) (term : SearchTerm) :
    (ofSearch base term).gather name value
      = term.fields.flatMap fun field => (Column.ofField base field).gather name
          ++ value (.scalar (.string (Pattern.containing term.value))) := by
  rw [ofSearch, gather, List.flatMap_map]
  rfl

end Condition

/-- **The names and values of a statement**, clause by clause. -/
theorem Statement.flatMap_gather_pieces (statement : Statement) :
    statement.pieces.flatMap (Piece.gather name value) = statement.gather name value := by
  have hcolumns : statement.columnPieces.flatMap (Piece.gather name value)
      = if statement.columns = [] then name statement.table
        else statement.columns.flatMap fun column => name statement.table ++ name column := by
    unfold columnPieces
    split
    · next h => simp [h, Piece.gather]
    · next h =>
        rw [if_neg h, Piece.flatMap_join rfl, List.flatMap_map]
        exact List.flatMap_congr fun column _ => Column.flatMap_gather_pieces name value _
  have hconditions : statement.conditionPieces.flatMap (Piece.gather name value)
      = statement.conditions.flatMap (Condition.gather name value) := by
    unfold conditionPieces
    split
    · next h => rw [h]; rfl
    · rw [List.flatMap_append, Piece.flatMap_join rfl, List.flatMap_map]
      exact List.flatMap_congr fun c _ => c.flatMap_gather_pieces name value _
  have horder : statement.orderPieces.flatMap (Piece.gather name value)
      = statement.order.flatMap fun key => key.1.gather name := by
    unfold orderPieces
    split
    · next h => rw [h]; rfl
    · rw [List.flatMap_append, Piece.flatMap_join rfl, List.flatMap_map]
      refine List.flatMap_congr fun key _ => ?_
      rw [List.flatMap_append, Column.flatMap_gather_pieces]
      exact List.append_nil _
  have hcount : ∀ (letters : String) (count : Option UInt64),
      (countPieces letters count).flatMap (Piece.gather name value)
        = count.toList.flatMap fun n => value (.count n) := by
    rintro letters (- | n)
    · rfl
    · simp [countPieces, Piece.spaced, Piece.gather]
  simp only [pieces, gather, List.flatMap_append, hcolumns, hconditions, horder, hcount]
  simp [Piece.spaced, Piece.gather]

end ResourceQuery
