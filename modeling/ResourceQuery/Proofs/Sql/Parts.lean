import ResourceQuery.Sql.Statement

/-!
# What a statement gathers

A statement is handed parts one by one. Each part adds to some of its clauses, and what it adds
depends on the part and the base table only, not on the statement. So a statement can be told from
the list of its parts clause by clause: columns, conditions and sort keys are those of the parts in
their order, and a limit or an offset is the one that was set last.

## Main definitions

* `SearchTerm.IsIncomplete`: the searches that ask for nothing.
* `Part.columnNames`, `Part.condition?`, `Part.sortKey?`, `Part.limit?`, `Part.offset?`: what a part
  adds.

## Main statements

* `Statement.apply_eq`: a statement after one more part.
* `Statement.applyAll_eq`: a statement after a list of parts.
-/

namespace ResourceQuery

/-- A search without a target, without fields or without a value. -/
def SearchTerm.IsIncomplete (term : SearchTerm) : Prop :=
  term.target = "" ∨ term.fields = [] ∨ term.value = ""

instance (term : SearchTerm) : Decidable term.IsIncomplete := inferInstanceAs (Decidable (_ ∨ _))

/-- The searches that ask for nothing are the incomplete ones. -/
theorem SearchTerm.isNoop_eq (term : SearchTerm) : term.isNoop = decide term.IsIncomplete := by
  rw [Bool.eq_iff_iff, decide_eq_true_iff, IsIncomplete]
  simp [isNoop, or_assoc]

namespace Part

/-- The columns that a part selects. -/
def columnNames : Part → List String
  | .columns names => names
  | _ => []

/-- The condition that a part adds. -/
def condition? (base : String) : Part → Option Condition
  | .filter p => some (.ofPredicate base p)
  | .search term => if term.IsIncomplete then none else some (.ofSearch base term)
  | _ => none

/-- The sort key that a part adds, if it has a field and this is not empty. -/
def sortKey? (base : String) : Part → Option (Column × Direction)
  | .sort key =>
    (key.field.filter (· ≠ "")).map fun field => (Column.ofField base field, key.direction)
  | _ => none

/-- The limit that a part sets. -/
def limit? : Part → Option UInt64
  | .window w => w.limit
  | _ => none

/-- The offset that a part sets. -/
def offset? : Part → Option UInt64
  | .window w => w.offset
  | _ => none

end Part

namespace Statement

/-- **A statement after one more part**, clause by clause. -/
theorem apply_eq (statement : Statement) (part : Part) :
    statement.apply part =
      { table := statement.table
        columns := statement.columns ++ part.columnNames
        conditions := statement.conditions ++ (part.condition? statement.table).toList
        order := statement.order ++ (part.sortKey? statement.table).toList
        limit := part.limit?.or statement.limit
        offset := part.offset?.or statement.offset } := by
  cases part with
  | columns names =>
      simp [apply, Part.columnNames, Part.condition?, Part.sortKey?, Part.limit?, Part.offset?]
  | filter p =>
      simp [apply, restrict, Part.columnNames, Part.condition?, Part.sortKey?, Part.limit?,
        Part.offset?]
  | window w =>
      simp [apply, Part.columnNames, Part.condition?, Part.sortKey?, Part.limit?, Part.offset?]
  | sort key =>
      have hcolumn : key.field.filter (· ≠ "") = key.column? := rfl
      cases hfield : key.column? <;>
        simp only [apply, Part.columnNames, Part.condition?, Part.sortKey?, Part.limit?,
          Part.offset?, hcolumn, hfield] <;>
        simp
  | search term =>
      by_cases hterm : term.IsIncomplete <;>
        simp [apply, restrict, Part.columnNames, Part.condition?, Part.sortKey?, Part.limit?,
          Part.offset?, SearchTerm.isNoop_eq, hterm]

/-- What is set by the last of some parts replaces what was set before them. -/
theorem getLast?_or_filterMap_cons {α β : Type} (set? : α → Option β) (x : α) (xs : List α)
    (before : Option β) :
    ((x :: xs).filterMap set?).getLast?.or before
      = (xs.filterMap set?).getLast?.or ((set? x).or before) := by
  cases hset : set? x with
  | none => simp [hset]
  | some value =>
      rw [List.filterMap_cons_some hset, List.getLast?_cons]
      cases (xs.filterMap set?).getLast? <;> rfl

/-- **A statement after a list of parts**, clause by clause: the run of `apply_eq`. -/
theorem applyAll_eq (statement : Statement) (parts : List Part) :
    statement.applyAll parts =
      { table := statement.table
        columns := statement.columns ++ parts.flatMap Part.columnNames
        conditions := statement.conditions ++ parts.filterMap (Part.condition? statement.table)
        order := statement.order ++ parts.filterMap (Part.sortKey? statement.table)
        limit := (parts.filterMap Part.limit?).getLast?.or statement.limit
        offset := (parts.filterMap Part.offset?).getLast?.or statement.offset } := by
  induction parts generalizing statement with
  | nil => simp [applyAll]
  | cons part rest ih =>
      have hcons : ∀ {β : Type} (add? : Part → Option β) (before : List β),
          before ++ (add? part).toList ++ rest.filterMap add?
            = before ++ (part :: rest).filterMap add? := by
        intro β add? before
        cases hadd : add? part <;> simp [hadd]
      change (statement.apply part).applyAll rest = _
      rw [ih, apply_eq]
      simp only [hcons, getLast?_or_filterMap_cons, List.append_assoc, List.flatMap_cons]

end Statement

end ResourceQuery
