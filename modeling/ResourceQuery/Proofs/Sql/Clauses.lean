import Mathlib.Data.List.Basic
import ResourceQuery.Proofs.Sql.Parts
import ResourceQuery.Sql.Text

/-!
# The clauses of a statement

The text of a statement is written here from its parts alone, clause by clause: what a clause says
is a list, gathered from those parts that speak of it, and a clause that has nothing to say is not
written. A part speaks of one clause only, so parts of other clauses can stand before or behind it,
and a part that asks for nothing can be left out.

## Main definitions

* `Part.clause`, `Part.isNoop`: what a part speaks of, and whether it asks for nothing.
* `Statement.clausePieces`: the text of a statement, from its parts.
* `Statement.SameTexts`: statements with the same texts and the same values.

## Main statements

* `Statement.pieces_applyAll`: the pieces of a statement are written from its parts.
* `Statement.applyAll_congr`: only the order among the parts of one clause counts.
* `Statement.texts_by_clause`: both facts, for the texts of a statement and its values.
-/

namespace ResourceQuery

/-- What a part can speak of. Filters and searches are conditions alike, and a window speaks of
limit and offset. -/
inductive Clause
  | columns
  | conditions
  | order
  | window
deriving DecidableEq

namespace Part

/-- What a part speaks of. -/
def clause : Part → Clause
  | .columns _ => .columns
  | .filter _ | .search _ => .conditions
  | .sort _ => .order
  | .window _ => .window

/-- Whether a part is an ordering without a field, or a search that lacks something. -/
def isNoop : Part → Bool
  | .sort key => key.field = none ∨ key.field = some ""
  | .search term => term.IsIncomplete
  | _ => false

/-- Whether a part asks for something in a clause. -/
def asksIn (c : Clause) (part : Part) : Bool :=
  part.clause = c && !part.isNoop

variable {part : Part} (base : String)

/-- A part that asks for no columns selects none. -/
theorem columnNames_of_not_asksIn (h : part.asksIn .columns = false) : part.columnNames = [] := by
  cases part with
  | columns names => cases h
  | _ => rfl

/-- A part that asks for no condition adds none. -/
theorem condition?_of_not_asksIn (h : part.asksIn .conditions = false) :
    part.condition? base = none := by
  cases part with
  | filter p => cases h
  | search term =>
      have hterm : term.IsIncomplete := by simpa [asksIn, clause, isNoop] using h
      exact if_pos hterm
  | _ => rfl

/-- A part that asks for no order adds no sort key. -/
theorem sortKey?_of_not_asksIn (h : part.asksIn .order = false) : part.sortKey? base = none := by
  cases part with
  | sort key =>
      have hfield : key.field = none ∨ key.field = some "" :=
        or_iff_not_imp_left.mpr (by simpa [asksIn, clause, isNoop] using h)
      rcases hfield with hfield | hfield <;> rw [sortKey?, hfield] <;> rfl
  | _ => rfl

/-- A part that asks for no window sets no limit. -/
theorem limit?_of_not_asksIn (h : part.asksIn .window = false) : part.limit? = none := by
  cases part with
  | window w => cases h
  | _ => rfl

/-- A part that asks for no window sets no offset. -/
theorem offset?_of_not_asksIn (h : part.asksIn .window = false) : part.offset? = none := by
  cases part with
  | window w => cases h
  | _ => rfl

end Part

/-! ### Parts that do not count -/

section Restricted

variable {α β : Type} {p : α → Bool} {as bs : List α}

/-- Lists with the same elements that count gather the same. -/
theorem flatMap_eq_of_filter_eq {f : α → List β} (hf : ∀ {a}, p a = false → f a = [])
    (h : as.filter p = bs.filter p) : as.flatMap f = bs.flatMap f := by
  have hcount : ∀ xs : List α, xs.flatMap f = (xs.filter p).flatMap f := by
    intro xs
    induction xs with
    | nil => rfl
    | cons x xs ih =>
        cases hx : p x with
        | false => rw [List.flatMap_cons, hf hx, List.filter_cons_of_neg (by simp [hx])]; exact ih
        | true => rw [List.flatMap_cons, List.filter_cons_of_pos hx, List.flatMap_cons, ih]
  rw [hcount as, h, ← hcount bs]

/-- Lists with the same elements that count gather the same, where each of them adds at most one. -/
theorem filterMap_eq_of_filter_eq {f : α → Option β} (hf : ∀ {a}, p a = false → f a = none)
    (h : as.filter p = bs.filter p) : as.filterMap f = bs.filterMap f := by
  rw [List.filterMap_eq_flatMap_toList, List.filterMap_eq_flatMap_toList]
  exact flatMap_eq_of_filter_eq (fun ha => by rw [hf ha]; rfl) h

end Restricted

/-- A clause is its opening, and its items with separators between them. Without an item it is not
written. -/
def Piece.clause (opening separator : List Piece) (items : List (List Piece)) : List Piece :=
  if items = [] then [] else opening ++ Piece.join separator items

namespace Statement

/-- The columns of a statement, each with its table; all of the table, if there is none. -/
def selectedPieces (table : String) (names : List String) : List Piece :=
  if names = [] then [.name table, .sign ".", .sign "*"]
  else Piece.join Piece.comma (names.map fun name => [.name table, .sign ".", .name name])

/-- A sort key with its direction. -/
def sortKeyPieces (key : Column × Direction) : List Piece :=
  [.name key.1.table, .sign ".", .name key.1.name, .space,
    .word (if key.2 = .ascending then "ASC" else "DESC")]

/-- The number of rows that was set last. -/
def lastCount (set? : Part → Option UInt64) (parts : List Part) : List (List Piece) :=
  (parts.filterMap set?).getLast?.toList.map fun n => [.value (.count n)]

/-- **The text of a statement, from its parts.** -/
def clausePieces (table : String) (parts : List Part) : List Piece :=
  let conditions := parts.filterMap (Part.condition? table)
  [.word "SELECT", .space] ++ selectedPieces table (parts.flatMap Part.columnNames)
    ++ Piece.spaced "FROM" ++ [.name table]
    ++ Piece.clause (Piece.spaced "WHERE") (Piece.spaced "AND")
      (conditions.map (Condition.pieces (conditions.length > 1)))
    ++ Piece.clause (Piece.spaced "ORDER" ++ [.word "BY", .space]) Piece.comma
      ((parts.filterMap (Part.sortKey? table)).map sortKeyPieces)
    ++ Piece.clause (Piece.spaced "LIMIT") [] (lastCount Part.limit? parts)
    ++ Piece.clause (Piece.spaced "OFFSET") [] (lastCount Part.offset? parts)

/-- The selected columns are written from their names. -/
theorem columnPieces_eq (statement : Statement) :
    statement.columnPieces = selectedPieces statement.table statement.columns := by
  rw [columnPieces, selectedPieces]
  split
  · next h => rw [h, if_pos rfl]
  · next h => rw [if_neg h]; rfl

/-- The conditions are a clause with `AND` between them. -/
theorem conditionPieces_eq (statement : Statement) :
    statement.conditionPieces = Piece.clause (Piece.spaced "WHERE") (Piece.spaced "AND")
      (statement.conditions.map (Condition.pieces (statement.conditions.length > 1))) := by
  rw [conditionPieces, Piece.clause]
  split
  · next h => rw [h]; rfl
  · next h => rw [if_neg (by simpa using h)]

/-- The sort keys are a clause with commas between them. -/
theorem orderPieces_eq (statement : Statement) :
    statement.orderPieces = Piece.clause (Piece.spaced "ORDER" ++ [.word "BY", .space]) Piece.comma
      (statement.order.map sortKeyPieces) := by
  have hkey : ∀ key : Column × Direction,
      key.1.pieces ++ [.space, .word (directionWord key.2)] = sortKeyPieces key := by
    rintro ⟨column, direction⟩
    cases direction <;> rfl
  rw [orderPieces, Piece.clause]
  split
  · next h => rw [h]; rfl
  · next h => rw [if_neg (by simpa using h), ← List.map_congr_left fun key _ => hkey key]

/-- A number of rows is a clause of one item. -/
theorem countPieces_eq (letters : String) (count : Option UInt64) :
    countPieces letters count = Piece.clause (Piece.spaced letters) []
      (count.toList.map fun n => [.value (.count n)]) := by
  cases count <;> rfl

/-- **The pieces of a statement are written from its parts.** -/
theorem pieces_applyAll (table : String) (parts : List Part) :
    ((start table).applyAll parts).pieces = clausePieces table parts := by
  rw [applyAll_eq, pieces, columnPieces_eq, conditionPieces_eq, orderPieces_eq, countPieces_eq,
    countPieces_eq]
  simp only [start, List.nil_append, Option.or_none]
  rfl

/-- **Only the order among the parts of one clause counts**, and of them only those that ask for
something. -/
theorem applyAll_congr (table : String) {parts parts' : List Part}
    (h : ∀ c, parts.filter (Part.asksIn c) = parts'.filter (Part.asksIn c)) :
    (start table).applyAll parts = (start table).applyAll parts' := by
  have hcolumns := flatMap_eq_of_filter_eq Part.columnNames_of_not_asksIn (h .columns)
  have hconditions :=
    filterMap_eq_of_filter_eq (Part.condition?_of_not_asksIn table) (h .conditions)
  have horder := filterMap_eq_of_filter_eq (Part.sortKey?_of_not_asksIn table) (h .order)
  have hlimit := filterMap_eq_of_filter_eq Part.limit?_of_not_asksIn (h .window)
  have hoffset := filterMap_eq_of_filter_eq Part.offset?_of_not_asksIn (h .window)
  rw [applyAll_eq, applyAll_eq, hcolumns, hlimit, hoffset]
  simp only [start, hconditions, horder]

/-- Two statements have the same texts and bind the same values. -/
structure SameTexts (statement statement' : Statement) : Prop where
  inlined : statement.inlined = statement'.inlined
  bound : statement.bound = statement'.bound
  values : statement.values = statement'.values

/-- A statement has the texts of itself. -/
theorem SameTexts.of_eq {statement statement' : Statement} (h : statement = statement') :
    SameTexts statement statement' := by
  subst h
  exact ⟨rfl, rfl, rfl⟩

/-- **The texts of a statement depend on its parts clause by clause.** Columns, conditions and sort
keys stand in the order of the parts, limit and offset are those that were set last, and a clause
without a part is missing. So parts of different clauses can be put in any order, and orderings
without a field and searches that lack something can be left out or put in anywhere. -/
theorem texts_by_clause (table : String) (parts : List Part) :
    (((start table).applyAll parts).inlined
        = String.ofList ((clausePieces table parts).flatMap Piece.inlined) ∧
      ((start table).applyAll parts).bound
        = String.ofList (Piece.boundFrom 1 (clausePieces table parts)) ∧
      ((start table).applyAll parts).values = (clausePieces table parts).filterMap Piece.value?) ∧
    (∀ parts' : List Part,
      (∀ c, parts.filter (·.clause = c) = parts'.filter (·.clause = c)) →
      SameTexts ((start table).applyAll parts) ((start table).applyAll parts')) ∧
    (∀ parts' : List Part, parts.filter (!·.isNoop) = parts'.filter (!·.isNoop) →
      SameTexts ((start table).applyAll parts) ((start table).applyAll parts')) := by
  have hboth : ∀ (parts : List Part) (c : Clause),
      parts.filter (Part.asksIn c) = (parts.filter (·.clause = c)).filter (!·.isNoop) ∧
        parts.filter (Part.asksIn c) = (parts.filter (!·.isNoop)).filter (·.clause = c) := by
    intro parts c
    constructor <;> rw [List.filter_filter] <;> refine List.filter_congr fun part _ => ?_
    · rw [Part.asksIn, Bool.and_comm]
    · rw [Part.asksIn]
  refine ⟨⟨?_, ?_, ?_⟩, fun parts' h => .of_eq (applyAll_congr table fun c => ?_),
    fun parts' h => .of_eq (applyAll_congr table fun c => ?_)⟩
  · rw [inlined, pieces_applyAll]
  · rw [bound, pieces_applyAll]
  · rw [values, pieces_applyAll]
  · rw [(hboth parts c).1, (hboth parts' c).1, h c]
  · rw [(hboth parts c).2, (hboth parts' c).2, h]

/-- A filter for adults. -/
def adults : Part := .filter ⟨"age", .gte, .scalar (.integer 18)⟩

/-- An ordering by name. -/
def byName : Part := .sort ⟨some "name", .descending⟩

/-- A search in a target without fields. -/
def unresolved : Part := .search ⟨"alias", [], "Ada"⟩

/-- The order of a window, a sort key and a filter among each other does not count, and a search
without fields counts nowhere. -/
theorem texts_by_clause_shuffled :
    SameTexts
        ((start "people").applyAll
          [.window ⟨some 10, none⟩, byName, adults, .window ⟨none, some 0⟩])
        ((start "people").applyAll
          [adults, .window ⟨some 10, none⟩, .window ⟨none, some 0⟩, byName]) ∧
      SameTexts
        ((start "people").applyAll [unresolved, adults, .sort ⟨some "", .ascending⟩, unresolved])
        ((start "people").applyAll [adults]) := by
  refine ⟨(texts_by_clause "people" _).2.1 _ fun c => ?_, (texts_by_clause "people" _).2.2 _ rfl⟩
  cases c <;> rfl

end Statement

end ResourceQuery
