import ResourceQuery.Proofs.Sql.Lexer
import ResourceQuery.Sql.Condition

/-!
# Reading formulas

The tokens of a clause are read as a formula by the precedence of SQL: a test, with all the words
that belong to it, binds tighter than `AND`, and `AND` tighter than `OR`. The `AND` between the
bounds of a range belongs to the test. A comparison of two numbers is no test of a row; it is true
or false by itself.

Reading is described apart from writing, on tokens only, and for any tokens. It is deterministic
(`Sql.Reads.unique`): a chain of tests goes on as long as its word follows, so a formula is read in
one way, and leaves the same tokens unread.

## Main definitions

* `Sql.Test`, `Sql.Formula`: tests of a row, and formulas of them.
* `Sql.test?`: the test at the front of tokens.
* `Sql.Reads`: the formula at the front of tokens.
* `Sql.Constrains`: the formula of the `WHERE` clause of a statement.

## Main statements

* `Sql.Reads.unique`, `Sql.Constrains.unique`: there is one such formula at most.
-/

namespace ResourceQuery.Sql

/-- A test of one column of a row; values are known by their tokens. -/
inductive Test
  | compare (column : Column) (sign : String) (value : List Token)
  | like (column : Column) (pattern : List Token)
  | member (column : Column) (values : List (List Token))
  | between (column : Column) (first last : List Token)
deriving DecidableEq

/-- A formula of tests. -/
inductive Formula
  | test (test : Test)
  | constant (value : Bool)
  | not (formula : Formula)
  | and (first second : Formula)
  | or (first second : Formula)
deriving DecidableEq

namespace Formula

/-- The truth of a formula, given that of the tests. -/
def holds (a : Test → Bool) : Formula → Bool
  | .test t => a t
  | .constant b => b
  | .not f => !f.holds a
  | .and f g => f.holds a && g.holds a
  | .or f g => f.holds a || g.holds a

/-- A formula, or its opposite. -/
def negated (opposite : Bool) (f : Formula) : Formula :=
  if opposite then .not f else f

/-- Formulas with a connective between each two of them. -/
def joined (connect : Formula → Formula → Formula) (empty : Formula) : List Formula → Formula
  | [] => empty
  | [f] => f
  | f :: fs => connect f (joined connect empty fs)

/-- Any of the formulas. -/
def disjunction : List Formula → Formula := joined .or (.constant false)

/-- The opposite of a formula is true when the formula is not. -/
@[simp] theorem holds_negated (a : Test → Bool) (opposite : Bool) (f : Formula) :
    (f.negated opposite).holds a = (f.holds a != opposite) := by
  cases opposite <;> simp [negated, holds]

/-- A disjunction is true when any of its formulas is. -/
@[simp] theorem holds_disjunction (a : Test → Bool) (fs : List Formula) :
    (disjunction fs).holds a = fs.any (holds a) := by
  rw [disjunction]
  induction fs using joined.induct with
  | case1 => rfl
  | case2 f => simp [joined]
  | case3 f fs hfs ih =>
      rw [joined, holds, ih, List.any_cons]
      exact hfs

end Formula

/-! ### Tests -/

/-- The words that are no values. -/
def keywords : List String :=
  ["AND", "OR", "NOT", "IN", "BETWEEN", "LIKE", "WHERE", "ORDER", "LIMIT", "OFFSET"]

/-- The value at the front of tokens, and the tokens behind it. -/
def value? : List Token → Option (List Token × List Token)
  | .number ds :: rest => some ([.number ds], rest)
  | .string escapes body :: rest => some ([.string escapes body], rest)
  | .word w :: rest => if w ∈ keywords then none else some ([.word w], rest)
  | .sign "-" :: .number ds :: rest => some ([.sign "-", .number ds], rest)
  | .sign "-" :: .word w :: rest =>
    if w ∈ keywords then none else some ([.sign "-", .word w], rest)
  | _ => none

/-- Behind a value there are fewer tokens than in front of it. -/
theorem length_of_value? {ts v rest : List Token} (h : value? ts = some (v, rest)) :
    rest.length < ts.length := by
  unfold value? at h
  split at h
  case h_6 => cases h
  all_goals
    try split at h
    all_goals cases h <;> simp only [List.length_cons] <;> omega

/-- The values up to a closing parenthesis, and the tokens behind it. -/
def values? (ts : List Token) : Option (List (List Token) × List Token) :=
  match h : value? ts with
  | some (v, .sign "," :: rest) =>
    have := length_of_value? h
    (values? rest).map fun (vs, rest) => (v :: vs, rest)
  | some (v, .sign ")" :: rest) => some ([v], rest)
  | _ => none
termination_by ts.length
decreasing_by simp only [List.length_cons] at this; omega

/-- The test of a column that a negation can stand in front of. -/
def membership? (column : Column) : List Token → Option (Formula × List Token)
  | .word "IN" :: .sign "(" :: ts =>
    (values? ts).map fun (vs, rest) => (.test (.member column vs), rest)
  | .word "BETWEEN" :: ts =>
    match value? ts with
    | some (first, .word "AND" :: ts) =>
      (value? ts).map fun (last, rest) => (.test (.between column first last), rest)
    | _ => none
  | _ => none

/-- The test that stands behind a column. -/
def columnTest? (column : Column) : List Token → Option (Formula × List Token)
  | .word "NOT" :: ts => (membership? column ts).map fun (f, rest) => (.not f, rest)
  | .word "LIKE" :: ts => (value? ts).map fun (v, rest) => (.test (.like column v), rest)
  | .sign s :: ts =>
    if s ∈ ["=", "<>", ">", ">=", "<", "<="] then
      (value? ts).map fun (v, rest) => (.test (.compare column s v), rest)
    else none
  | ts => membership? column ts

/-- The test at the front of tokens, and the tokens behind it. -/
def test? : List Token → Option (Formula × List Token)
  | .name table :: .sign "." :: .name name :: ts => columnTest? ⟨table, name⟩ ts
  | .number m :: .sign "=" :: .number n :: rest =>
    (Text.natural? m).bind fun i =>
      (Text.natural? n).map fun j => (.constant (decide (i = j)), rest)
  | .word "FALSE" :: rest => some (.constant false, rest)
  | _ => none

/-! ### Formulas -/

/-- What binds together: a test, or a formula in parentheses; a chain of these with `AND`; a chain
of such chains with `OR`. -/
inductive Level
  | factor
  | term
  | whole

/-- The formula at the front of tokens, and the tokens behind it. -/
inductive Reads : Level → List Token → Formula → List Token → Prop
  | test {ts f rest} (h : test? ts = some (f, rest)) : Reads .factor ts f rest
  | parenthesis {ts f rest} (h : Reads .whole ts f (.sign ")" :: rest)) :
      Reads .factor (.sign "(" :: ts) f rest
  | factor {ts f rest} (h : Reads .factor ts f rest) (hrest : rest.head? ≠ some (.word "AND")) :
      Reads .term ts f rest
  | and {ts us f g rest} (hf : Reads .factor ts f (.word "AND" :: us))
      (hg : Reads .term us g rest) : Reads .term ts (.and f g) rest
  | term {ts f rest} (h : Reads .term ts f rest) (hrest : rest.head? ≠ some (.word "OR")) :
      Reads .whole ts f rest
  | or {ts us f g rest} (hf : Reads .term ts f (.word "OR" :: us))
      (hg : Reads .whole us g rest) : Reads .whole ts (.or f g) rest

namespace Reads

/-- **A formula is read in one way.** -/
theorem unique {level : Level} {ts r s : List Token} {f g : Formula} (hf : Reads level ts f r)
    (hg : Reads level ts g s) : f = g ∧ r = s := by
  induction hf generalizing g s with
  | test h =>
      cases hg with
      | test h' => simpa [h] using h'
      | parenthesis _ => cases h
  | parenthesis _ ih =>
      cases hg with
      | test h' => cases h'
      | parenthesis hg =>
          obtain ⟨rfl, hrest⟩ := ih hg
          exact ⟨rfl, (List.cons.inj hrest).2⟩
  | factor _ hrest ih =>
      cases hg with
      | factor hg _ => exact ih hg
      | and hg _ =>
          obtain ⟨-, rfl⟩ := ih hg
          exact absurd rfl hrest
  | and _ _ ihf ihg =>
      cases hg with
      | factor hg hrest =>
          obtain ⟨-, rfl⟩ := ihf hg
          exact absurd rfl hrest
      | and hg hg' =>
          obtain ⟨rfl, hrest⟩ := ihf hg
          obtain ⟨rfl, rfl⟩ := ihg ((List.cons.inj hrest).2 ▸ hg')
          exact ⟨rfl, rfl⟩
  | term _ hrest ih =>
      cases hg with
      | term hg _ => exact ih hg
      | or hg _ =>
          obtain ⟨-, rfl⟩ := ih hg
          exact absurd rfl hrest
  | or _ _ ihf ihg =>
      cases hg with
      | term hg hrest =>
          obtain ⟨-, rfl⟩ := ihf hg
          exact absurd rfl hrest
      | or hg hg' =>
          obtain ⟨rfl, hrest⟩ := ihf hg
          obtain ⟨rfl, rfl⟩ := ihg ((List.cons.inj hrest).2 ▸ hg')
          exact ⟨rfl, rfl⟩

end Reads

/-! ### The clause of a statement -/

/-- Whether a clause ends in front of tokens. -/
def EndsClause (rest : List Token) : Prop :=
  ∀ t ∈ rest.head?, t ∈ ["ORDER", "LIMIT", "OFFSET"].map Token.word

/-- What ends a clause begins with no other word. -/
theorem EndsClause.head?_ne {rest : List Token} (h : EndsClause rest) {w : String}
    (hw : w ∉ ["ORDER", "LIMIT", "OFFSET"]) : rest.head? ≠ some (.word w) := by
  intro hhead
  obtain ⟨_, hmem, heq⟩ := List.mem_map.mp (h _ hhead)
  exact hw (Token.word.inj heq ▸ hmem)

/-- The tokens of a statement have a `WHERE` clause, which is read as a formula. -/
def Constrains (ts : List Token) (f : Formula) : Prop :=
  ∃ clause rest, ts.dropWhile (· ≠ .word "WHERE") = .word "WHERE" :: clause ∧
    Reads .whole clause f rest ∧ EndsClause rest

/-- **A statement is constrained in one way.** -/
theorem Constrains.unique {ts : List Token} {f g : Formula} (hf : Constrains ts f)
    (hg : Constrains ts g) : f = g := by
  obtain ⟨clause, rest, hclause, hreads, -⟩ := hf
  obtain ⟨clause', rest', hclause', hreads', -⟩ := hg
  rw [hclause] at hclause'
  obtain rfl : clause = clause' := (List.cons.inj hclause').2
  exact (hreads.unique hreads').1

/-- Without the word there is no clause. -/
theorem Constrains.mem {ts : List Token} {f : Formula} (h : Constrains ts f) :
    .word "WHERE" ∈ ts := by
  obtain ⟨clause, -, hclause, -⟩ := h
  have hsuffix := List.dropWhile_suffix (l := ts) (· ≠ Token.word "WHERE")
  rw [hclause] at hsuffix
  exact hsuffix.mem List.mem_cons_self

end ResourceQuery.Sql
