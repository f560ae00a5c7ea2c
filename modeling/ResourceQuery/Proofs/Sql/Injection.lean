import ResourceQuery.Proofs.Sql.Tokens

/-!
# Strings do not change the structure of a statement

What clients send reaches a statement as strings, and a string is one literal of the text, whatever
characters it has. So two lists of parts that differ in the contents of their strings only give
texts that differ in the contents of their literals only.

The contents are masked to say so. Masking the parts masks the statement (`Statement.masked_apply`,
a step at a time), and masking a statement masks its pieces, so the tokens are the same up to the
masked literals. What remains, the contents themselves, are those of the strings among the values.

## Main definitions

* `Part.masked`, `Sql.Token.masked`: without the contents of strings.
* `Sql.Token.ofString`: the token of a string that is written out.

## Main statements

* `Statement.masked_applyAll`: parts that are alike make statements that are alike.
* `Statement.masked_tokens`: statements that are alike have tokens that are alike.
* `Statement.bodies_tokens`: the strings among the tokens are those of the values.
-/

namespace ResourceQuery

open Sql

/-! ### Masks -/

/-- A scalar without the contents of a string. -/
def Scalar.masked : Scalar → Scalar
  | .string _ => .string ""
  | v => v

/-- An operand without the contents of its strings. -/
def Operand.masked : Operand → Operand
  | .scalar v => .scalar v.masked
  | .list vs => .list (vs.map Scalar.masked)
  | .range a b => .range a.masked b.masked

/-- A part without the contents of its strings. Of the value of a search there remains whether it is
empty, since an empty one asks for no search. -/
def Part.masked : Part → Part
  | .filter p => .filter { p with operand := p.operand.masked }
  | .search term => .search { term with value := if term.value = "" then "" else "%" }
  | part => part

/-- A token without the contents of a string. -/
def Sql.Token.masked : Token → Token
  | .string _ _ => .string false []
  | token => token

/-- Whether a token is a name or a string. -/
def Sql.Token.isMention : Token → Bool
  | .name _ | .string _ _ => true
  | _ => false

/-- What is written between the quotes of a token, if it is a string. -/
def Sql.Token.body? : Token → Option (List Char)
  | .string _ body => some body
  | _ => none

/-- The token of a string that is written out. -/
def Sql.Token.ofString (s : String) : Token :=
  let body := s.toList.flatMap Literal.escapeChar
  .string (decide ('\\' ∈ body)) body

/-- A value without the contents of a string. -/
def Literal.masked : Literal → Literal
  | .scalar v => .scalar v.masked
  | v => v

/-- The string that a value is. -/
def Literal.string? : Literal → Option String
  | .scalar v => v.string?
  | _ => none

/-- A piece without the contents of a string. -/
def Piece.masked : Piece → Piece
  | .value v => .value v.masked
  | p => p

/-- A test without the contents of its strings. -/
def Atom.masked : Atom → Atom
  | .compare column comparison v => .compare column comparison v.masked
  | .like column _ => .like column ""

/-- A condition without the contents of its strings. -/
def Condition.masked : Condition → Condition
  | .atom t => .atom t.masked
  | .member column negated values => .member column negated (values.map Literal.masked)
  | .between column negated first last => .between column negated first.masked last.masked
  | .anyOf atoms => .anyOf (atoms.map Atom.masked)
  | .never => .never

/-- A statement without the contents of its strings. -/
def Statement.masked (statement : Statement) : Statement :=
  { statement with conditions := statement.conditions.map Condition.masked }

/-- Masking a scalar twice is masking it once. -/
@[simp] theorem Scalar.masked_masked (v : Scalar) : v.masked.masked = v.masked := by
  cases v <;> rfl

/-- Masking a value twice is masking it once. -/
@[simp] theorem Literal.masked_masked (v : Literal) : v.masked.masked = v.masked := by
  cases v <;> simp [masked]

/-- Masking a test twice is masking it once. -/
@[simp] theorem Atom.masked_masked (t : Atom) : t.masked.masked = t.masked := by
  cases t <;> simp [masked]

/-- Masking a condition twice is masking it once. -/
@[simp] theorem Condition.masked_masked (c : Condition) : c.masked.masked = c.masked := by
  cases c <;> simp [masked]

/-! ### Masked parts make masked statements -/

namespace Condition

/-- The contents of an operand's strings are only found in the strings of an ordering comparison. -/
theorem masked_ordering (column : Column) (comparison : Comparison) (operand : Operand) :
    (ordering column comparison operand.masked).masked
      = (ordering column comparison operand).masked := by
  cases operand <;> simp [ordering, Operand.masked, masked, Atom.masked, Literal.masked]

/-- The contents of an operand's strings are only found in the strings of a test for equality. -/
theorem masked_equality (column : Column) (negated : Bool) (operand : Operand) :
    (equality column negated operand.masked).masked = (equality column negated operand).masked := by
  cases operand <;> simp [equality, Operand.masked, masked, Atom.masked, Literal.masked]

/-- The contents of an operand's strings are only found in the strings of a range. -/
theorem masked_range (column : Column) (negated : Bool) (operand : Operand) :
    (range column negated operand.masked).masked = (range column negated operand).masked := by
  cases operand <;> simp [range, Operand.masked, masked, Literal.masked]

/-- The contents of an operand's strings are only found in the strings of its condition. -/
theorem masked_ofOperator (column : Column) (op : Operator) (operand : Operand) :
    (ofOperator column op operand.masked).masked = (ofOperator column op operand).masked := by
  cases op with
  | eq | oneOf => exact masked_equality column false operand
  | ne | noneOf => exact masked_equality column true operand
  | gt | gte | lt | lte => exact masked_ordering column _ operand
  | between => exact masked_range column false operand
  | notBetween => exact masked_range column true operand
  | contains => cases operand <;> rfl

end Condition

namespace Statement

/-- **A masked part makes a masked statement** of a masked one. -/
theorem masked_apply (statement : Statement) (part : Part) :
    (statement.masked.apply part.masked).masked = (statement.apply part).masked := by
  cases part with
  | columns names => simp [apply, Part.masked, masked]
  | filter p =>
      simp [apply, Part.masked, masked, restrict, Condition.ofPredicate,
        Condition.masked_ofOperator]
  | window w => simp [apply, Part.masked, masked]
  | sort key =>
      cases hcolumn : key.column? <;> simp [apply, Part.masked, masked, hcolumn]
  | search term =>
      have hnoop : ({ term with value := if term.value = "" then "" else "%" } : SearchTerm).isNoop
          = term.isNoop := by
        by_cases hvalue : term.value = "" <;> simp [SearchTerm.isNoop, hvalue]
      have hcondition : (Condition.ofSearch statement.table
            { term with value := if term.value = "" then "" else "%" }).masked
          = (Condition.ofSearch statement.table term).masked := by
        simp [Condition.ofSearch, Condition.masked, Condition.containing, Atom.masked]
      by_cases hterm : term.isNoop = true
      · simp [apply, Part.masked, masked, hnoop, hterm]
      · simp [apply, Part.masked, masked, restrict, hnoop, hterm, hcondition]

/-- **Parts that are alike make statements that are alike**: the run of `masked_apply`. -/
theorem masked_applyAll {statement statement' : Statement} {parts parts' : List Part}
    (hstatement : statement.masked = statement'.masked)
    (hparts : parts.map Part.masked = parts'.map Part.masked) :
    (statement.applyAll parts).masked = (statement'.applyAll parts').masked := by
  induction parts generalizing statement statement' parts' with
  | nil =>
      obtain rfl : parts' = [] := List.map_eq_nil_iff.mp hparts.symm
      exact hstatement
  | cons part rest ih =>
      obtain ⟨part', rest', rfl, hpart, hrest⟩ := List.map_eq_cons_iff.mp hparts.symm
      change ((statement.apply part).applyAll rest).masked
        = ((statement'.apply part').applyAll rest').masked
      refine ih ?_ hrest.symm
      calc (statement.apply part).masked
          = (statement.masked.apply part.masked).masked := (masked_apply statement part).symm
        _ = (statement'.masked.apply part'.masked).masked := by rw [hstatement, hpart]
        _ = (statement'.apply part').masked := masked_apply statement' part'

end Statement

/-! ### Masked statements have masked pieces -/

/-- What is done to each piece is done to the parts of a list with a separator. -/
theorem Piece.map_join (f : Piece → Piece) (separator : List Piece) (parts : List (List Piece)) :
    (join separator parts).map f = join (separator.map f) (parts.map (List.map f)) := by
  induction parts using Piece.join.induct with
  | case1 => rfl
  | case2 ps => rfl
  | case3 ps rest hrest ih =>
      rw [join, List.map_append, List.map_append, ih, List.map_cons, join]
      · exact fun h => hrest (List.map_eq_nil_iff.mp h)
      · exact hrest

/-- Masking what stands in parentheses leaves the parentheses. -/
theorem Piece.masked_parenthesized (asked : Bool) (ps : List Piece) :
    (parenthesized asked ps).map masked = parenthesized asked (ps.map masked) := by
  cases asked <;> simp [parenthesized, masked]

/-- Columns have no value. -/
theorem Column.masked_pieces (c : Column) : c.pieces.map Piece.masked = c.pieces := rfl

/-- Masking the pieces of a test is masking the test. -/
theorem Atom.masked_pieces (t : Atom) : t.pieces.map Piece.masked = t.masked.pieces := by
  cases t <;> rfl

/-- Negations have no value. -/
theorem Condition.masked_negation (negated : Bool) :
    (negation negated).map Piece.masked = negation negated := by
  cases negated <;> rfl

/-- Masking the pieces of a condition is masking the condition. -/
theorem Condition.masked_pieces (amongOthers : Bool) (c : Condition) :
    (c.pieces amongOthers).map Piece.masked = c.masked.pieces amongOthers := by
  cases c with
  | atom t => exact t.masked_pieces
  | member column negated values =>
      cases values with
      | nil => rfl
      | cons v values =>
          simp [pieces, masked, Piece.masked_parenthesized, Piece.map_join, masked_negation,
            Column.masked_pieces, Function.comp_def, Piece.comma, Piece.spaced, Piece.masked]
  | between column negated first last =>
      simp [pieces, masked, Piece.masked_parenthesized, masked_negation, Column.masked_pieces,
        Piece.spaced, Piece.masked]
  | anyOf atoms =>
      rcases atoms with - | ⟨t, - | ⟨u, rest⟩⟩
      · rfl
      · exact t.masked_pieces
      · simp [pieces, masked, Piece.masked_parenthesized, Piece.map_join, Atom.masked_pieces,
          Function.comp_def, Piece.spaced, Piece.masked]
  | never => simp [pieces, masked, Piece.masked_parenthesized, Piece.masked]

namespace Statement

/-- Masking the pieces of the conditions is masking the statement. -/
theorem masked_conditionPieces (statement : Statement) :
    statement.conditionPieces.map Piece.masked = statement.masked.conditionPieces := by
  cases hconditions : statement.conditions with
  | nil => simp [conditionPieces, masked, hconditions]
  | cons c rest =>
      have hlength : (statement.conditions.map Condition.masked).length
          = statement.conditions.length := List.length_map _
      simp only [conditionPieces, masked, hconditions, List.map_cons, List.map_append,
        Piece.map_join, List.map_map, List.length_cons, List.length_map, Function.comp_def,
        Condition.masked_pieces]
      rfl

/-- Columns have no value. -/
theorem masked_columnPieces (statement : Statement) :
    statement.columnPieces.map Piece.masked = statement.columnPieces := by
  cases hcolumns : statement.columns with
  | nil => simp [columnPieces, hcolumns, Piece.masked]
  | cons name rest =>
      simp only [columnPieces, hcolumns, Piece.map_join, List.map_map, Function.comp_def,
        Column.masked_pieces]
      rfl

/-- Sort keys have no value. -/
theorem masked_orderPieces (statement : Statement) :
    statement.orderPieces.map Piece.masked = statement.orderPieces := by
  cases horder : statement.order with
  | nil => simp [orderPieces, horder]
  | cons key rest =>
      simp only [orderPieces, horder, List.map_append, Piece.map_join, List.map_map,
        Function.comp_def, Column.masked_pieces]
      rfl

/-- A number of rows is no string. -/
theorem masked_countPieces (letters : String) (count : Option UInt64) :
    (countPieces letters count).map Piece.masked = countPieces letters count := by
  cases count <;> rfl

/-- **Masking the pieces of a statement is masking the statement.** -/
theorem masked_pieces (statement : Statement) :
    statement.pieces.map Piece.masked = statement.masked.pieces := by
  simp only [pieces, List.map_append, masked_columnPieces, masked_conditionPieces,
    masked_orderPieces, masked_countPieces]
  rfl

end Statement

/-! ### Tokens -/

/-- A masked piece has the same tokens but for the contents of a string. -/
theorem Piece.masked_tokens (p : Piece) :
    p.masked.tokens.map Token.masked = p.tokens.map Token.masked := by
  cases p with
  | value v =>
      cases v with
      | scalar v => cases v <;> rfl
      | constant n => rfl
      | count n => rfl
  | _ => rfl

/-- A token that is neither a name nor a string has no contents. -/
theorem Sql.Token.body?_of_not_isMention {token : Token} (h : token.isMention = false) :
    token.body? = none := by
  cases token with
  | string escapes body => cases h
  | _ => rfl

/-- A value that is no string is written without names and without strings. -/
theorem Literal.isMention_of_mem_tokens {v : Literal} (hv : v.string? = none) {token : Token}
    (h : token ∈ v.tokens) : token.isMention = false := by
  have hall : ∀ token ∈ v.tokens, token.isMention = false := by
    cases v with
    | scalar v =>
        cases v with
        | boolean b => cases b <;> simp [tokens, Token.isMention]
        | integer i =>
            simp only [tokens]
            cases i.toInt <;> simp [Token.isMention]
        | float d =>
            simp only [tokens]
            cases d.isNaN <;> cases d.isFinite <;> cases d.negative <;> simp [Token.isMention]
        | string s => cases hv
    | constant n => simp [tokens, Token.isMention]
    | count n => simp [tokens, Token.isMention]
  exact hall token h

/-- What is read off the strings among the tokens of a piece is read off the string of its value, as
it is written. -/
theorem Piece.filterMap_tokens {α : Type} {f : Token → Option α}
    (hf : ∀ token, token.body? = none → f token = none) (p : Piece) :
    p.tokens.filterMap f
      = ((p.value?.bind Literal.string?).bind fun s => f (Token.ofString s)).toList := by
  have hother : ∀ {ts : List Token}, (∀ token ∈ ts, token.body? = none) → ts.filterMap f = [] :=
    fun h => List.filterMap_eq_nil_iff.mpr fun token hm => hf token (h token hm)
  cases p with
  | value v =>
      cases hv : v.string? with
      | none =>
          have hnone : v.tokens.filterMap f = [] := hother fun _ hm =>
            Token.body?_of_not_isMention (Literal.isMention_of_mem_tokens hv hm)
          simp [tokens, value?, hv, hnone]
      | some s =>
          obtain rfl : v = .scalar (.string s) := by
            cases v with
            | scalar v => cases v <;> cases hv; rfl
            | _ => cases hv
          change [Token.ofString s].filterMap f = (f (Token.ofString s)).toList
          cases hread : f (Token.ofString s) <;> simp [hread]
  | _ => exact hother (by simp [tokens, Token.body?])

namespace Statement

/-- Statements that are alike have tokens that are alike. -/
theorem masked_tokens {statement statement' : Statement}
    (h : statement.masked = statement'.masked) :
    statement.tokens.map Token.masked = statement'.tokens.map Token.masked := by
  have hmasked : ∀ s : Statement,
      s.tokens.map Token.masked = s.masked.tokens.map Token.masked := by
    intro s
    rw [tokens, tokens, ← masked_pieces, List.map_flatMap, List.map_flatMap, List.flatMap_map]
    exact List.flatMap_congr fun p _ => (Piece.masked_tokens p).symm
  rw [hmasked, h, ← hmasked]

/-- What is read off the strings among the tokens of a statement is read off those of its values, in
order. -/
theorem filterMap_tokens {α : Type} {f : Token → Option α}
    (hf : ∀ token, token.body? = none → f token = none) (statement : Statement) :
    statement.tokens.filterMap f
      = (statement.values.filterMap Literal.string?).filterMap fun s => f (Token.ofString s) := by
  rw [tokens, values, List.filterMap_flatMap, List.filterMap_filterMap, List.filterMap_filterMap,
    List.filterMap_eq_flatMap_toList]
  exact List.flatMap_congr fun p _ =>
    (Piece.filterMap_tokens hf p).trans (congrArg _ (Option.bind_assoc _ _ _))

/-- The strings among the tokens of a statement are those of its values, in order. -/
theorem bodies_tokens (statement : Statement) :
    statement.tokens.filterMap Token.body?
      = (statement.values.filterMap Literal.string?).map
          fun s => s.toList.flatMap Literal.escapeChar := by
  rw [filterMap_tokens (fun _ => id), ← List.filterMap_eq_map]
  rfl

/-- A filter for a name. -/
def nameFilter (name : String) : Part :=
  .filter ⟨"owner.name", .eq, .scalar (.string name)⟩

end Statement

end ResourceQuery
