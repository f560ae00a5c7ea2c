import ResourceQuery.Proofs.Sql.Denotation
import ResourceQuery.Proofs.Sql.Gathering
import ResourceQuery.Proofs.Sql.Parts

/-!
# Names and strings are single tokens

The text of a statement mentions the names that a resource declares and the strings that a client
sends. Here the names and strings among its tokens are listed from the table and the parts alone:
each column by the name of its table and its own, each string operand by one literal, each search by
its pattern, once for every field. What the text is cut into by the rules of the database has just
these names and strings, in this order, whatever characters they have; and all the other tokens stay
the same when the contents of strings change. So no part of a name or of a string is ever read as a
part of the statement.

Which text a literal stands for is the matter of `Sql.denoted?`: it stands for the string that it
was written from, unless that has one of two control characters.

## Main definitions

* `Operator.mentions`, `Part.mentions`, `Statement.mentions`: the names and strings that a
  condition, a part and a list of parts speak of.

## Main statements

* `Statement.filter_isMention_tokens`: the names and strings among the tokens of a statement.
* `Statement.tokens_unaffected`: names and strings are single tokens, and the contents of strings
  affect no other token.
-/

namespace ResourceQuery

open Sql

/-! ### What parts mention -/

/-- A column is mentioned by two names. -/
def Column.mentions (c : Column) : List Token :=
  [.name c.table, .name c.name]

/-- Of the scalars only strings are mentioned. -/
def Scalar.mentions : Scalar → List Token
  | .string s => [.ofString s]
  | _ => []

/-- What is mentioned by a condition on a column. Alternatives repeat the column; membership in the
empty list and an operand of another shape than the operator's mention nothing. -/
def Operator.mentions (column : Column) : Operator → Operand → List Token
  | .eq, .list [] | .oneOf, .list [] | .ne, .list [] | .noneOf, .list [] => []
  | .eq, .list vs | .oneOf, .list vs | .ne, .list vs | .noneOf, .list vs =>
    column.mentions ++ vs.flatMap Scalar.mentions
  | .between, .range first last | .notBetween, .range first last =>
    column.mentions ++ first.mentions ++ last.mentions
  | .between, _ | .notBetween, _ | _, .range _ _ => []
  | .contains, .scalar v => column.mentions ++ [.ofString (Pattern.containing v.text)]
  | .contains, .list _ => []
  | _, .scalar v => column.mentions ++ v.mentions
  | _, .list vs => vs.flatMap fun v => column.mentions ++ v.mentions

namespace Part

/-- What is mentioned by the condition of a part. -/
def mentions (base : String) : Part → List Token
  | .filter p => p.operator.mentions (Column.ofField base p.field) p.operand
  | .search term =>
    if term.IsIncomplete then []
    else term.fields.flatMap fun field =>
      (Column.ofField base field).mentions ++ [.ofString (Pattern.containing term.value)]
  | _ => []

/-- What is mentioned by the sort key of a part. -/
def keyMentions (base : String) : Part → List Token
  | .sort ⟨none, _⟩ | .sort ⟨some "", _⟩ => []
  | .sort ⟨some field, _⟩ => (Column.ofField base field).mentions
  | _ => []

end Part

/-- **The names and strings of a text**, from the table and the parts: the selected columns, or all
of the table, the table itself, the conditions and the sort keys. -/
def Statement.mentions (table : String) (parts : List Part) : List Token :=
  (match parts.flatMap Part.columnNames with
    | [] => [.name table]
    | names => names.flatMap fun name => [.name table, .name name])
  ++ [.name table] ++ parts.flatMap (Part.mentions table) ++ parts.flatMap (Part.keyMentions table)

/-! ### What statements mention -/

/-- Of the values of a statement only strings are mentioned. -/
def Literal.mentions : Literal → List Token
  | .scalar v => v.mentions
  | _ => []

/-- The names and strings among the tokens of a value. -/
theorem Literal.filter_isMention_tokens (v : Literal) :
    v.tokens.filter Token.isMention = v.mentions := by
  have hnone : v.string? = none → v.tokens.filter Token.isMention = [] := fun hv =>
    List.filter_eq_nil_iff.mpr fun _ hm => by simp [isMention_of_mem_tokens hv hm]
  cases v with
  | scalar v =>
      cases v with
      | string s => rfl
      | _ => exact hnone rfl
  | _ => exact hnone rfl

/-- What is wanted of names and values, when names and strings are. -/
theorem Piece.filter_isMention_tokens (p : Piece) :
    p.tokens.filter Token.isMention = p.gather (fun s => [.name s]) Literal.mentions := by
  cases p with
  | value v => exact v.filter_isMention_tokens
  | _ => rfl

namespace Condition

/-- The condition of a predicate mentions what its operator and operand do. -/
theorem gather_ofOperator (column : Column) (op : Operator) (operand : Operand) :
    (ofOperator column op operand).gather (fun s => [.name s]) Literal.mentions
      = op.mentions column operand := by
  cases operand with
  | scalar v => cases op <;> rfl
  | list vs =>
      cases op with
      | gt | gte | lt | lte => exact gather_ordering ..
      | eq | ne | oneOf | noneOf =>
          cases vs with
          | nil => rfl
          | cons v vs => exact gather_equality ..
      | between | notBetween | contains => rfl
  | range first last => cases op <;> rfl

end Condition

namespace Part

/-- The condition of a part mentions what the part does. -/
theorem gather_condition? (base : String) (part : Part) :
    (part.condition? base).toList.flatMap
        (Condition.gather (fun s => [.name s]) Literal.mentions)
      = part.mentions base := by
  cases part with
  | filter p => simp [condition?, mentions, Condition.ofPredicate, Condition.gather_ofOperator]
  | search term =>
      by_cases hterm : term.IsIncomplete
      · simp [condition?, mentions, hterm]
      · simp only [condition?, mentions, if_neg hterm, Option.toList_some, List.flatMap_singleton,
          Condition.gather_ofSearch]
        rfl
  | _ => rfl

/-- The sort key of a part mentions what the part does. -/
theorem gather_sortKey? (base : String) (part : Part) :
    (part.sortKey? base).toList.flatMap (fun key => key.1.gather fun s => [.name s])
      = part.keyMentions base := by
  cases part with
  | sort key =>
      obtain ⟨field | field, direction⟩ := key
      · rfl
      · by_cases hfield : field = ""
        · subst hfield
          rfl
        · have hkept : (some field).filter (· ≠ "") = some field := by
            simp [Option.filter, hfield]
          simp only [sortKey?, hkept, keyMentions]
          rfl
  | _ => rfl

end Part

namespace Statement

/-- **The names and strings among the tokens of a statement** are those that its parts mention. -/
theorem filter_isMention_tokens (table : String) (parts : List Part) :
    ((start table).applyAll parts).tokens.filter Token.isMention = mentions table parts := by
  rw [tokens, List.filter_flatMap, List.flatMap_congr fun p _ => Piece.filter_isMention_tokens p,
    flatMap_gather_pieces, applyAll_eq, gather, mentions]
  have hcount : ∀ count : Option UInt64,
      count.toList.flatMap (fun n => Literal.mentions (.count n)) = [] := by
    rintro (- | n) <;> rfl
  simp only [start, List.nil_append, flatMap_filterMap (Part.gather_condition? table),
    flatMap_filterMap (Part.gather_sortKey? table), hcount, List.append_nil]
  cases parts.flatMap Part.columnNames <;> rfl

/-- **Names and strings are single tokens, and the contents of strings affect no other token.** The
text of a statement is cut into the tokens that it is written from. The names and strings among them
are those that the table and the parts mention, in order: a name is the token of that name, a string
one literal, which the database reads as that string if it can. The strings are also those of the
bound values. The column of a dotted field is cut at the last dot. Parts that differ in the contents
of their strings only, be these operands or values of searches that are not empty, give the same
tokens up to the contents of strings. -/
theorem tokens_unaffected (table : String) (parts : List Part) :
    tokens? ((start table).applyAll parts).inlined.toList
        = some ((start table).applyAll parts).tokens ∧
      ((start table).applyAll parts).tokens.filter Token.isMention = mentions table parts ∧
      (∀ s : String, '\x00' ∉ s.toList → '\x1a' ∉ s.toList →
        (Token.ofString s).denotation? = some (some s)) ∧
      ((start table).applyAll parts).tokens.filterMap Token.body?
        = (((start table).applyAll parts).values.filterMap Literal.string?).map
            (fun s => s.toList.flatMap Literal.escapeChar) ∧
      (∀ before after, '.' ∉ after →
        Column.ofField table (String.ofList (before ++ '.' :: after))
          = ⟨String.ofList before, String.ofList after⟩) ∧
      (∀ field, '.' ∉ field.toList → Column.ofField table field = ⟨table, field⟩) ∧
      ∀ parts', parts.map Part.masked = parts'.map Part.masked →
        (tokens? ((start table).applyAll parts).inlined.toList).map (List.map Token.masked)
          = (tokens? ((start table).applyAll parts').inlined.toList).map
              (List.map Token.masked) := by
  refine ⟨tokens?_inlined _, filter_isMention_tokens table parts,
    fun s hzero hsubstitute => denotation?_ofString_iff.mpr ⟨hzero, hsubstitute⟩,
    bodies_tokens _, ?_, ?_, ?_⟩
  · intro before after hafter
    rw [Column.ofField, String.toList_ofList, Text.cutLast_append hafter]
  · intro field hfield
    rw [Column.ofField, Text.cutLast_of_notMem hfield]
  · intro parts' hparts
    rw [tokens?_inlined, tokens?_inlined, Option.map_some, Option.map_some,
      masked_tokens (masked_applyAll rfl hparts)]

/-- A quote, a backslash and a comment in the text of a filter change nothing but its literal, which
stands for them. -/
theorem tokens_unaffected_quote :
    [nameFilter "Ada"].map Part.masked = [nameFilter "\\' OR 1 = 1 --"].map Part.masked ∧
      (tokens? ((start "people").applyAll [nameFilter "Ada"]).inlined.toList).map
          (List.map Token.masked)
        = (tokens? ((start "people").applyAll [nameFilter "\\' OR 1 = 1 --"]).inlined.toList).map
            (List.map Token.masked) ∧
      ((start "people").applyAll [nameFilter "\\' OR 1 = 1 --"]).tokens.filter Token.isMention
        = [.name "people", .name "people", .name "owner", .name "name",
          .ofString "\\' OR 1 = 1 --"] ∧
      (Token.ofString "\\' OR 1 = 1 --").denotation? = some (some "\\' OR 1 = 1 --") ∧
      Column.ofField "people" "owner.name" = ⟨"owner", "name"⟩ ∧
      Column.ofField "people" "name" = ⟨"people", "name"⟩ := by
  obtain ⟨-, -, -, -, -, -, halike⟩ := tokens_unaffected "people" [nameFilter "Ada"]
  obtain ⟨-, hmentions, hdenotes, -, hdotted, hplain, -⟩ :=
    tokens_unaffected "people" [nameFilter "\\' OR 1 = 1 --"]
  exact ⟨rfl, halike _ rfl, hmentions, hdenotes _ (by decide) (by decide),
    hdotted "owner".toList "name".toList (by decide), hplain "name" (by decide)⟩

end Statement

end ResourceQuery
