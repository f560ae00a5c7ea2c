import ResourceQuery.Proofs.Sql.Lexer

/-!
# Pieces keep apart

The pieces of a statement are written one right behind the other, so a text can only be cut into
them again if no piece runs on into the next. This module states what is needed of two neighbours,
`Piece.mayPrecede`, and shows it for all neighbours in a statement: behind a word, a value or an
operator there is a space, a comma or a closing parenthesis; behind a name there may also be a
point; and the punctuation characters stand in front of anything.

A list of pieces is built by appending, mostly of something that begins with a space. So the
induction is done once, in `Piece.WellSpaced.append` and `Piece.WellSpaced.join`, and every clause
of a statement is an instance.

## Main statements

* `Piece.WellSpaced.append`, `Piece.WellSpaced.join`: how lists of pieces are put together.
* `Statement.wellSpaced_pieces`: the pieces of every statement keep apart.
-/

namespace ResourceQuery

namespace Piece

/-- Whether a piece ends whatever piece it stands behind. -/
def isDelimiter (p : Piece) : Bool :=
  p = .space || p = .sign "," || p = .sign ")"

/-- Whether the characters are a sign that stands in front of anything. -/
def isPunctuation (characters : String) : Bool :=
  characters ∈ ["(", ")", ",", "."]

/-- Whether a piece is of the forms that statements are made of: words have no digits, and signs are
punctuation or operators. -/
def isPlain : Piece → Bool
  | .word letters => Sql.isWord letters
  | .sign characters => isPunctuation characters || characters ∈ Sql.operators
  | _ => true

/-- Whether a piece does not run on into a piece behind it. -/
def mayPrecede : Piece → Piece → Bool
  | .space, _ => true
  | .sign characters, q => isPunctuation characters || q.isDelimiter
  | .name _, q => q = .sign "." || q.isDelimiter
  | _, q => q.isDelimiter

/-- Plain pieces, none of which runs on into the next. -/
def WellSpaced : List Piece → Prop
  | [] => True
  | p :: ps => p.isPlain = true ∧ (∀ q ∈ ps.head?, p.mayPrecede q = true) ∧ WellSpaced ps

/-- Well spaced pieces that begin with a delimiter, if they begin at all, and so stand behind
anything. -/
structure Trails (ps : List Piece) : Prop where
  wellSpaced : WellSpaced ps
  head : ∀ q ∈ ps.head?, q.isDelimiter = true

/-- A delimiter stands behind anything. -/
theorem mayPrecede_of_isDelimiter (p : Piece) {q : Piece} (h : q.isDelimiter = true) :
    p.mayPrecede q = true := by
  cases p <;> simp [mayPrecede, h]

/-- Well spaced pieces trail when the first of them is a delimiter. -/
theorem Trails.cons {p : Piece} {ps : List Piece} (hp : p.isDelimiter = true)
    (h : WellSpaced (p :: ps)) : Trails (p :: ps) :=
  ⟨h, by rintro q ⟨⟩; exact hp⟩

namespace WellSpaced

/-- Pieces are well spaced when the first two keep apart and the rest is well spaced. -/
@[simp] theorem cons_cons_iff {p q : Piece} {ps : List Piece} :
    WellSpaced (p :: q :: ps) ↔
      p.isPlain = true ∧ p.mayPrecede q = true ∧ WellSpaced (q :: ps) := by
  simp [WellSpaced]

/-- One piece is well spaced when it is plain. -/
@[simp] theorem singleton_iff {p : Piece} : WellSpaced [p] ↔ p.isPlain = true := by
  simp [WellSpaced]

/-- An opening parenthesis stands in front of anything. -/
theorem cons_parenthesis {ps : List Piece} (h : WellSpaced ps) : WellSpaced (.sign "(" :: ps) :=
  ⟨by decide, fun _ _ => rfl, h⟩

/-- A space stands between anything. -/
theorem cons_space {ps : List Piece} (h : WellSpaced ps) : Trails (.space :: ps) :=
  .cons rfl ⟨rfl, fun _ _ => rfl, h⟩

/-- A comma stands between anything. -/
theorem cons_comma {ps : List Piece} (h : WellSpaced ps) : Trails (.sign "," :: ps) :=
  .cons rfl ⟨by decide, fun _ _ => rfl, h⟩

/-- A word and a space stand in front of anything. -/
theorem cons_word {w : String} (hw : Sql.isWord w = true) {ps : List Piece} (h : WellSpaced ps) :
    WellSpaced (.word w :: .space :: ps) :=
  ⟨hw, by rintro q ⟨⟩; rfl, h.cons_space.wellSpaced⟩

/-- A word between spaces stands between anything. -/
theorem spaced {w : String} (hw : Sql.isWord w = true) {ps : List Piece} (h : WellSpaced ps) :
    Trails (Piece.spaced w ++ ps) :=
  (h.cons_word hw).cons_space

/-- **What begins with a delimiter stands behind anything.** -/
theorem append {ps qs : List Piece} (hps : WellSpaced ps) (hqs : Trails qs) :
    WellSpaced (ps ++ qs) := by
  induction ps with
  | nil => exact hqs.wellSpaced
  | cons p ps ih =>
      obtain ⟨hplain, hprecede, hrest⟩ := hps
      refine ⟨hplain, ?_, ih hrest⟩
      intro q hq
      cases ps with
      | nil => exact mayPrecede_of_isDelimiter p (hqs.head q hq)
      | cons _ _ => exact hprecede q hq

/-- Lists of pieces keep apart when a separator keeps them apart. -/
theorem join {separator : List Piece} (hseparator : ∀ ps, WellSpaced ps → Trails (separator ++ ps))
    {parts : List (List Piece)} (h : ∀ ps ∈ parts, WellSpaced ps) :
    WellSpaced (Piece.join separator parts) := by
  induction parts using Piece.join.induct with
  | case1 => trivial
  | case2 ps => exact h ps (List.mem_singleton_self ps)
  | case3 ps rest hrest ih =>
      obtain ⟨hfirst, hothers⟩ := List.forall_mem_cons.mp h
      rw [Piece.join, List.append_assoc]
      · exact hfirst.append (hseparator _ (ih hothers))
      · exact hrest

/-- Lists of pieces with a word between each two of them. -/
theorem join_spaced {w : String} (hw : Sql.isWord w = true) {parts : List (List Piece)}
    (h : ∀ ps ∈ parts, WellSpaced ps) : WellSpaced (Piece.join (Piece.spaced w) parts) :=
  join (fun _ hps => hps.spaced hw) h

/-- Lists of pieces with a comma between each two of them. -/
theorem join_comma {parts : List (List Piece)} (h : ∀ ps ∈ parts, WellSpaced ps) :
    WellSpaced (Piece.join comma parts) :=
  join (fun _ hps => hps.cons_space.wellSpaced.cons_comma) h

/-- Pieces in parentheses, if these are asked for. -/
theorem parenthesized {ps : List Piece} (h : WellSpaced ps) (asked : Bool) :
    WellSpaced (Piece.parenthesized asked ps) := by
  cases asked with
  | false => exact h
  | true => exact (h.append (.cons rfl (singleton_iff.mpr (by decide)))).cons_parenthesis

end WellSpaced

end Piece

open Piece

/-! ### Conditions -/

/-- The names of a column and the point between them keep apart. -/
theorem Column.wellSpaced_pieces (c : Column) : WellSpaced c.pieces := by
  simp [Column.pieces, isPlain, mayPrecede, isPunctuation]

/-- The sign of a comparison is an operator. -/
theorem Comparison.sign_mem_operators (comparison : Comparison) :
    comparison.sign ∈ Sql.operators := by
  cases comparison <;> decide

/-- The pieces of a test keep apart. -/
theorem Atom.wellSpaced_pieces (t : Atom) : WellSpaced t.pieces := by
  cases t with
  | compare column comparison v =>
      have htest : WellSpaced [.sign comparison.sign, .space, .value v] := by
        simp [isPlain, mayPrecede, isDelimiter, comparison.sign_mem_operators]
      exact column.wellSpaced_pieces.append htest.cons_space
  | like column pattern =>
      have hpattern : WellSpaced [.value (.scalar (.string pattern))] :=
        WellSpaced.singleton_iff.mpr rfl
      rw [Atom.pieces, List.append_assoc]
      exact column.wellSpaced_pieces.append (hpattern.spaced (by decide))

namespace Condition

/-- A column, possibly a negation, and a test behind them. -/
theorem wellSpaced_negation_append (column : Column) (negated : Bool) {ps : List Piece}
    (h : Trails ps) : WellSpaced (column.pieces ++ negation negated ++ ps) := by
  have hnegation : Trails (negation negated) := by
    cases negated with
    | false => exact ⟨trivial, by simp [negation]⟩
    | true => exact WellSpaced.cons_space (WellSpaced.singleton_iff.mpr (by decide))
  exact (column.wellSpaced_pieces.append hnegation).append h

/-- The pieces of a condition keep apart. -/
theorem wellSpaced_pieces (amongOthers : Bool) (c : Condition) :
    WellSpaced (c.pieces amongOthers) := by
  cases c with
  | atom t => exact t.wellSpaced_pieces
  | member column negated values =>
      cases values with
      | nil => simp [pieces, isPlain, mayPrecede, isDelimiter]; decide
      | cons v values =>
          have hvalues : WellSpaced (join comma ((v :: values).map fun v => [.value v])) := by
            refine WellSpaced.join_comma fun ps hps => ?_
            obtain ⟨v, -, rfl⟩ := List.mem_map.mp hps
            exact WellSpaced.singleton_iff.mpr rfl
          rw [pieces, List.append_assoc _ (Piece.spaced "IN")]
          exact wellSpaced_negation_append column negated
            ((hvalues.parenthesized true).spaced (by decide))
  | between column negated first last =>
      have hlast : WellSpaced [.value last] := WellSpaced.singleton_iff.mpr rfl
      have hfirst : WellSpaced [.value first] := WellSpaced.singleton_iff.mpr rfl
      have hbounds := hfirst.append (hlast.spaced (w := "AND") (by decide))
      have htest := wellSpaced_negation_append column negated
        (hbounds.spaced (w := "BETWEEN") (by decide))
      exact WellSpaced.parenthesized (by simpa only [List.append_assoc] using htest) amongOthers
  | anyOf atoms =>
      have hatoms : ∀ ps ∈ atoms.map Atom.pieces, WellSpaced ps := by
        intro ps hps
        obtain ⟨t, -, rfl⟩ := List.mem_map.mp hps
        exact t.wellSpaced_pieces
      rcases atoms with - | ⟨t, - | ⟨u, rest⟩⟩
      · exact WellSpaced.singleton_iff.mpr (by decide)
      · exact t.wellSpaced_pieces
      · exact (WellSpaced.join_spaced (by decide) hatoms).parenthesized amongOthers
  | never =>
      exact WellSpaced.parenthesized (WellSpaced.singleton_iff.mpr (by decide)) amongOthers

end Condition

/-! ### Clauses -/

namespace Statement

/-- The pieces of the selected columns keep apart. -/
theorem wellSpaced_columnPieces (statement : Statement) : WellSpaced statement.columnPieces := by
  unfold columnPieces
  split
  · simp [isPlain, mayPrecede, isPunctuation]
    decide
  · refine WellSpaced.join_comma fun ps hps => ?_
    obtain ⟨name, -, rfl⟩ := List.mem_map.mp hps
    exact Column.wellSpaced_pieces _

/-- The pieces of the conditions stand behind anything. -/
theorem trails_conditionPieces (statement : Statement) : Trails statement.conditionPieces := by
  unfold conditionPieces
  split
  · exact ⟨trivial, by simp⟩
  · refine WellSpaced.spaced (by decide) (WellSpaced.join_spaced (by decide) fun ps hps => ?_)
    obtain ⟨c, -, rfl⟩ := List.mem_map.mp hps
    exact c.wellSpaced_pieces _

/-- The pieces of the sort keys stand behind anything. -/
theorem trails_orderPieces (statement : Statement) : Trails statement.orderPieces := by
  unfold orderPieces
  split
  · exact ⟨trivial, by simp⟩
  · rw [List.append_assoc]
    refine ((WellSpaced.join_comma fun ps hps => ?_).cons_word (by decide)).spaced (by decide)
    obtain ⟨⟨column, direction⟩, -, rfl⟩ := List.mem_map.mp hps
    have hword : WellSpaced [.word (directionWord direction)] :=
      WellSpaced.singleton_iff.mpr (by cases direction <;> decide)
    exact column.wellSpaced_pieces.append hword.cons_space

/-- The pieces of a number of rows stand behind anything. -/
theorem trails_countPieces {letters : String} (hw : Sql.isWord letters = true)
    (count : Option UInt64) : Trails (countPieces letters count) := by
  cases count with
  | none => exact ⟨trivial, by simp [countPieces]⟩
  | some n => exact WellSpaced.spaced hw (WellSpaced.singleton_iff.mpr rfl)

/-- **The pieces of a statement keep apart**, whatever names and values it has. -/
theorem wellSpaced_pieces (statement : Statement) : WellSpaced statement.pieces := by
  have htable : WellSpaced [.name statement.table] := WellSpaced.singleton_iff.mpr rfl
  have hcolumns : WellSpaced ([.word "SELECT", .space] ++ statement.columnPieces) :=
    statement.wellSpaced_columnPieces.cons_word (by decide)
  rw [pieces, List.append_assoc _ (Piece.spaced "FROM")]
  exact hcolumns.append (htable.spaced (by decide))
    |>.append statement.trails_conditionPieces
    |>.append statement.trails_orderPieces
    |>.append (trails_countPieces (by decide) statement.limit)
    |>.append (trails_countPieces (by decide) statement.offset)

end Statement

end ResourceQuery
