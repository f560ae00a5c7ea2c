import ResourceQuery.Proofs.Sql.Gathering
import ResourceQuery.Proofs.Sql.Parts
import ResourceQuery.Proofs.Sql.Spacing

/-!
# Placeholders and their values

The bound text of a statement is the inlined one with a placeholder for every value. Here a text is
cut into its placeholders and the characters between them, without regard to the statement that it
was written for: a dollar sign with digits behind it is a placeholder, unless it stands between the
quotes of a name. A quote that is written twice ends the name and opens it again, so inside and
outside alternate with every quote, and a name closes as many as it opens (`Chunk.ofText_nameText`).

The values are described by the parts that a statement is made of. The conditions come first, in the
order of the parts; behind them come the limit and the offset that were set last.

## Main definitions

* `Chunk.ofText`: a text cut at its placeholders.
* `Sql.placeholders`, `Sql.fill`: the placeholders of a text, and the text with values in their
  place.
* `Part.values`: the values that a part adds to the conditions.

## Main statements

* `Piece.WellSpaced.chunks_boundFrom`: the placeholders of a text are those that were written.
* `Part.values_filterMap_condition?`: the values of the conditions are those of the parts.
* `Statement.inlined_eq_fill_bound`: the two texts of a statement agree.
-/

namespace ResourceQuery

/-- A piece of a text with placeholders. -/
inductive Chunk
  | char (c : Char)
  /-- A placeholder, by the digits behind its dollar sign. -/
  | placeholder (digits : List Char)
deriving DecidableEq

namespace Chunk

/-- A text cut at its placeholders; `quoted` says whether it begins between double quotes. -/
def ofText (quoted : Bool) : List Char → List Chunk
  | [] => []
  | c :: cs =>
    if c = '"' then .char c :: ofText (!quoted) cs
    else if c = '$' ∧ quoted = false ∧ cs.takeWhile Char.isDigit ≠ [] then
      .placeholder (cs.takeWhile Char.isDigit) :: ofText quoted (cs.dropWhile Char.isDigit)
    else .char c :: ofText quoted cs
termination_by cs => cs.length
decreasing_by
  · simp
  · exact Nat.lt_succ_of_le (List.dropWhile_suffix _).length_le
  · simp

/-- The digits of a placeholder. -/
def digits? : Chunk → Option (List Char)
  | .char _ => none
  | .placeholder digits => some digits

/-- A chunk with values in the place of their placeholders, which are counted from one. A
placeholder without a value is left as it is. -/
def fill (values : List Literal) : Chunk → List Char
  | .char c => [c]
  | .placeholder digits =>
    match Text.value digits with
    | 0 => '$' :: digits
    | n + 1 =>
      match values[n]? with
      | none => '$' :: digits
      | some v => v.text

end Chunk

/-- The placeholders of a text, by their digits, from left to right. -/
def Sql.placeholders (text : List Char) : List (List Char) :=
  (Chunk.ofText false text).filterMap Chunk.digits?

/-- A text with values in the place of their placeholders. -/
def Sql.fill (values : List Literal) (text : List Char) : List Char :=
  (Chunk.ofText false text).flatMap (Chunk.fill values)

/-! ### Cutting written pieces -/

namespace Chunk

/-- Between quotes, and anywhere outside them but at a dollar sign, a character is itself. -/
theorem ofText_cons {quoted : Bool} {c : Char} (hquote : c ≠ '"')
    (hdollar : quoted = true ∨ c ≠ '$') (cs : List Char) :
    ofText quoted (c :: cs) = .char c :: ofText quoted cs := by
  have hplain : ¬ (c = '$' ∧ quoted = false ∧ cs.takeWhile Char.isDigit ≠ []) := by
    rintro ⟨rfl, rfl, -⟩
    simp at hdollar
  rw [ofText, if_neg hquote, if_neg hplain]

/-- A double quote leads into a name or out of it. -/
@[simp] theorem ofText_quote (quoted : Bool) (cs : List Char) :
    ofText quoted ('"' :: cs) = .char '"' :: ofText (!quoted) cs := by
  rw [ofText, if_pos rfl]

/-- Characters that are neither quotes nor dollar signs are themselves. -/
theorem ofText_append {cs : List Char} (h : ∀ c ∈ cs, c ≠ '"' ∧ c ≠ '$') (rest : List Char) :
    ofText false (cs ++ rest) = cs.map .char ++ ofText false rest := by
  induction cs with
  | nil => rfl
  | cons c cs ih =>
      obtain ⟨⟨hquote, hdollar⟩, hcs⟩ := List.forall_mem_cons.mp h
      rw [List.cons_append, ofText_cons hquote (Or.inr hdollar), ih hcs]
      rfl

/-- **A name closes the quotes that it opens**, whatever characters it has, so what stands in a name
is no placeholder. -/
theorem ofText_nameText (s : String) (rest : List Char) :
    ofText false (Piece.nameText s ++ rest)
      = (Piece.nameText s).map .char ++ ofText false rest := by
  have hinside : ∀ cs : List Char,
      ofText true ((cs.flatMap fun c => if c = '"' then ['"', '"'] else [c]) ++ '"' :: rest)
        = (cs.flatMap fun c => if c = '"' then ['"', '"'] else [c]).map .char
            ++ .char '"' :: ofText false rest := by
    intro cs
    induction cs with
    | nil => simp
    | cons c cs ih =>
        rw [List.flatMap_cons, List.append_assoc, List.map_append, List.append_assoc]
        by_cases hc : c = '"'
        · subst hc
          simpa using ih
        · rw [if_neg hc, List.singleton_append, ofText_cons hc (Or.inl rfl), ih]
          rfl
  simp [Piece.nameText, hinside]

/-- A placeholder ends where no digit stands behind it. -/
theorem ofText_placeholder (n : Nat) {rest : List Char}
    (h : ∀ c ∈ rest.head?, c.isDigit = false) :
    ofText false ('$' :: (Text.digits n ++ rest))
      = .placeholder (Text.digits n) :: ofText false rest := by
  obtain ⟨htake, hdrop⟩ := Sql.run_append (fun _ => Text.isDigit_of_mem_digits) h
  rw [ofText, if_neg (by decide), htake, hdrop, if_pos ⟨rfl, rfl, Text.digits_ne_nil n⟩]

end Chunk

namespace Piece

/-- The chunks that pieces with placeholders are written as. -/
def chunksFrom (next : Nat) : List Piece → List Chunk
  | [] => []
  | .value _ :: pieces => .placeholder (Text.digits next) :: chunksFrom (next + 1) pieces
  | piece :: pieces => piece.inlined.map .char ++ chunksFrom next pieces

/-- Only the piece of a value has that value. -/
theorem eq_of_value? {p : Piece} {v : Literal} (h : p.value? = some v) : p = .value v := by
  cases p with
  | value w => exact congrArg value (Option.some.inj h)
  | _ => cases h

/-- The equations of the two texts at a piece that is no value. -/
theorem boundFrom_cons {p : Piece} (h : p.value? = none) (next : Nat) (ps : List Piece) :
    boundFrom next (p :: ps) = p.inlined ++ boundFrom next ps ∧
      chunksFrom next (p :: ps) = p.inlined.map .char ++ chunksFrom next ps := by
  cases p with
  | value v => cases h
  | _ => exact ⟨rfl, rfl⟩

/-- Words and signs have neither quotes nor dollar signs. -/
theorem chunks_inlined_append {p : Piece} (hplain : p.isPlain = true) (hvalue : p.value? = none)
    (rest : List Char) :
    Chunk.ofText false (p.inlined ++ rest) = p.inlined.map .char ++ Chunk.ofText false rest := by
  cases p with
  | word letters =>
      refine Chunk.ofText_append (fun c hc => ?_) rest
      simp only [isPlain, Sql.isWord, Bool.and_eq_true, List.all_eq_true] at hplain
      have hword : Sql.isWordChar c = true := (hplain.2 c hc).1
      constructor <;> rintro rfl <;> cases hword
  | sign characters =>
      have hall : (["(", ")", ",", "."] ++ Sql.operators).all
          (fun s => s.toList.all fun c => c ≠ '"' && c ≠ '$') = true := by decide
      have hmem : characters ∈ ["(", ")", ",", "."] ++ Sql.operators := by
        refine List.mem_append.mpr ?_
        simpa only [isPlain, isPunctuation, Bool.or_eq_true, decide_eq_true_eq] using hplain
      refine Chunk.ofText_append (fun c hc => ?_) rest
      simpa using List.all_eq_true.mp (List.all_eq_true.mp hall characters hmem) c hc
  | space => exact Chunk.ofText_append (by simp [inlined]) rest
  | name s => exact Chunk.ofText_nameText s rest
  | value v => cases hvalue

/-- Pieces that end the piece in front of them do not begin with a digit. -/
theorem isDigit_head?_boundFrom {ps : List Piece} (h : ∀ q ∈ ps.head?, q.isDelimiter = true)
    (next : Nat) : ∀ c ∈ (boundFrom next ps).head?, c.isDigit = false := by
  cases ps with
  | nil => rintro c ⟨⟩
  | cons q ps =>
      have hq : q.isDelimiter = true := h q rfl
      simp only [isDelimiter, Bool.or_eq_true, decide_eq_true_eq] at hq
      rcases hq with (rfl | rfl) | rfl <;> rintro c ⟨⟩ <;> rfl

/-- **The placeholders of a text are those that were written.** -/
theorem WellSpaced.chunks_boundFrom {ps : List Piece} (h : WellSpaced ps) (next : Nat) :
    Chunk.ofText false (boundFrom next ps) = chunksFrom next ps := by
  induction ps generalizing next with
  | nil => simp [boundFrom, chunksFrom, Chunk.ofText]
  | cons p ps ih =>
      obtain ⟨hplain, hprecede, hrest⟩ := h
      cases hvalue : p.value? with
      | none =>
          obtain ⟨hbound, hchunks⟩ := boundFrom_cons hvalue next ps
          rw [hbound, hchunks, chunks_inlined_append hplain hvalue, ih hrest]
      | some v =>
          obtain rfl := eq_of_value? hvalue
          have hend := isDigit_head?_boundFrom hprecede (next + 1)
          rw [boundFrom, chunksFrom, Chunk.ofText_placeholder next hend, ih hrest]

/-- The placeholders are counted in the order of the values. -/
theorem digits?_chunksFrom (next : Nat) (ps : List Piece) :
    (chunksFrom next ps).filterMap Chunk.digits?
      = (List.range' next (ps.filterMap value?).length).map Text.digits := by
  induction ps generalizing next with
  | nil => rfl
  | cons p ps ih =>
      cases hvalue : p.value? with
      | none =>
          have hchars : (p.inlined.map Chunk.char).filterMap Chunk.digits? = [] := by
            simp [List.filterMap_map, Function.comp_def, Chunk.digits?]
          rw [(boundFrom_cons hvalue next ps).2, List.filterMap_append, hchars, List.nil_append,
            List.filterMap_cons_none hvalue, ih]
      | some v =>
          obtain rfl := eq_of_value? hvalue
          have hdigits : Chunk.digits? (.placeholder (Text.digits next))
              = some (Text.digits next) := rfl
          rw [chunksFrom, List.filterMap_cons_some hdigits, List.filterMap_cons_some hvalue, ih,
            List.length_cons, List.range'_succ, List.map_cons]

/-- Filling the placeholders writes the pieces out. The induction is on the pieces; the values in
front of them are those that were filled in before. -/
theorem fill_chunksFrom (before : List Literal) (ps : List Piece) :
    (chunksFrom (before.length + 1) ps).flatMap (Chunk.fill (before ++ ps.filterMap value?))
      = ps.flatMap inlined := by
  induction ps generalizing before with
  | nil => rfl
  | cons p ps ih =>
      cases hvalue : p.value? with
      | none =>
          have hchars : ∀ values,
              (p.inlined.map Chunk.char).flatMap (Chunk.fill values) = p.inlined := by
            simp [List.flatMap_map, Chunk.fill]
          rw [(boundFrom_cons hvalue _ ps).2, List.flatMap_append, hchars, List.flatMap_cons,
            List.filterMap_cons_none hvalue, ih]
      | some v =>
          obtain rfl := eq_of_value? hvalue
          have hfill : Chunk.fill (before ++ v :: ps.filterMap value?)
              (.placeholder (Text.digits (before.length + 1))) = v.text := by
            simp [Chunk.fill, Text.value_digits]
          have hrest := ih (before ++ [v])
          rw [List.length_append, List.length_singleton, List.append_assoc,
            List.singleton_append] at hrest
          rw [chunksFrom, List.filterMap_cons_some hvalue, List.flatMap_cons, List.flatMap_cons,
            hfill, hrest, inlined]

end Piece

/-! ### The values of a statement -/

/-- The values of a condition. -/
def Condition.values (c : Condition) : List Literal :=
  c.gather (fun _ => []) fun v => [v]

/-- The values that a condition needs for an operator and its operand. -/
def Operator.values : Operator → Operand → List Literal
  | .eq, .list [] | .oneOf, .list [] => [.constant 1, .constant 2]
  | .ne, .list [] | .noneOf, .list [] => [.constant 1, .constant 1]
  | .between, .range first last | .notBetween, .range first last =>
    [.scalar first, .scalar last]
  | .between, _ | .notBetween, _ | _, .range _ _ => []
  | .contains, .scalar v => [.scalar (.string (Pattern.containing v.text))]
  | .contains, .list _ => []
  | _, .scalar v => [.scalar v]
  | _, .list vs => vs.map .scalar

/-- The values that a part adds to the conditions. A search repeats its pattern for every field. -/
def Part.values : Part → List Literal
  | .filter p => p.operator.values p.operand
  | .search term =>
    if term.IsIncomplete then []
    else term.fields.map fun _ => .scalar (.string (Pattern.containing term.value))
  | _ => []

namespace Condition

/-- The condition of a predicate has the values that its operator needs. -/
theorem values_ofOperator (column : Column) (op : Operator) (operand : Operand) :
    (ofOperator column op operand).values = op.values operand := by
  cases operand with
  | scalar v => cases op <;> rfl
  | list vs =>
      cases op with
      | gt | gte | lt | lte => exact (gather_ordering ..).trans List.map_eq_flatMap.symm
      | eq | ne | oneOf | noneOf =>
          cases vs with
          | nil => rfl
          | cons v vs => exact (gather_equality ..).trans List.map_eq_flatMap.symm
      | between | notBetween | contains => rfl
  | range first last => cases op <;> rfl

/-- The condition of a search has its pattern once for every field. -/
theorem values_ofSearch (base : String) (term : SearchTerm) :
    (ofSearch base term).values
      = term.fields.map fun _ => .scalar (.string (Pattern.containing term.value)) :=
  (gather_ofSearch ..).trans List.map_eq_flatMap.symm

end Condition

/-- The condition of a part has the values of the part. -/
theorem Part.values_condition? (base : String) (part : Part) :
    (part.condition? base).toList.flatMap Condition.values = part.values := by
  cases part with
  | filter p => simp [condition?, values, Condition.ofPredicate, Condition.values_ofOperator]
  | search term =>
      by_cases hterm : term.IsIncomplete
      · simp [condition?, values, hterm]
      · simp [condition?, values, hterm, Condition.values_ofSearch]
  | _ => rfl

/-- **The values of the conditions are those of the parts, in their order.** -/
theorem Part.values_filterMap_condition? (base : String) (parts : List Part) :
    (parts.filterMap (condition? base)).flatMap Condition.values = parts.flatMap values :=
  flatMap_filterMap (values_condition? base) parts

open Sql

namespace Statement

/-- The values of a statement are those of its conditions, its limit and its offset. -/
theorem values_eq (statement : Statement) :
    statement.values
      = statement.conditions.flatMap Condition.values ++ statement.limit.toList.map .count
          ++ statement.offset.toList.map .count := by
  have hpiece : ∀ p : Piece, p.value?.toList = p.gather (fun _ => []) fun v => [v] := by
    intro p
    cases p <;> rfl
  have hnames : ∀ {β : Type} (xs : List β), xs.flatMap (fun _ => ([] : List Literal)) = [] :=
    fun xs => List.flatMap_eq_nil_iff.mpr fun _ _ => rfl
  rw [values, List.filterMap_eq_flatMap_toList, List.flatMap_congr fun p _ => hpiece p,
    flatMap_gather_pieces, gather, List.map_eq_flatMap, List.map_eq_flatMap]
  simp only [Column.gather, hnames, ite_self, List.nil_append, List.append_nil]
  rfl

/-- **The two texts of a statement agree.** The placeholders of the bound text, outside of names,
are `$1`, `$2` and so on, one for each value, and with the values in their place the bound text is
the inlined one. The values are those of the conditions in the order of the parts, then the limit
and then the offset, as these were set last. -/
theorem inlined_eq_fill_bound (table : String) (parts : List Part) :
    placeholders ((start table).applyAll parts).bound.toList
        = (List.range' 1 ((start table).applyAll parts).values.length).map Text.digits ∧
      fill ((start table).applyAll parts).values ((start table).applyAll parts).bound.toList
        = ((start table).applyAll parts).inlined.toList ∧
      ((start table).applyAll parts).values
        = parts.flatMap Part.values
            ++ (parts.filterMap Part.limit?).getLast?.toList.map .count
            ++ (parts.filterMap Part.offset?).getLast?.toList.map .count := by
  have hchunks : ∀ statement : Statement,
      Chunk.ofText false statement.bound.toList = Piece.chunksFrom 1 statement.pieces := by
    intro statement
    rw [bound, String.toList_ofList]
    exact statement.wellSpaced_pieces.chunks_boundFrom 1
  refine ⟨?_, ?_, ?_⟩
  · rw [placeholders, hchunks]
    exact Piece.digits?_chunksFrom 1 _
  · rw [fill, hchunks, inlined, String.toList_ofList]
    exact Piece.fill_chunksFrom [] ((start table).applyAll parts).pieces
  · rw [values_eq, applyAll_eq]
    simp only [start, List.nil_append, Option.or_none, Part.values_filterMap_condition?]

end Statement

end ResourceQuery
