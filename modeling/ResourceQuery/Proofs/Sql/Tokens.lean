import ResourceQuery.Proofs.Sql.Spacing
import ResourceQuery.Proofs.Text.Cutting

/-!
# Texts of statements are cut into their pieces

The pieces of a statement are tokens, but for the spaces, which are none, and the numbers with a
minus sign, which are two. Written one behind the other they are cut into the same tokens again
(`Statement.tokens?_inlined`). The induction is on the list of pieces:
`Piece.tokens?_inlined_append` reads one piece in front of any text that ends it, and well spaced
pieces end one another.

A double is written with its digits, and with a point where there is a fraction; which digits these
are plays no role here.

## Main definitions

* `Literal.tokens`, `Piece.tokens`, `Statement.tokens`: the tokens that a text is written from.

## Main statements

* `Literal.tokens?_text_append`: a value that is written out has its own tokens.
* `Statement.tokens?_inlined`: the text of a statement has the tokens of its pieces.
-/

namespace ResourceQuery

open Sql

/-! ### Tokens of pieces -/

/-- The tokens of a value that is written out. -/
def Literal.tokens : Literal → List Token
  | .scalar (.boolean true) => [.word "TRUE"]
  | .scalar (.boolean false) => [.word "FALSE"]
  | .scalar (.integer i) =>
    match i.toInt with
    | .ofNat n => [.number (Text.digits n)]
    | .negSucc n => [.sign "-", .number (Text.digits (n + 1))]
  | .scalar (.float d) =>
    if d.isNaN then [.word "NaN"]
    else
      let body : Token := if d.isFinite then .number (d.absText .plain) else .word "inf"
      if d.negative then [.sign "-", body] else [body]
  | .scalar (.string s) =>
    let body := s.toList.flatMap Literal.escapeChar
    [.string (decide ('\\' ∈ body)) body]
  | .constant n => [.number (Text.digits n)]
  | .count n => [.number (Text.digits n.toNat)]

/-- The tokens of a piece. -/
def Piece.tokens : Piece → List Token
  | .word letters => [.word letters]
  | .sign characters => [.sign characters]
  | .space => []
  | .name text => [.name text]
  | .value literal => literal.tokens

/-- The tokens of a statement. -/
def Statement.tokens (statement : Statement) : List Token :=
  statement.pieces.flatMap Piece.tokens

/-! ### Numbers -/

/-- Digits are a number. -/
theorem isNumeral_of_digits {ds : List Char} (hne : ds ≠ [])
    (h : ∀ c ∈ ds, c.isDigit = true) : isNumeral ds = true := by
  have hpoint : '.' ∉ ds := fun hmem => absurd (h '.' hmem) (by decide)
  unfold isNumeral
  split
  · next whole fraction hcut =>
      obtain ⟨rfl, -⟩ := Text.cutFirst_eq_some hcut
      exact absurd (by simp) hpoint
  · simpa [hne] using h

/-- Digits, a point and any digits behind it are a number. -/
theorem isNumeral_of_point {whole fraction : List Char} (hne : whole ≠ [])
    (hwhole : ∀ c ∈ whole, c.isDigit = true) (hfraction : ∀ c ∈ fraction, c.isDigit = true) :
    isNumeral (whole ++ '.' :: fraction) = true := by
  have hpoint : '.' ∉ whole := fun hmem => absurd (hwhole '.' hmem) (by decide)
  rw [isNumeral, Text.cutFirst_append hpoint]
  simp only [Bool.and_eq_true, List.all_eq_true, decide_eq_true_eq]
  exact ⟨⟨hne, hwhole⟩, hfraction⟩

/-- The digits of a number are a numeral. -/
theorem isNumeral_digits (n : Nat) : isNumeral (Text.digits n) = true :=
  isNumeral_of_digits (Text.digits_ne_nil n) fun _ => Text.isDigit_of_mem_digits

/-- Wherever the point is put, digits are a number. -/
theorem isNumeral_positionalText {ds : List Char} (h : ∀ c ∈ ds, c.isDigit = true) (e : Int) :
    isNumeral (positionalText false ds e) = true := by
  have hzeros : ∀ n, ∀ c ∈ List.replicate n '0', c.isDigit = true := by
    intro n c hc
    rw [List.eq_of_mem_replicate hc]
    rfl
  cases e with
  | negSucc k =>
      have hfraction : ∀ c ∈ List.replicate k '0' ++ ds, c.isDigit = true := by
        intro c hc
        exact (List.mem_append.mp hc).elim (hzeros k c) (h c)
      have hwhole : ∀ c ∈ ['0'], c.isDigit = true := by simp
      exact isNumeral_of_point (List.cons_ne_nil '0' []) hwhole hfraction
  | ofNat k =>
      rw [positionalText]
      split
      · next hlength =>
          simp only [Bool.false_eq_true, if_false, List.append_nil]
          refine isNumeral_of_digits ?_ fun c hc => (List.mem_append.mp hc).elim (h c) (hzeros _ c)
          intro hnil
          have hzero := congrArg List.length hnil
          rw [List.length_append, List.length_replicate, List.length_nil] at hzero
          omega
      · next hlength =>
          refine isNumeral_of_point ?_ (fun c hc => h c (List.mem_of_mem_take hc))
            fun c hc => h c (List.mem_of_mem_drop hc)
          intro hnil
          have hzero := congrArg List.length hnil
          rw [List.length_take, List.length_nil] at hzero
          omega

/-- The digits of a double are a number. -/
theorem isNumeral_absText (d : Binary64) : isNumeral (d.absText .plain) = true := by
  rw [Binary64.absText]
  split
  · exact isNumeral_positionalText (by simp) 0
  · refine isNumeral_positionalText (fun c hc => ?_) _
    have hmem : c ∈ Text.digits (d.shortest Layout.plain.tie).significand := by
      have hdrop := List.mem_reverse.mp hc
      exact List.mem_reverse.mp ((List.dropWhile_suffix _).mem hdrop)
    exact Text.isDigit_of_mem_digits hmem

/-- No digit is an operator character. -/
theorem isOperatorChar_eq_false_of_isDigit {c : Char} (h : c.isDigit = true) :
    isOperatorChar c = false := by
  have hall : "+-*/<>=~!@#%^&|?`".toList.all (fun d => !d.isDigit) = true := by decide
  refine decide_eq_false fun hmem => ?_
  have hdigit := List.all_eq_true.mp hall c hmem
  rw [h] at hdigit
  cases hdigit

/-! ### Values -/

/-- A minus sign in front of a number or a word is a token of its own. -/
theorem tokens?_minus {cs : List Char} (h : ∀ c ∈ cs.head?, isOperatorChar c = false) :
    tokens? ('-' :: cs) = (tokens? cs).map ([.sign "-"] ++ ·) :=
  tokens?_of_next? (next?_operator (s := "-") (by decide) h)

/-- A numeral is one token in front of what ends it. -/
theorem tokens?_number {ds rest : List Char} (hds : isNumeral ds = true) (hrest : Delimited rest) :
    tokens? (ds ++ rest) = (tokens? rest).map ([.number ds] ++ ·) :=
  tokens?_of_next? (next?_number hds hrest)

/-- A word is one token in front of what ends it. -/
theorem tokens?_word {w : String} {rest : List Char} (hw : isWord w = true)
    (hrest : Delimited rest) : tokens? (w.toList ++ rest) = (tokens? rest).map ([.word w] ++ ·) :=
  tokens?_of_next? (next?_word hw hrest)

/-- A minus sign and a numeral are two tokens. -/
theorem tokens?_minus_number {ds rest : List Char} (hds : isNumeral ds = true)
    (hrest : Delimited rest) :
    tokens? ('-' :: (ds ++ rest)) = (tokens? rest).map ([.sign "-", .number ds] ++ ·) := by
  have hhead : ∀ c ∈ (ds ++ rest).head?, isOperatorChar c = false := by
    cases ds with
    | nil => simp [isNumeral, Text.cutFirst] at hds
    | cons d ds =>
        rintro c ⟨⟩
        exact isOperatorChar_eq_false_of_isDigit (isNumeral_cons hds)
  rw [tokens?_minus hhead, tokens?_number hds hrest, Option.map_map]
  rfl

/-- A double has a sign, if it is negative, and its digits or one of two words. -/
theorem tokens?_float (d : Binary64) {rest : List Char} (hrest : Delimited rest) :
    tokens? (d.text .plain ++ rest)
      = (tokens? rest).map ((Literal.scalar (.float d)).tokens ++ ·) := by
  rw [Binary64.text, Literal.tokens]
  split
  · exact tokens?_word (w := "NaN") (by decide) hrest
  cases hfinite : d.isFinite <;> cases hnegative : d.negative <;>
    simp only [Bool.false_eq_true, if_false, if_true, List.cons_append]
  · exact tokens?_word (w := "inf") (by decide) hrest
  · rw [tokens?_minus (by rintro c ⟨⟩; rfl), tokens?_word (w := "inf") (by decide) hrest,
      Option.map_map]
    rfl
  · exact tokens?_number (isNumeral_absText d) hrest
  · exact tokens?_minus_number (isNumeral_absText d) hrest

/-- **A value that is written out has its own tokens.** -/
theorem Literal.tokens?_text_append (v : Literal) {rest : List Char} (hrest : Delimited rest) :
    tokens? (v.text ++ rest) = (tokens? rest).map (v.tokens ++ ·) := by
  cases v with
  | scalar v =>
      cases v with
      | boolean b =>
          cases b with
          | true => exact tokens?_word (w := "TRUE") (by decide) hrest
          | false => exact tokens?_word (w := "FALSE") (by decide) hrest
      | integer i =>
          simp only [text, tokens]
          cases i.toInt with
          | ofNat n => exact tokens?_number (isNumeral_digits n) hrest
          | negSucc n => exact tokens?_minus_number (isNumeral_digits (n + 1)) hrest
      | float d => exact tokens?_float d hrest
      | string s => exact tokens?_of_next? (next?_stringText s (hrest.head?_ne (by decide)))
  | constant n => exact tokens?_number (isNumeral_digits n) hrest
  | count n => exact tokens?_number (isNumeral_digits n.toNat) hrest

/-! ### Pieces -/

namespace Piece

/-- What a piece needs of the text behind it. -/
def EndsBefore (p : Piece) (rest : List Char) : Prop :=
  match p with
  | .space => True
  | .sign characters => isPunctuation characters = true ∨ Delimited rest
  | .name _ => rest.head? ≠ some '"'
  | _ => Delimited rest

/-- A delimiter ends any piece. -/
theorem endsBefore_of_delimited (p : Piece) {rest : List Char} (h : Delimited rest) :
    p.EndsBefore rest := by
  cases p with
  | space => trivial
  | sign characters => exact Or.inr h
  | name s => exact h.head?_ne (by decide)
  | word letters => exact h
  | value v => exact h

/-- A piece that is a delimiter is one in the text. -/
theorem delimited_of_isDelimiter {q : Piece} (h : q.isDelimiter = true) (rest : List Char) :
    Delimited (q.inlined ++ rest) := by
  simp only [isDelimiter, Bool.or_eq_true, decide_eq_true_eq] at h
  rcases h with (rfl | rfl) | rfl
  · rintro c ⟨⟩
    exact Or.inl rfl
  · rintro c ⟨⟩
    exact Or.inr (Or.inl rfl)
  · rintro c ⟨⟩
    exact Or.inr (Or.inr rfl)

/-- A piece is ended by one that it may stand in front of. -/
theorem endsBefore_of_mayPrecede {p q : Piece} (h : p.mayPrecede q = true) (rest : List Char) :
    p.EndsBefore (q.inlined ++ rest) := by
  by_cases hq : q.isDelimiter = true
  · exact p.endsBefore_of_delimited (delimited_of_isDelimiter hq rest)
  · cases p with
    | space => trivial
    | sign characters => exact Or.inl (by simpa [mayPrecede, hq] using h)
    | name s =>
        obtain rfl : q = .sign "." := by simpa [mayPrecede, hq] using h
        rintro ⟨⟩
    | word letters => exact absurd h hq
    | value v => exact absurd h hq

/-- **A piece is read as its tokens** in front of any text that ends it. -/
theorem tokens?_inlined_append {p : Piece} (hplain : p.isPlain = true) {rest : List Char}
    (h : p.EndsBefore rest) :
    tokens? (p.inlined ++ rest) = (tokens? rest).map (p.tokens ++ ·) := by
  cases p with
  | word letters => exact tokens?_word hplain h
  | sign characters =>
      refine tokens?_of_next? ?_
      by_cases hpunctuation : isPunctuation characters = true
      · simp only [isPunctuation, List.mem_cons, List.not_mem_nil, or_false,
          decide_eq_true_eq] at hpunctuation
        rcases hpunctuation with rfl | rfl | rfl | rfl <;>
          exact next?_punctuation (by decide) rest
      · have hoperator : characters ∈ operators := by simpa [isPlain, hpunctuation] using hplain
        have hrest : Delimited rest := h.resolve_left hpunctuation
        exact next?_operator hoperator (hrest.of_mem_head? ⟨rfl, rfl, rfl⟩)
  | space => simp [inlined, tokens]
  | name s =>
      have hname := next?_name s.toList h
      rw [String.ofList_toList] at hname
      rw [inlined, nameText, List.cons_append, List.append_assoc]
      exact tokens?_of_next? hname
  | value v => exact v.tokens?_text_append h

/-- **Well spaced pieces are cut apart again.** -/
theorem WellSpaced.tokens?_inlined {ps : List Piece} (h : WellSpaced ps) :
    tokens? (ps.flatMap inlined) = some (ps.flatMap tokens) := by
  induction ps with
  | nil => exact tokens?_nil
  | cons p ps ih =>
      obtain ⟨hplain, hprecede, hrest⟩ := h
      have hends : p.EndsBefore (ps.flatMap inlined) := by
        cases ps with
        | nil => exact p.endsBefore_of_delimited (by rintro c ⟨⟩)
        | cons q ps => exact endsBefore_of_mayPrecede (hprecede q rfl) _
      rw [List.flatMap_cons, tokens?_inlined_append hplain hends, ih hrest]
      rfl

end Piece

/-- **The text of a statement has the tokens of its pieces**, whatever names and strings it has. -/
theorem Statement.tokens?_inlined (statement : Statement) :
    tokens? statement.inlined.toList = some statement.tokens := by
  rw [inlined, String.toList_ofList]
  exact statement.wellSpaced_pieces.tokens?_inlined

end ResourceQuery
