import Mathlib.Data.List.Basic
import Mathlib.Data.List.TakeWhile
import ResourceQuery.Json.Token
import ResourceQuery.Json.Writer
import ResourceQuery.Proofs.Json.Numeral

/-!
# The tokens of what is written

Each part of a compact text is one token, in front of any rest that cannot continue it. A string is
read to its closing quote whatever follows; a word or a number ends where a character follows that
is in no word, which is so in front of every comma and every closing bracket.

## Main definitions

* `Json.piece`, `Json.pieces`: how the characters of a text are written.
* `Json.EndsWord`: what may follow a word.

## Main statements

* `Json.stringPieces?_string`, `Json.text?_pieces`: a written string is read to its closing quote,
  and has its text.
* `Json.tokens?_punctuation`, `Json.tokens?_string`, `Json.tokens?_word`: the first token of a text.
-/

namespace ResourceQuery

namespace Json

/-! ### Strings -/

/-- The piece that a character is written as. Only control characters without a letter of their own
are given by their code unit. -/
def piece (c : Char) : Piece :=
  if c.toNat < 32 ∧ c.toNat ∉ [8, 9, 10, 12, 13] then .unit c.toNat else .char c

/-- A control character is read from its two hexadecimal digits. -/
theorem hexUnit?_hexDigit {n : Nat} (h : n < 32) :
    hexUnit? '0' '0' (Writer.hexDigit (n / 16)) (Writer.hexDigit (n % 16)) = some n :=
  (by decide : ∀ n < 32,
    hexUnit? '0' '0' (Writer.hexDigit (n / 16)) (Writer.hexDigit (n % 16)) = some n) n h

/-- A backslash and a letter are one piece. -/
theorem stringPieces?_escape {rest after : List Char} {pieces : List Piece} {e c : Char}
    (h : stringPieces? rest = some (pieces, after)) (he : escaped? e = some c) (hu : e ≠ 'u') :
    stringPieces? ('\\' :: e :: rest) = some (.char c :: pieces, after) := by
  simp [stringPieces?, hu, he, h]

/-- A character that needs no escape is one piece. -/
theorem stringPieces?_plain {rest after : List Char} {pieces : List Piece} {c : Char}
    (h : stringPieces? rest = some (pieces, after)) (hquote : c ≠ '"') (hslash : c ≠ '\\')
    (hcontrol : ¬c.toNat < 32) : stringPieces? (c :: rest) = some (.char c :: pieces, after) := by
  simp [stringPieces?, hslash, hcontrol, h]

/-- What a character is written as is its piece. -/
theorem stringPieces?_char (c : Char) {rest after : List Char} {pieces : List Piece}
    (h : stringPieces? rest = some (pieces, after)) :
    stringPieces? (Writer.char c ++ rest) = some (piece c :: pieces, after) := by
  have hof {n : Nat} (hn : c.toNat = n) : c = Char.ofNat n := by rw [← hn, Char.ofNat_toNat]
  unfold Writer.char
  -- Seven characters have a letter, the other control characters a code unit.
  split
  · next hc => subst hc; exact stringPieces?_escape h rfl (by decide)
  split
  · next hc => subst hc; exact stringPieces?_escape h rfl (by decide)
  split
  · next hc => rw [hof hc]; exact stringPieces?_escape h rfl (by decide)
  split
  · next hc => rw [hof hc]; exact stringPieces?_escape h rfl (by decide)
  split
  · next hc => rw [hof hc]; exact stringPieces?_escape h rfl (by decide)
  split
  · next hc => rw [hof hc]; exact stringPieces?_escape h rfl (by decide)
  split
  · next hc => rw [hof hc]; exact stringPieces?_escape h rfl (by decide)
  split
  · next h8 h9 h10 h12 h13 hc =>
      simp [stringPieces?, h, hexUnit?_hexDigit hc, piece, h8, h9, h10, h12, h13, hc]
  · next hquote hslash _ _ _ _ _ hcontrol =>
      rw [List.singleton_append, stringPieces?_plain h hquote hslash hcontrol, piece,
        if_neg fun hunit => hcontrol hunit.1]

/-- The pieces that a text is written as. -/
def pieces (s : String) : List Piece :=
  s.toList.map piece

/-- A written string is read up to its closing quote, whatever follows it. -/
theorem stringPieces?_string (s : String) (rest : List Char) :
    stringPieces? (s.toList.flatMap Writer.char ++ '"' :: rest) = some (pieces s, rest) := by
  rw [pieces]
  induction s.toList with
  | nil => simp [stringPieces?]
  | cons c cs ih =>
      rw [List.flatMap_cons, List.append_assoc, List.map_cons]
      exact stringPieces?_char c ih

/-- A code unit below the surrogates is a character of its own. -/
theorem pieceChars?_unit {u : Nat} (h : u < 0xD800) (rest : List Piece) :
    pieceChars? (.unit u :: rest) = (pieceChars? rest).map (Char.ofNat u :: ·) := by
  -- It is not half of a pair, so the piece behind it does not matter.
  have hhigh : isHighSurrogate u = false := by simp [isHighSurrogate]; omega
  have hlow : isLowSurrogate u = false := by simp [isLowSurrogate]; omega
  cases rest with
  | nil => simp [pieceChars?, hhigh, hlow]
  | cons next rest => cases next <;> simp [pieceChars?, hhigh, hlow]

/-- A piece of a string is one character of it. -/
theorem pieceChars?_piece (c : Char) (rest : List Piece) :
    pieceChars? (piece c :: rest) = (pieceChars? rest).map (c :: ·) := by
  unfold piece
  split
  · next h => rw [pieceChars?_unit (by omega), Char.ofNat_toNat]
  · rw [pieceChars?]

/-- The text of the pieces that a text is written as is that text. -/
theorem text?_pieces (s : String) : text? (pieces s) = some s := by
  have hchars : ∀ cs : List Char, pieceChars? (cs.map piece) = some cs := by
    intro cs
    induction cs with
    | nil => rfl
    | cons c cs ih => rw [List.map_cons, pieceChars?_piece, ih]; rfl
  rw [text?, pieces, hchars, Option.map_some, String.ofList_toList]

/-! ### The first token of a text -/

/-- What may follow a word: nothing, or a character that is in no word. -/
def EndsWord (rest : List Char) : Prop :=
  ∀ c ∈ rest.head?, isWordChar c = false

/-- A text that ends a word still does so with another one behind it. -/
theorem EndsWord.append {text rest : List Char} (h : EndsWord text) (hrest : EndsWord rest) :
    EndsWord (text ++ rest) := by
  cases text with
  | nil => exact hrest
  | cons c text => exact h

/-- A character that belongs to no word ends one. -/
theorem endsWord_cons {c : Char} (h : isWordChar c = false) (rest : List Char) :
    EndsWord (c :: rest) := by
  simpa [EndsWord] using h

/-- A punctuation character is a token, whatever follows it. -/
theorem tokens?_punctuation {c : Char} {token : Token} (h : punctuation? c = some token)
    (rest : List Char) : tokens? (c :: rest) = (tokens? rest).map (token :: ·) := by
  have hother : isSpace c = false ∧ c ≠ '"' := by
    unfold punctuation? at h
    split at h
    all_goals first | cases h; done | decide
  rw [tokens?]
  simp only [hother.1, if_neg hother.2, h]
  rfl

/-- A string that is written is one token. -/
theorem tokens?_string (s : String) (rest : List Char) :
    tokens? (Writer.string s ++ rest) = (tokens? rest).map (.string (pieces s) :: ·) := by
  have hpieces := stringPieces?_string s rest
  have htext : Writer.string s ++ rest = '"' :: (s.toList.flatMap Writer.char ++ '"' :: rest) := by
    simp [Writer.string]
  have hspace : ¬isSpace '"' = true := by decide
  rw [htext, tokens?, if_neg hspace, if_pos rfl]
  split
  · next hp =>
      rw [hpieces] at hp
      cases hp
  · next hp =>
      rw [hpieces] at hp
      cases hp
      rfl

/-- A character of a word is neither a space nor a quote nor punctuation. -/
theorem not_isSpace_of_isWordChar {c : Char} (h : isWordChar c = true) :
    isSpace c = false ∧ c ≠ '"' ∧ punctuation? c = none := by
  refine ⟨?_, ?_, ?_⟩
  · by_contra hspace
    simp only [isSpace, Bool.not_eq_false, Bool.or_eq_true, decide_eq_true_eq] at hspace
    rcases hspace with ((rfl | rfl) | rfl) | rfl <;> exact absurd h (by decide)
  · rintro rfl
    exact absurd h (by decide)
  · unfold punctuation?
    split
    all_goals first | rfl | exact absurd h (by decide)

/-- A word is a token up to its end. -/
theorem tokens?_word {word rest : List Char} {token : Token} (h : word? word = some token)
    (hne : word ≠ []) (hword : ∀ c ∈ word, isWordChar c = true) (hrest : EndsWord rest) :
    tokens? (word ++ rest) = (tokens? rest).map (token :: ·) := by
  obtain ⟨c, cs, rfl⟩ := List.exists_cons_of_ne_nil hne
  obtain ⟨hc, hcs⟩ := List.forall_mem_cons.mp hword
  obtain ⟨hspace, hquote, hpunctuation⟩ := not_isSpace_of_isWordChar hc
  have htake : rest.takeWhile isWordChar = [] := by
    cases rest with
    | nil => rfl
    | cons d rest => rw [List.takeWhile_cons_of_neg (by simpa using hrest d rfl)]
  have hdrop : rest.dropWhile isWordChar = rest := by
    cases rest with
    | nil => rfl
    | cons d rest => rw [List.dropWhile_cons_of_neg (by simpa using hrest d rfl)]
  rw [List.cons_append, tokens?, if_neg (by simp [hspace]), if_neg hquote]
  simp only [hpunctuation, hc, if_true, List.takeWhile_append_of_pos hcs,
    List.dropWhile_append_of_pos hcs, htake, hdrop, List.append_nil, h]

/-! ### The words of values -/

/-- The word `null` is one token in front of what ends it. -/
theorem tokens?_null {rest : List Char} (h : EndsWord rest) :
    tokens? ("null".toList ++ rest) = (tokens? rest).map (.null :: ·) :=
  tokens?_word rfl (by decide) (List.all_eq_true.mp rfl) h

/-- A truth value is one token in front of what ends it. -/
theorem tokens?_bool (b : Bool) {rest : List Char} (h : EndsWord rest) :
    tokens? (Writer.compact (.bool b) ++ rest) = (tokens? rest).map (.bool b :: ·) := by
  cases b
  · exact tokens?_word rfl (by decide) (List.all_eq_true.mp rfl) h
  · exact tokens?_word rfl (by decide) (List.all_eq_true.mp rfl) h

/-- What is a numeral is no other word. -/
theorem word?_of_ofChars? {cs : List Char} {n : Numeral} (h : Numeral.ofChars? cs = some n) :
    word? cs = some (.number n) := by
  have hother {word : List Char} (hword : Numeral.ofChars? word = none) : cs ≠ word := by
    rintro rfl
    rw [h] at hword
    cases hword
  rw [word?, if_neg (hother rfl), if_neg (hother rfl), if_neg (hother rfl), h]
  rfl

/-- The characters of a numeral are word characters. -/
theorem isWordChar_of_mem_text {n : Numeral} (h : n.WellFormed) {c : Char} (hc : c ∈ n.text) :
    isWordChar c = true := by
  have hdigit {d : Char} (hd : d.isDigit = true) : isWordChar d = true := by
    simp [isWordChar, Char.isAlphanum, hd]
  have hfraction (hm : c ∈ Numeral.fractionText n.fraction) : isWordChar c = true := by
    cases hds : n.fraction with
    | none => simp [hds, Numeral.fractionText] at hm
    | some ds =>
        rw [hds] at hm
        rcases List.mem_cons.mp hm with rfl | hm
        · decide
        · exact hdigit ((h.fraction ds hds).1 c hm)
  have hexponent (hm : c ∈ Numeral.exponentText n.exponent) : isWordChar c = true := by
    cases he : n.exponent with
    | none => simp [he, Numeral.exponentText] at hm
    | some e =>
        rw [he] at hm
        rcases List.mem_cons.mp hm with rfl | hm
        · decide
        · rcases List.mem_cons.mp hm with rfl | hm
          · split <;> decide
          · exact hdigit (Text.isDigit_of_mem_digits hm)
  have hunsigned (hm : c ∈ n.unsignedText) : isWordChar c = true := by
    rcases List.mem_append.mp hm with hm | hm
    · exact hdigit (h.whole c hm)
    · exact (List.mem_append.mp hm).elim hfraction hexponent
  rw [Numeral.text] at hc
  split at hc
  · rcases List.mem_cons.mp hc with rfl | hc
    · decide
    · exact hunsigned hc
  · exact hunsigned hc

/-- A numeral has a character. -/
theorem text_ne_nil {n : Numeral} (h : n.WellFormed) : n.text ≠ [] := by
  rw [Numeral.text, Numeral.unsignedText]
  split
  · exact List.cons_ne_nil _ _
  · exact List.append_ne_nil_of_left_ne_nil h.ne_nil _

/-- A number that is written is one token in front of what ends it. -/
theorem tokens?_number (n : Number) {rest : List Char} (h : EndsWord rest) :
    tokens? (Writer.number n ++ rest) = (tokens? rest).map (.number n.numeral :: ·) := by
  have hgood := n.wellFormed_numeral
  rw [← n.text_numeral]
  exact tokens?_word (word?_of_ofChars? (Numeral.ofChars?_text hgood)) (text_ne_nil hgood)
    (fun c hc => isWordChar_of_mem_text hgood hc) h

end Json

end ResourceQuery
