import ResourceQuery.Sql.Text

/-!
# Tokens of SQL texts

A text is cut into tokens by the lexical rules of PostgreSQL, as far as statements need them: words,
numbers, signs, names in double quotes and strings in single quotes. In a quoted name two double
quotes stand for one. A string ends at the first single quote that is not doubled; behind an `E` a
backslash belongs to the character that follows it, so neither of the two can end the string.

Whatever else the rules have is refused: comments, parameters, strings with other prefixes,
operators and numbers of other forms, and all blanks but the space, since two strings on two lines
are one. So a text that has tokens here has the same ones there.

## Main definitions

* `Sql.Token`: a string is kept as it is written, a name without its quotes.
* `Sql.tokens?`: the tokens of a text, if it has no other parts.

## Main statements

* `Sql.tokens?_of_next?`: the token at the front of a text comes first.
* `Sql.quotedName?_append`, `Sql.stringBody?_append`: what a quote opens ends where it was closed,
  whatever characters stand between.
-/

namespace ResourceQuery.Sql

/-- A token of a statement. -/
inductive Token
  | word (letters : String)
  | number (digits : List Char)
  | sign (characters : String)
  /-- A quoted name, without its quotes. -/
  | name (text : String)
  /-- What stands between the quotes of a string, with escapes when there is an `E` in front. -/
  | string (escapes : Bool) (body : List Char)
deriving DecidableEq

/-! ### Characters -/

/-- The characters that are tokens by themselves. -/
def punctuation : List Char := ['(', ')', ',', '.']

/-- The characters of words. -/
def isWordChar (c : Char) : Bool :=
  c.isAlphanum || c = '_'

/-- The characters that a number runs on with, whether that makes a number or not. -/
def isNumberChar (c : Char) : Bool :=
  isWordChar c || c = '.'

/-- The characters of operators. -/
def isOperatorChar (c : Char) : Bool :=
  c ∈ "+-*/<>=~!@#%^&|?`".toList

/-- The operators of statements. -/
def operators : List String := ["=", "<>", ">", ">=", "<", "<=", "*", "-"]

/-- Digits, and possibly a point behind them and more digits. -/
def isNumeral (cs : List Char) : Bool :=
  match Text.cutFirst '.' cs with
  | some (whole, fraction) => whole ≠ [] && whole.all Char.isDigit && fraction.all Char.isDigit
  | none => cs ≠ [] && cs.all Char.isDigit

/-! ### Reading one token -/

/-- Puts characters in front of what was read. -/
def put (front : List Char) : Option (List Char × List Char) → Option (List Char × List Char) :=
  Option.map fun (read, rest) => (front ++ read, rest)

/-- The name up to its closing quote, and the text behind the quote. -/
def quotedName? : List Char → Option (List Char × List Char)
  | [] => none
  | '"' :: '"' :: cs => put ['"'] (quotedName? cs)
  | '"' :: cs => some ([], cs)
  | c :: cs => put [c] (quotedName? cs)

/-- The string up to its closing quote, as it is written, and the text behind the quote. -/
def stringBody? (escapes : Bool) : List Char → Option (List Char × List Char)
  | [] => none
  | '\'' :: '\'' :: cs => put ['\'', '\''] (stringBody? escapes cs)
  | '\'' :: cs => some ([], cs)
  | '\\' :: c :: cs =>
    if escapes then put ['\\', c] (stringBody? escapes cs)
    else put ['\\'] (stringBody? escapes (c :: cs))
  | c :: cs => put [c] (stringBody? escapes cs)

/-- The name behind an opening quote. -/
def name? (cs : List Char) : Option (Token × List Char) :=
  (quotedName? cs).map fun (text, rest) => (.name (String.ofList text), rest)

/-- The string behind an opening quote. -/
def string? (escapes : Bool) (cs : List Char) : Option (Token × List Char) :=
  (stringBody? escapes cs).map fun (body, rest) => (.string escapes body, rest)

/-- The number that a longest run is, if it is one. -/
def number? (cs : List Char) : Option (Token × List Char) :=
  let run := cs.takeWhile isNumberChar
  if isNumeral run then some (.number run, cs.dropWhile isNumberChar) else none

/-- The word that a longest run is, unless it is the prefix of a string. -/
def word? (cs : List Char) : Option (Token × List Char) :=
  let rest := cs.dropWhile isWordChar
  if rest.head? = some '\'' then none
  else some (.word (String.ofList (cs.takeWhile isWordChar)), rest)

/-- The operator that a longest run is, if it is one. -/
def operator? (cs : List Char) : Option (Token × List Char) :=
  let run := String.ofList (cs.takeWhile isOperatorChar)
  if run ∈ operators then some (.sign run, cs.dropWhile isOperatorChar) else none

/-- The token at the front of a text that does not begin with a space. -/
def next? : List Char → Option (Token × List Char)
  | [] => none
  | c :: cs =>
    if c = '"' then name? cs
    else if c = '\'' then string? false cs
    else if (c = 'E' ∨ c = 'e') ∧ cs.head? = some '\'' then string? true cs.tail
    else if c ∈ punctuation then some (.sign (String.ofList [c]), cs)
    else if c.isDigit then number? (c :: cs)
    else if isWordChar c then word? (c :: cs)
    else operator? (c :: cs)

/-- What is put in front of a reading does not change the text that it leaves. -/
theorem length_of_put {front cs : List Char} {read : List Char × List Char}
    {inner : Option (List Char × List Char)}
    (h : put front inner = some read) (hinner : ∀ r ∈ inner, r.2.length < cs.length) :
    read.2.length < cs.length := by
  obtain ⟨r, hr, rfl⟩ := Option.map_eq_some_iff.mp h
  exact hinner r hr

/-- Behind a quoted name there is less text than in front of it. -/
theorem length_of_quotedName? {cs : List Char} {read : List Char × List Char}
    (h : quotedName? cs = some read) : read.2.length < cs.length := by
  fun_induction quotedName? cs generalizing read with
  | case1 => cases h
  | case2 cs ih => exact length_of_put h fun r hr => by have := ih hr; simp; omega
  | case3 cs => cases h; simp
  | case4 c cs _ _ ih => exact length_of_put h fun r hr => by have := ih hr; simp; omega

/-- Behind the contents of a string there is less text than in front of them. -/
theorem length_of_stringBody? {escapes : Bool} {cs : List Char} {read : List Char × List Char}
    (h : stringBody? escapes cs = some read) : read.2.length < cs.length := by
  fun_induction stringBody? escapes cs generalizing read with
  | case1 => cases h
  | case2 cs ih => exact length_of_put h fun r hr => by have := ih hr; simp; omega
  | case3 cs => cases h; simp
  | case4 c cs _ ih => exact length_of_put h fun r hr => by have := ih hr; simp; omega
  | case5 c cs _ ih => exact length_of_put h fun r hr => by have := ih hr; simp at this ⊢; omega
  | case6 c cs _ _ _ ih => exact length_of_put h fun r hr => by have := ih hr; simp; omega

/-- Skipping at least one character makes a text shorter. -/
theorem length_dropWhile_lt {p : Char → Bool} {cs : List Char} (h : cs.takeWhile p ≠ []) :
    (cs.dropWhile p).length < cs.length := by
  have hlength : (cs.takeWhile p).length + (cs.dropWhile p).length = cs.length := by
    rw [← List.length_append, List.takeWhile_append_dropWhile]
  have hpos : 0 < (cs.takeWhile p).length := List.length_pos_iff.mpr h
  omega

/-- Behind a number there is less text than in front of it. -/
theorem length_of_number? {cs rest : List Char} {token : Token}
    (h : number? cs = some (token, rest)) : rest.length < cs.length := by
  simp only [number?] at h
  split at h
  · next hrun =>
      cases h
      exact length_dropWhile_lt fun hnil => by simp [hnil, isNumeral, Text.cutFirst] at hrun
  · cases h

/-- Behind a word there is less text than in front of it. -/
theorem length_of_word? {cs rest : List Char} {token : Token} (hcs : cs.takeWhile isWordChar ≠ [])
    (h : word? cs = some (token, rest)) : rest.length < cs.length := by
  simp only [word?] at h
  split at h
  · cases h
  · cases h
    exact length_dropWhile_lt hcs

/-- Behind an operator there is less text than in front of it. -/
theorem length_of_operator? {cs rest : List Char} {token : Token}
    (h : operator? cs = some (token, rest)) : rest.length < cs.length := by
  simp only [operator?] at h
  split at h
  · next hrun =>
      cases h
      exact length_dropWhile_lt fun hnil => by simp [hnil, operators] at hrun
  · cases h

/-- Behind a token there is less text than in front of it. -/
theorem length_of_next? {cs rest : List Char} {token : Token}
    (h : next? cs = some (token, rest)) : rest.length < cs.length := by
  cases cs with
  | nil => cases h
  | cons c cs =>
      rw [next?] at h
      split at h
      · obtain ⟨read, hread, heq⟩ := Option.map_eq_some_iff.mp h
        cases heq
        exact Nat.lt_succ_of_lt (length_of_quotedName? hread)
      split at h
      · obtain ⟨read, hread, heq⟩ := Option.map_eq_some_iff.mp h
        cases heq
        exact Nat.lt_succ_of_lt (length_of_stringBody? hread)
      split at h
      · obtain ⟨read, hread, heq⟩ := Option.map_eq_some_iff.mp h
        cases heq
        have hlt : read.2.length < cs.tail.length := length_of_stringBody? hread
        rw [List.length_tail] at hlt
        rw [List.length_cons]
        omega
      split at h
      · cases h
        exact Nat.lt_succ_self _
      split at h
      · exact length_of_number? h
      split at h
      · next hword => exact length_of_word? (by simp [hword]) h
      · exact length_of_operator? h

/-- The tokens of a text, or nothing when some part of it is no token. -/
def tokens? : List Char → Option (List Token)
  | [] => some []
  | c :: cs =>
    if c = ' ' then tokens? cs
    else
      match h : next? (c :: cs) with
      | none => none
      | some (token, rest) =>
        have := length_of_next? h
        (tokens? rest).map (token :: ·)
termination_by cs => cs.length
decreasing_by
  · exact Nat.lt_succ_self _
  · assumption

/-- The empty text has no tokens. -/
@[simp] theorem tokens?_nil : tokens? [] = some [] := by
  rw [tokens?]

/-- A space is no token. -/
@[simp] theorem tokens?_space (cs : List Char) : tokens? (' ' :: cs) = tokens? cs := by
  rw [tokens?, if_pos rfl]

/-- No token begins with a space. -/
theorem next?_space (cs : List Char) : next? (' ' :: cs) = none := by
  have hrun : (' ' :: cs).takeWhile isOperatorChar = [] := rfl
  have hread : operator? (' ' :: cs) = none := by
    rw [operator?, hrun]
    rfl
  rw [← hread]
  simp [next?, punctuation, isWordChar]

/-- **The token at the front of a text comes first.** -/
theorem tokens?_of_next? {cs rest : List Char} {token : Token}
    (h : next? cs = some (token, rest)) : tokens? cs = (tokens? rest).map (token :: ·) := by
  cases cs with
  | nil => cases h
  | cons c cs =>
      have hc : c ≠ ' ' := by
        rintro rfl
        rw [next?_space] at h
        cases h
      rw [tokens?, if_neg hc]
      split
      · next hnone => rw [hnone] at h; cases h
      · next hsome =>
          rw [hsome] at h
          cases h
          rfl

/-! ### Tokens in front of any rest -/

/-- The text behind a token begins with a character that no token goes on with. -/
def Delimited (rest : List Char) : Prop :=
  ∀ c ∈ rest.head?, c = ' ' ∨ c = ',' ∨ c = ')'

/-- A delimiter ends a run of characters that it does not belong to. -/
theorem Delimited.of_mem_head? {rest : List Char} (h : Delimited rest) {p : Char → Bool}
    (hp : p ' ' = false ∧ p ',' = false ∧ p ')' = false) : ∀ c ∈ rest.head?, p c = false := by
  intro c hc
  rcases h c hc with rfl | rfl | rfl
  · exact hp.1
  · exact hp.2.1
  · exact hp.2.2

/-- What ends a token begins with no other character. -/
theorem Delimited.head?_ne {rest : List Char} (h : Delimited rest) {c : Char}
    (hc : ¬ (c = ' ' ∨ c = ',' ∨ c = ')')) : rest.head? ≠ some c :=
  fun hhead => hc (h c hhead)

/-- A run of characters with something behind it begins with one of the run, or with what is behind
it. -/
theorem head?_append_ne {p : Char → Bool} {run rest : List Char} {c : Char}
    (hrun : ∀ d ∈ run, p d = true) (hc : p c = false) (hrest : rest.head? ≠ some c) :
    (run ++ rest).head? ≠ some c := by
  cases run with
  | nil => exact hrest
  | cons d run =>
      rintro hhead
      obtain rfl : d = c := Option.some.inj hhead
      rw [hrun d List.mem_cons_self] at hc
      cases hc

/-- A longest run ends where a character does not belong to it. -/
theorem run_append {p : Char → Bool} {run rest : List Char} (hrun : ∀ c ∈ run, p c = true)
    (hrest : ∀ c ∈ rest.head?, p c = false) :
    (run ++ rest).takeWhile p = run ∧ (run ++ rest).dropWhile p = rest := by
  rw [List.takeWhile_append_of_pos hrun, List.dropWhile_append_of_pos hrun]
  cases rest with
  | nil => simp
  | cons c rest => simp [hrest c rfl]

/-- A name as it stands between its quotes. -/
def quoted (name : List Char) : List Char :=
  name.flatMap fun c => if c = '"' then ['"', '"'] else [c]

/-- **A name ends at the quote that closes it**, whatever characters it has. -/
theorem quotedName?_append (name : List Char) {rest : List Char} (h : rest.head? ≠ some '"') :
    quotedName? (quoted name ++ '"' :: rest) = some (name, rest) := by
  induction name with
  | nil =>
      cases rest with
      | nil => rfl
      | cons c rest =>
          rw [quoted, List.flatMap_nil, List.nil_append, quotedName?]
          rintro cs ⟨rfl, -⟩
          exact h rfl
  | cons c name ih =>
      rw [quoted, List.flatMap_cons, List.append_assoc] at *
      by_cases hc : c = '"'
      · subst hc
        simp only [if_true, List.cons_append, List.nil_append, quotedName?]
        rw [ih]
        rfl
      · rw [if_neg hc, List.singleton_append, quotedName?, ih]
        · rfl
        · simp [hc]
        · simp [hc]

/-- A character that is neither a quote nor a backslash is part of its string. -/
theorem stringBody?_cons {escapes : Bool} {c : Char} (hquote : c ≠ '\'') (hbackslash : c ≠ '\\')
    (cs : List Char) : stringBody? escapes (c :: cs) = put [c] (stringBody? escapes cs) := by
  rw [stringBody?]
  · simp [hquote]
  · simp [hquote]
  · simp [hbackslash]

/-- A backslash belongs to the character behind it. -/
theorem stringBody?_escape (c : Char) (cs : List Char) :
    stringBody? true ('\\' :: c :: cs) = put ['\\', c] (stringBody? true cs) := by
  rw [stringBody?]
  rfl

/-- A written character is an escape, or a character that needs none. -/
theorem escapeChar_cases (c : Char) :
    (∃ d, Literal.escapeChar c = ['\\', d]) ∨
      (Literal.escapeChar c = [c] ∧ c ≠ '\'' ∧ c ≠ '\\') := by
  unfold Literal.escapeChar
  split
  · exact Or.inl ⟨c, rfl⟩
  · next h =>
      rw [not_or, not_or] at h
      obtain ⟨hbackslash, -, hquote⟩ := h
      repeat' split
      all_goals first
        | exact Or.inl ⟨_, rfl⟩
        | exact Or.inr ⟨rfl, hquote, hbackslash⟩

/-- **A string ends at the quote that closes it**, whatever text it was written for, when it is read
with escapes or has none. -/
theorem stringBody?_append {escapes : Bool} (s : List Char) {rest : List Char}
    (hescapes : escapes = true ∨ '\\' ∉ s.flatMap Literal.escapeChar)
    (hrest : rest.head? ≠ some '\'') :
    stringBody? escapes (s.flatMap Literal.escapeChar ++ '\'' :: rest)
      = some (s.flatMap Literal.escapeChar, rest) := by
  induction s with
  | nil =>
      cases rest with
      | nil => rfl
      | cons c rest =>
          rw [List.flatMap_nil, List.nil_append, stringBody?]
          rintro cs ⟨rfl, -⟩
          exact hrest rfl
  | cons c s ih =>
      rw [List.flatMap_cons, List.mem_append, not_or] at hescapes
      have hread := ih (hescapes.imp_right fun h => h.2)
      rw [List.flatMap_cons, List.append_assoc]
      rcases escapeChar_cases c with ⟨d, hd⟩ | ⟨hc, hquote, hbackslash⟩
      · obtain rfl : escapes = true := hescapes.resolve_right fun h => h.1 (by simp [hd])
        rw [hd, List.cons_append, List.cons_append, List.nil_append, stringBody?_escape, hread]
        rfl
      · rw [hc, List.singleton_append, stringBody?_cons hquote hbackslash, hread]
        rfl

/-! ### Written tokens -/

/-- A quoted name is one token in front of anything but another quote. -/
theorem next?_name (name : List Char) {rest : List Char} (h : rest.head? ≠ some '"') :
    next? ('"' :: (quoted name ++ '"' :: rest)) = some (.name (String.ofList name), rest) := by
  rw [next?, if_pos rfl, name?, quotedName?_append name h]
  rfl

/-- **A written string is one token**, whatever text it was written for. -/
theorem next?_stringText (s : String) {rest : List Char} (h : rest.head? ≠ some '\'') :
    next? (Literal.stringText s ++ rest)
      = some (.string (decide ('\\' ∈ s.toList.flatMap Literal.escapeChar))
          (s.toList.flatMap Literal.escapeChar), rest) := by
  rw [Literal.stringText]
  by_cases hescapes : '\\' ∈ s.toList.flatMap Literal.escapeChar
  · rw [if_pos hescapes, List.cons_append, List.cons_append, List.append_assoc, next?]
    simp only [List.head?_cons, List.tail_cons, List.singleton_append, string?]
    rw [stringBody?_append s.toList (Or.inl rfl) h]
    simp [hescapes]
  · rw [if_neg hescapes, List.cons_append, List.append_assoc, next?]
    simp only [List.singleton_append, string?]
    rw [stringBody?_append s.toList (Or.inr hescapes) h]
    simp [hescapes]

/-- The characters of a number are digits and points. -/
theorem isDigit_of_mem_isNumeral {ds : List Char} (h : isNumeral ds = true) :
    ∀ c ∈ ds, c.isDigit = true ∨ c = '.' := by
  intro c hc
  unfold isNumeral at h
  split at h
  · next whole fraction hcut =>
      obtain ⟨rfl, -⟩ := Text.cutFirst_eq_some hcut
      simp only [Bool.and_eq_true, List.all_eq_true] at h
      rcases List.mem_append.mp hc with hc | hc
      · exact Or.inl (h.1.2 c hc)
      · exact (List.mem_cons.mp hc).symm.imp_left (h.2 c)
  · simp only [Bool.and_eq_true, List.all_eq_true] at h
    exact Or.inl (h.2 c hc)

/-- A number begins with a digit. -/
theorem isNumeral_cons {c : Char} {cs : List Char} (h : isNumeral (c :: cs) = true) :
    c.isDigit = true := by
  rcases isDigit_of_mem_isNumeral h c List.mem_cons_self with hc | rfl
  · exact hc
  · simp [isNumeral, Text.cutFirst] at h

/-- What begins with a character of words is a number or a word, if it is no string. -/
theorem next?_of_isWordChar {c : Char} {cs : List Char} (hc : isWordChar c = true)
    (hquote : cs.head? ≠ some '\'') :
    next? (c :: cs) = if c.isDigit then number? (c :: cs) else word? (c :: cs) := by
  have hne : ∀ d : Char, isWordChar d = false → c ≠ d := by
    rintro d hd rfl
    rw [hc] at hd
    cases hd
  have hpunctuation : c ∉ punctuation := by
    intro hmem
    have hall : punctuation.all (fun d => !isWordChar d) = true := by decide
    exact hne c (by simpa using List.all_eq_true.mp hall c hmem) rfl
  rw [next?, if_neg (hne '"' rfl), if_neg (hne '\'' rfl), if_neg (fun h => hquote h.2),
    if_neg hpunctuation, if_pos hc]

/-- A number is one token in front of what ends it. -/
theorem next?_number {ds rest : List Char} (hds : isNumeral ds = true) (hrest : Delimited rest) :
    next? (ds ++ rest) = some (.number ds, rest) := by
  cases ds with
  | nil => simp [isNumeral, Text.cutFirst] at hds
  | cons d ds =>
      have hdigit : d.isDigit = true := isNumeral_cons hds
      have hrun : ∀ c ∈ d :: ds, isNumberChar c = true := by
        intro c hc
        rcases isDigit_of_mem_isNumeral hds c hc with hc | rfl
        · simp [isNumberChar, isWordChar, Char.isAlphanum, hc]
        · rfl
      obtain ⟨htake, hdrop⟩ := run_append hrun (hrest.of_mem_head? ⟨rfl, rfl, rfl⟩)
      have hword : isWordChar d = true := by simp [isWordChar, Char.isAlphanum, hdigit]
      rw [List.cons_append, next?_of_isWordChar hword, if_pos hdigit, ← List.cons_append, number?,
        htake, hdrop, if_pos hds]
      exact head?_append_ne (fun c hc => hrun c (List.mem_cons_of_mem _ hc)) rfl
        (hrest.head?_ne (by decide))

/-- A word without digits. -/
def isWord (w : String) : Bool :=
  w ≠ "" && w.toList.all fun c => isWordChar c && !c.isDigit

/-- A word is one token in front of what ends it. -/
theorem next?_word {w : String} {rest : List Char} (hw : isWord w = true)
    (hrest : Delimited rest) : next? (w.toList ++ rest) = some (.word w, rest) := by
  simp only [isWord, Bool.and_eq_true, decide_eq_true_eq, List.all_eq_true, Bool.not_eq_true'] at hw
  obtain ⟨hne, hchars⟩ := hw
  obtain ⟨htake, hdrop⟩ :=
    run_append (fun c hc => (hchars c hc).1) (hrest.of_mem_head? ⟨rfl, rfl, rfl⟩)
  have hread : word? (w.toList ++ rest) = some (.word w, rest) := by
    rw [word?, htake, hdrop, if_neg (hrest.head?_ne (by decide)), String.ofList_toList]
  cases hcs : w.toList with
  | nil => exact absurd (String.toList_eq_nil_iff.mp hcs) hne
  | cons c cs =>
      rw [hcs] at hchars hread
      obtain ⟨hc, hdigit⟩ := hchars c List.mem_cons_self
      rw [List.cons_append] at hread ⊢
      rw [next?_of_isWordChar hc, if_neg (by simp [hdigit]), hread]
      exact head?_append_ne (fun c hc => (hchars c (List.mem_cons_of_mem _ hc)).1) rfl
        (hrest.head?_ne (by decide))

/-- An operator is one token in front of anything that continues no operator. -/
theorem next?_operator {s : String} {rest : List Char} (hs : s ∈ operators)
    (hrest : ∀ c ∈ rest.head?, isOperatorChar c = false) :
    next? (s.toList ++ rest) = some (.sign s, rest) := by
  have hall : operators.all (fun s => s.toList.all isOperatorChar) = true := by decide
  have hrun := List.all_eq_true.mp (List.all_eq_true.mp hall s hs)
  obtain ⟨htake, hdrop⟩ := run_append hrun hrest
  have hread : operator? (s.toList ++ rest) = some (.sign s, rest) := by
    rw [operator?, htake, hdrop, String.ofList_toList, if_pos hs]
  rw [← hread]
  simp only [operators, List.mem_cons, List.not_mem_nil, or_false] at hs
  rcases hs with rfl | rfl | rfl | rfl | rfl | rfl | rfl | rfl <;> rfl

/-- A punctuation character is one token in front of anything. -/
theorem next?_punctuation {c : Char} (hc : c ∈ punctuation) (rest : List Char) :
    next? (c :: rest) = some (.sign (String.ofList [c]), rest) := by
  simp only [punctuation, List.mem_cons, List.not_mem_nil, or_false] at hc
  rcases hc with rfl | rfl | rfl | rfl <;> rfl

end ResourceQuery.Sql
