import Mathlib.Data.Nat.Digits.Defs
import ResourceQuery.Proofs.Sql.Injection
import ResourceQuery.Proofs.Text.ByteOrder

/-!
# What the strings of a text denote

A database reads the strings of a text by rules of its own, here those of PostgreSQL. In a string
without escapes every character stands for itself, but two quotes for one. In an escape string a
backslash and a letter stand for a control character, a number behind a backslash for a byte, and a
code behind `\u` or `\U` for a character; any other character behind a backslash stands for itself.
The bytes together must be UTF-8, and none of them may be zero. Surrogates are refused here, even
where two of them would be one character.

Writing follows another table of escapes, and the two agree but for two characters. The code `0` is
written like an octal number and is no character for the reader. The code `1a` is written as a
backslash and a `z`, which is a `z` for the reader. So a text asks for the strings that are bound
in its place exactly when none of them has one of these characters (`Statement.strings_denote_iff`).

## Main definitions

* `Sql.denoted?`: the string that the contents of a literal stand for.
* `Sql.strings?`: the strings that the literals of a text stand for.
* `Sql.asRead`: what becomes of a character that is written and read again.

## Main statements

* `Sql.denoted?_written`: a written string is read again, up to the code `1a`.
* `Sql.denotation?_ofString_iff`: the strings that are read as they are.
* `Statement.strings_denote_iff`: the same for statements.
-/

namespace ResourceQuery

namespace Sql

/-! ### Reading strings -/

/-- The value of a digit to a base up to sixteen. -/
def digit? (base : Nat) (c : Char) : Option Nat :=
  (Text.hexValue? c).filter (· < base)

/-- The digits at the front of a text, but no more than a number of them. -/
def digitsOf (base most : Nat) (cs : List Char) : List Char :=
  (cs.take most).takeWhile fun c => (digit? base c).isSome

/-- The number that digits stand for. -/
def numberOf (base : Nat) (digits : List Char) : Nat :=
  Nat.ofDigits base (digits.reverse.filterMap (digit? base))

/-- The character that a backslash and a character stand for. -/
def escapedChar : Char → Char
  | 'b' => '\x08'
  | 'f' => '\x0c'
  | 'n' => '\n'
  | 'r' => '\r'
  | 't' => '\t'
  | c => c

/-- The bytes of the character with a code of just so many digits, and the text behind them. -/
def codePoint? (length : Nat) (cs : List Char) : Option (List UInt8 × List Char) :=
  let digits := digitsOf 16 length cs
  let code := numberOf 16 digits
  if digits.length = length ∧ code.isValidChar then
    some (String.utf8EncodeChar (Char.ofNat code), cs.drop length)
  else none

/-- The bytes of what stands behind a backslash, and the text behind it. -/
def escape? : List Char → Option (List UInt8 × List Char)
  | [] => none
  | c :: cs =>
    let octal := digitsOf 8 3 (c :: cs)
    let hex := digitsOf 16 2 cs
    if octal ≠ [] then some ([UInt8.ofNat (numberOf 8 octal)], (c :: cs).drop octal.length)
    else if c = 'x' ∧ hex ≠ [] then some ([UInt8.ofNat (numberOf 16 hex)], cs.drop hex.length)
    else if c = 'u' then codePoint? 4 cs
    else if c = 'U' then codePoint? 8 cs
    else some (String.utf8EncodeChar (escapedChar c), cs)

/-- Behind a code point there is no more text than in front of it. -/
theorem length_of_codePoint? {length : Nat} {cs rest : List Char} {bytes : List UInt8}
    (h : codePoint? length cs = some (bytes, rest)) : rest.length ≤ cs.length := by
  simp only [codePoint?] at h
  split at h
  · cases h
    simp
  · cases h

/-- Behind an escape there is no more text than in front of it. -/
theorem length_of_escape? {cs rest : List Char} {bytes : List UInt8}
    (h : escape? cs = some (bytes, rest)) : rest.length ≤ cs.length := by
  cases cs with
  | nil => cases h
  | cons c cs =>
      have hdrop : ∀ n, (cs.drop n).length ≤ (c :: cs).length := by
        intro n
        rw [List.length_drop, List.length_cons]
        omega
      simp only [escape?] at h
      split at h
      · cases h
        simp
      split at h
      · cases h
        exact hdrop _
      split at h
      · exact Nat.le_succ_of_le (length_of_codePoint? h)
      split at h
      · exact Nat.le_succ_of_le (length_of_codePoint? h)
      · cases h
        exact hdrop 0

/-- The bytes of the contents of a string. -/
def bodyBytes? (escapes : Bool) : List Char → Option (List UInt8)
  | [] => some []
  | '\'' :: '\'' :: cs => (bodyBytes? escapes cs).map (String.utf8EncodeChar '\'' ++ ·)
  | '\'' :: _ => none
  | c :: cs =>
    if escapes ∧ c = '\\' then
      match h : escape? cs with
      | none => none
      | some (bytes, rest) =>
        have := length_of_escape? h
        (bodyBytes? escapes rest).map (bytes ++ ·)
    else (bodyBytes? escapes cs).map (String.utf8EncodeChar c ++ ·)
termination_by cs => cs.length
decreasing_by all_goals simp only [List.length_cons]; omega

/-- The string that the contents of a literal stand for, if they stand for one. -/
def denoted? (escapes : Bool) (body : List Char) : Option String :=
  (bodyBytes? escapes body).bind fun bytes =>
    if 0 ∈ bytes then none else String.fromUTF8? (ByteArray.mk bytes.toArray)

/-- What a token stands for, if it is a string. -/
def Token.denotation? : Token → Option (Option String)
  | .string escapes body => some (denoted? escapes body)
  | _ => none

/-- What the strings of a text stand for, in order. -/
def strings? (cs : List Char) : Option (List (Option String)) :=
  (tokens? cs).map (List.filterMap Token.denotation?)

/-! ### One character -/

/-- A character that is neither a quote nor begins an escape stands for itself. -/
theorem bodyBytes?_cons {escapes : Bool} {c : Char} (hquote : c ≠ '\'')
    (hbackslash : escapes = true → c ≠ '\\') (cs : List Char) :
    bodyBytes? escapes (c :: cs) = (bodyBytes? escapes cs).map (String.utf8EncodeChar c ++ ·) := by
  rw [bodyBytes?]
  · exact if_neg fun h => hbackslash h.1 h.2
  · simp [hquote]
  · exact hquote

/-- An escape stands for its bytes. -/
theorem bodyBytes?_escape {cs rest : List Char} {bytes : List UInt8}
    (h : escape? cs = some (bytes, rest)) :
    bodyBytes? true ('\\' :: cs) = (bodyBytes? true rest).map (bytes ++ ·) := by
  rw [bodyBytes?, if_pos ⟨rfl, rfl⟩]
  · split
    · next hnone =>
        rw [hnone] at h
        cases h
    · next hsome =>
        rw [hsome] at h
        cases h
        rfl
  · simp
  · simp

/-- A character that begins no number has an escape of its own. -/
theorem escape?_cons {c : Char} (hoctal : digit? 8 c = none) (hx : c ≠ 'x') (hu : c ≠ 'u')
    (hU : c ≠ 'U') (cs : List Char) :
    escape? (c :: cs) = some (String.utf8EncodeChar (escapedChar c), cs) := by
  have hnone : digitsOf 8 3 (c :: cs) = [] := by simp [digitsOf, hoctal]
  simp [escape?, hnone, hx, hu, hU]

/-- What becomes of a character that is written and read again, if its code is not zero. -/
def asRead (c : Char) : Char :=
  if c = '\x1a' then 'z' else c

/-- A written character is an escape for the reader, or a character that stands for itself. -/
theorem read_escapeChar {c : Char} (hc : c ≠ '\x00') :
    (∃ d, Literal.escapeChar c = ['\\', d] ∧
        ∀ cs, escape? (d :: cs) = some (String.utf8EncodeChar (asRead c), cs)) ∨
      (Literal.escapeChar c = [c] ∧ c ≠ '\'' ∧ c ≠ '\\' ∧ asRead c = c) := by
  have hcode : ∀ {n : Nat}, c.toNat = n → c = Char.ofNat n := by
    rintro n rfl
    exact (Char.ofNat_toNat c).symm
  have hletter : ∀ {n : Nat} {d : Char}, c.toNat = n →
      (digit? 8 d = none ∧ d ≠ 'x' ∧ d ≠ 'u' ∧ d ≠ 'U' ∧ escapedChar d = asRead (Char.ofNat n)) →
      ∀ cs, escape? (d :: cs) = some (String.utf8EncodeChar (asRead c), cs) := by
    rintro n d hn ⟨hoctal, hx, hu, hU, hread⟩ cs
    rw [escape?_cons hoctal hx hu hU, hread, hcode hn]
  -- one case for each line of the table of escapes
  unfold Literal.escapeChar
  split
  · next h =>
      refine Or.inl ⟨c, rfl, fun cs => ?_⟩
      rcases h with rfl | rfl | rfl
      all_goals exact escape?_cons (by decide) (by decide) (by decide) (by decide) cs
  next h =>
  rw [not_or, not_or] at h
  obtain ⟨hbackslash, -, hquote⟩ := h
  split
  · next hn => exact absurd (hcode hn) hc
  split
  · next hn => exact Or.inl ⟨_, rfl, hletter hn (by decide)⟩
  split
  · next hn => exact Or.inl ⟨_, rfl, hletter hn (by decide)⟩
  split
  · next hn => exact Or.inl ⟨_, rfl, hletter hn (by decide)⟩
  split
  · next hn => exact Or.inl ⟨_, rfl, hletter hn (by decide)⟩
  split
  · next hn => exact Or.inl ⟨_, rfl, hletter hn (by decide)⟩
  · next hsubstitute _ _ =>
      refine Or.inr ⟨rfl, hquote, hbackslash, if_neg ?_⟩
      rintro rfl
      exact hsubstitute rfl

/-! ### Written strings -/

/-- **The bytes of a written string**, if it is read with escapes or has none. -/
theorem bodyBytes?_written {escapes : Bool} {s : List Char}
    (hescapes : escapes = true ∨ '\\' ∉ s.flatMap Literal.escapeChar) (hzero : '\x00' ∉ s) :
    bodyBytes? escapes (s.flatMap Literal.escapeChar)
      = some (Text.utf8Bytes (s.map asRead)) := by
  induction s with
  | nil =>
      rw [List.flatMap_nil, bodyBytes?]
      rfl
  | cons c s ih =>
      rw [List.flatMap_cons, List.mem_append, not_or] at hescapes
      rw [List.mem_cons, not_or] at hzero
      have hrest := ih (hescapes.imp_right fun h => h.2) hzero.2
      have hbytes : Text.utf8Bytes ((c :: s).map asRead)
          = String.utf8EncodeChar (asRead c) ++ Text.utf8Bytes (s.map asRead) := rfl
      rw [List.flatMap_cons, hbytes]
      rcases read_escapeChar (Ne.symm hzero.1) with ⟨d, hd, hread⟩ | ⟨hc, hquote, hbackslash, hread⟩
      · obtain rfl : escapes = true := hescapes.resolve_right fun h => h.1 (by simp [hd])
        rw [hd, List.cons_append, List.singleton_append, bodyBytes?_escape (hread _), hrest]
        rfl
      · rw [hc, List.singleton_append, bodyBytes?_cons hquote fun _ => hbackslash, hrest, hread]
        rfl

/-- Only the character with the code zero has a byte that is zero. -/
theorem zero_mem_utf8EncodeChar_iff {c : Char} : 0 ∈ String.utf8EncodeChar c ↔ c = '\x00' := by
  constructor
  · intro h
    have hzero : (0 : UInt8).toNat = 0 := rfl
    rcases Text.utf8EncodeChar_digits c with ⟨hc, hbytes⟩ | ⟨hc, _, _, _, _, hcode, hbytes⟩ |
        ⟨hc, _, _, _, _, _, _, hcode, hbytes⟩ | ⟨hc, _, _, _, _, _, _, _, _, hcode, hbytes⟩ <;>
      rw [hbytes] at h <;>
      simp only [List.mem_cons, List.not_mem_nil, or_false, ← UInt8.toNat_inj,
        UInt8.toNat_ofNat'] at h
    · refine Char.ext (UInt32.toNat_inj.mp ?_)
      have hcode : ('\x00').val.toNat = 0 := rfl
      omega
    all_goals omega
  · rintro rfl
    decide

/-- Only the character with the code zero has a zero among its bytes. -/
theorem zero_mem_utf8Bytes_iff {cs : List Char} : 0 ∈ Text.utf8Bytes cs ↔ '\x00' ∈ cs := by
  simp [Text.utf8Bytes, zero_mem_utf8EncodeChar_iff]

/-- **A written string is read again**, up to the code `1a`, if it does not have the code zero. -/
theorem denoted?_written {escapes : Bool} {s : List Char}
    (hescapes : escapes = true ∨ '\\' ∉ s.flatMap Literal.escapeChar) (hzero : '\x00' ∉ s) :
    denoted? escapes (s.flatMap Literal.escapeChar) = some (String.ofList (s.map asRead)) := by
  have hclear : 0 ∉ Text.utf8Bytes (s.map asRead) := by
    rw [zero_mem_utf8Bytes_iff]
    intro hmem
    obtain ⟨c, hc, hread⟩ := List.mem_map.mp hmem
    rw [asRead] at hread
    split at hread
    · cases hread
    · exact hzero (hread ▸ hc)
  rw [denoted?, bodyBytes?_written hescapes hzero, Option.bind_some, if_neg hclear,
    Text.fromUTF8?_utf8Bytes]

/-- No literal stands for a string with the code zero. -/
theorem zero_notMem_of_denoted? {escapes : Bool} {body : List Char} {s : String}
    (h : denoted? escapes body = some s) : '\x00' ∉ s.toList := by
  obtain ⟨bytes, -, hbytes⟩ := Option.bind_eq_some_iff.mp h
  split at hbytes
  · cases hbytes
  · next hclear =>
      rw [String.fromUTF8?] at hbytes
      split at hbytes
      · cases hbytes
        rw [← zero_mem_utf8Bytes_iff, ← Text.data_toUTF8]
        exact hclear
      · cases hbytes

/-- A text is read as it is when it does not have the code `1a`. -/
theorem map_asRead_eq_self_iff {s : List Char} : s.map asRead = s ↔ '\x1a' ∉ s := by
  have hmap : s.map asRead = s.map id ↔ ∀ c ∈ s, asRead c = id c := List.map_inj_left
  rw [List.map_id] at hmap
  rw [hmap]
  constructor
  · intro h hmem
    exact absurd (h _ hmem) (by decide)
  · intro h c hc
    exact if_neg fun (heq : c = '\x1a') => h (heq ▸ hc)

/-- The token of a string is read with escapes, or it has none. -/
theorem denotation?_ofString {s : String} (hzero : '\x00' ∉ s.toList) :
    (Token.ofString s).denotation? = some (some (String.ofList (s.toList.map asRead))) := by
  refine congrArg some (denoted?_written ?_ hzero)
  rw [decide_eq_true_iff]
  exact em _

/-- **The strings that are read as they are**: those with neither of the two characters. -/
theorem denotation?_ofString_iff {s : String} :
    (Token.ofString s).denotation? = some (some s) ↔ '\x00' ∉ s.toList ∧ '\x1a' ∉ s.toList := by
  constructor
  · intro h
    have hzero : '\x00' ∉ s.toList := zero_notMem_of_denoted? (Option.some.inj h)
    rw [denotation?_ofString hzero, Option.some_inj, Option.some_inj] at h
    refine ⟨hzero, ?_⟩
    rw [← map_asRead_eq_self_iff, ← String.toList_ofList (l := s.toList.map asRead), h]
  · rintro ⟨hzero, hsubstitute⟩
    rw [denotation?_ofString hzero, map_asRead_eq_self_iff.mpr hsubstitute, String.ofList_toList]

end Sql

open Sql

namespace Statement

/-- The strings of the text of a statement are those of its values, as they are read. -/
theorem strings?_inlined (statement : Statement) :
    strings? statement.inlined.toList
      = some ((statement.values.filterMap Literal.string?).map
          fun s => ((Token.ofString s).denotation?).join) := by
  have hother : ∀ token : Token, token.body? = none → token.denotation? = none := by
    intro token
    cases token <;> simp [Token.body?, Token.denotation?]
  rw [strings?, tokens?_inlined, Option.map_some, filterMap_tokens hother, ← List.filterMap_eq_map]
  rfl

/-- **A text asks for the strings that are bound in its place** exactly when none of them has the
code `0` or `1a`. The strings in the text of a statement, with its values written out, stand for
strings by the rules of the database; the bound values have strings as well, and these are the same
in the same order if they keep clear of the two characters. If they keep clear of the code `0`
only, the text asks for them with a `z` for each character with the code `1a`. -/
theorem strings_denote_iff (table : String) (parts : List Part) :
    let statement := (start table).applyAll parts
    let bound := statement.values.filterMap Literal.string?
    (strings? statement.inlined.toList = some (bound.map some) ↔
      ∀ s ∈ bound, '\x00' ∉ s.toList ∧ '\x1a' ∉ s.toList) ∧
    ((∀ s ∈ bound, '\x00' ∉ s.toList) →
      strings? statement.inlined.toList
        = some (bound.map fun s => some (String.ofList (s.toList.map asRead)))) := by
  intro statement bound
  rw [strings?_inlined, Option.some_inj, Option.some_inj]
  constructor
  · rw [List.map_inj_left]
    refine forall₂_congr fun s _ => ?_
    rw [← denotation?_ofString_iff, ← Option.some_inj]
    rfl
  · intro hzero
    refine List.map_congr_left fun s hs => ?_
    rw [denotation?_ofString (hzero s hs)]
    rfl

/-- The text of a filter for the character with the code `1a` asks for a `z`. -/
theorem strings_denote_substitute :
    ((start "people").applyAll [nameFilter "\x1a"]).values.filterMap Literal.string? = ["\x1a"] ∧
      strings? ((start "people").applyAll [nameFilter "\x1a"]).inlined.toList = some [some "z"] :=
  ⟨rfl, (strings_denote_iff "people" [nameFilter "\x1a"]).2 (by decide)⟩

end Statement

end ResourceQuery
