import ResourceQuery.Text.Percent

/-!
# Percent escapes undone

Decoding a text works on its bytes: an escape is one byte, any other character its UTF-8 bytes. So
it is enough to see that each encoded byte stands for itself (`percentBytes_percentEncodeByte`), in
front of any text; a whole string then follows byte by byte, and the bytes of a string are UTF-8.

An encoded text has only ASCII letters, digits and percent signs, so none of the characters that
separate the parts of a query string occurs in it.

## Main statements

* `percentBytes_percentEncode_append`: the bytes of an encoded string, in front of any text.
* `percentDecode?_eq_some`: a text is decoded to what its bytes spell.
* `of_mem_percentEncode`: the characters of an encoded string.
-/

namespace ResourceQuery.Text

/-- The bytes of a list of characters. -/
def utf8Bytes (cs : List Char) : List UInt8 :=
  cs.flatMap String.utf8EncodeChar

/-! ### Bytes -/

/-- A character that starts no escape stands for its own bytes. -/
theorem percentBytes_cons {c : Char} (h : c ≠ '%') (rest : List Char) :
    percentBytes (c :: rest) = String.utf8EncodeChar c ++ percentBytes rest := by
  match rest with
  | [] => simp [percentBytes]
  | [d] => rfl
  | high :: low :: rest => rw [percentBytes, if_neg h]

/-- An escape stands for its byte. -/
theorem percentBytes_escape {high low : Char} {byte : UInt8} (h : hexByte? high low = some byte)
    (rest : List Char) : percentBytes ('%' :: high :: low :: rest) = byte :: percentBytes rest := by
  rw [percentBytes, if_pos rfl, h]

/-- The two digits of a byte give the byte. -/
theorem hexByte?_hexDigit (byte : UInt8) :
    hexByte? (hexDigit (byte.toNat / 16)) (hexDigit (byte.toNat % 16)) = some byte := by
  have hdigit : ∀ n < 16, hexValue? (hexDigit n) = some n := by decide
  have hbyte : byte.toNat < 256 := byte.toNat_lt
  have hsum : 16 * (byte.toNat / 16) + byte.toNat % 16 = byte.toNat := Nat.div_add_mod _ _
  rw [hexByte?, hdigit _ (by omega), hdigit _ (by omega)]
  simp [hsum]

/-- An ASCII letter or digit has one byte, its own code. -/
theorem utf8EncodeChar_of_isAlphanum (byte : UInt8)
    (h : (Char.ofNat byte.toNat).isAlphanum = true) :
    Char.ofNat byte.toNat ≠ '%' ∧ String.utf8EncodeChar (Char.ofNat byte.toNat) = [byte] := by
  have hall : ∀ n < 256, (Char.ofNat n).isAlphanum = true →
      Char.ofNat n ≠ '%' ∧ String.utf8EncodeChar (Char.ofNat n) = [UInt8.ofNat n] := by
    decide +kernel
  simpa using hall byte.toNat byte.toNat_lt h

/-- **An encoded byte stands for itself**, in front of any text. -/
theorem percentBytes_percentEncodeByte (byte : UInt8) (rest : List Char) :
    percentBytes (percentEncodeByte byte ++ rest) = byte :: percentBytes rest := by
  rw [percentEncodeByte]
  split
  · next h =>
      obtain ⟨hne, hbytes⟩ := utf8EncodeChar_of_isAlphanum byte h
      rw [List.singleton_append, percentBytes_cons hne, hbytes, List.singleton_append]
  · exact percentBytes_escape (hexByte?_hexDigit byte) rest

/-- The bytes of a string are those of its characters. -/
theorem data_toUTF8 (s : String) : s.toUTF8.data.toList = utf8Bytes s.toList := by
  rw [String.toUTF8_eq_toByteArray, ← String.utf8Encode_toList, List.utf8Encode, utf8Bytes]
  simp

/-- An encoded string stands for its bytes, in front of any text. -/
theorem percentBytes_percentEncode_append (s : String) (rest : List Char) :
    percentBytes (percentEncode s ++ rest) = utf8Bytes s.toList ++ percentBytes rest := by
  rw [percentEncode, data_toUTF8]
  induction utf8Bytes s.toList with
  | nil => rfl
  | cons byte bytes ih =>
      rw [List.flatMap_cons, List.append_assoc, percentBytes_percentEncodeByte, ih]
      rfl

/-- An encoded string stands for its bytes. -/
theorem percentBytes_percentEncode (s : String) :
    percentBytes (percentEncode s) = utf8Bytes s.toList := by
  simpa [percentBytes] using percentBytes_percentEncode_append s []

/-! ### Strings -/

/-- The bytes of a list of characters spell it. -/
theorem fromUTF8?_utf8Bytes (cs : List Char) :
    String.fromUTF8? (ByteArray.mk (utf8Bytes cs).toArray) = some (String.ofList cs) := by
  have hbytes : ByteArray.mk (utf8Bytes cs).toArray = (String.ofList cs).toByteArray := by
    rw [String.toByteArray_ofList, List.utf8Encode, utf8Bytes]
    ext1
    simp
  rw [hbytes, String.fromUTF8?, dif_pos (String.ofList cs).isValidUTF8]
  rfl

/-- A text whose bytes are those of a list of characters is decoded to it. -/
theorem percentDecode?_eq_some {encoded cs : List Char} (h : percentBytes encoded = utf8Bytes cs) :
    percentDecode? encoded = some (String.ofList cs) := by
  rw [percentDecode?, h, fromUTF8?_utf8Bytes]

/-! ### Characters -/

/-- An encoded string has no characters but percent signs, ASCII letters and digits. -/
theorem of_mem_percentEncode {s : String} {c : Char} (h : c ∈ percentEncode s) :
    c = '%' ∨ c.isAlphanum = true := by
  have hdigit : ∀ n < 16, (hexDigit n).isAlphanum = true := by decide
  obtain ⟨byte, -, hc⟩ := List.mem_flatMap.mp h
  have hbyte : byte.toNat < 256 := byte.toNat_lt
  rw [percentEncodeByte] at hc
  split at hc
  · next hbyte =>
      rw [List.mem_singleton.mp hc]
      exact Or.inr hbyte
  · simp only [List.mem_cons, List.not_mem_nil, or_false] at hc
    rcases hc with rfl | rfl | rfl
    · exact Or.inl rfl
    · exact Or.inr (hdigit _ (by omega))
    · exact Or.inr (hdigit _ (by omega))

/-- A character that is neither a percent sign nor an ASCII letter or digit is not in an encoded
string. -/
theorem notMem_percentEncode {s : String} {c : Char} (hpercent : c ≠ '%')
    (halphanum : c.isAlphanum = false) : c ∉ percentEncode s := by
  intro h
  rcases of_mem_percentEncode h with heq | htrue
  · exact hpercent heq
  · rw [halphanum] at htrue
    cases htrue

end ResourceQuery.Text
