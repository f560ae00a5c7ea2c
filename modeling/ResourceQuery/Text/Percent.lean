import ResourceQuery.Text.Digits

/-!
# Percent escapes

A percent escape `%XX` stands for one byte, given by two hexadecimal digits of either case. A
percent sign that no two such digits follow stands for itself. The bytes of a whole text, escaped
or not, are then read as UTF-8.

## Main definitions

* `percentBytes`: the bytes that a text with escapes stands for.
* `percentDecode?`: the string they spell, if they are UTF-8.
* `percentEncode`: the other direction; every byte but an ASCII letter or digit is escaped.
-/

namespace ResourceQuery.Text

/-- The value of a hexadecimal digit, of either case. -/
def hexValue? (c : Char) : Option Nat :=
  if c.isDigit then some (digitValue c)
  else if 'a' ≤ c ∧ c ≤ 'f' then some (c.toNat - 'a'.toNat + 10)
  else if 'A' ≤ c ∧ c ≤ 'F' then some (c.toNat - 'A'.toNat + 10)
  else none

/-- The byte given by two hexadecimal digits. -/
def hexByte? (high low : Char) : Option UInt8 :=
  match hexValue? high, hexValue? low with
  | some h, some l => some (UInt8.ofNat (16 * h + l))
  | _, _ => none

/-- The bytes a text stands for: an escape is one byte, any other character its UTF-8 bytes. -/
def percentBytes : List Char → List UInt8
  | [] => []
  | [c] => String.utf8EncodeChar c
  | [c, d] => String.utf8EncodeChar c ++ percentBytes [d]
  | c :: high :: low :: rest =>
    match if c = '%' then hexByte? high low else none with
    | some byte => byte :: percentBytes rest
    | none => String.utf8EncodeChar c ++ percentBytes (high :: low :: rest)

/-- The string that a text with escapes spells, if its bytes are UTF-8. -/
def percentDecode? (cs : List Char) : Option String :=
  String.fromUTF8? (ByteArray.mk (percentBytes cs).toArray)

/-- The digit for a value below sixteen, letters as capitals. -/
def hexDigit (n : Nat) : Char :=
  if n < 10 then digitChar n else Char.ofNat ('A'.toNat + (n - 10))

/-- A byte as it stands in an encoded text: an ASCII letter or digit as itself, any other byte as
its escape. -/
def percentEncodeByte (byte : UInt8) : List Char :=
  if (Char.ofNat byte.toNat).isAlphanum then [Char.ofNat byte.toNat]
  else ['%', hexDigit (byte.toNat / 16), hexDigit (byte.toNat % 16)]

/-- A string with every byte of its UTF-8 form escaped, ASCII letters and digits apart. -/
def percentEncode (s : String) : List Char :=
  s.toUTF8.data.toList.flatMap percentEncodeByte

end ResourceQuery.Text
