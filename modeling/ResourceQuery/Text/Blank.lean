/-!
# Blank characters and trimming

The blank characters are those with the Unicode property `White_Space`. Every place of the
library that trims a text, asks whether it is blank, or refuses blanks in a name uses this one
class.

## Main definitions

* `isBlank`: membership in `White_Space`.
* `trim`, `trimEnd`: a text without its outer, or its trailing, blanks.
* `trimmed`, `isBlankText`: the same on strings.
-/

namespace ResourceQuery.Text

/-- The code point ranges of `White_Space`, in increasing order, both ends included. -/
def blankRanges : List (Nat × Nat) :=
  [(0x09, 0x0D), (0x20, 0x20), (0x85, 0x85), (0xA0, 0xA0), (0x1680, 0x1680), (0x2000, 0x200A),
    (0x2028, 0x2029), (0x202F, 0x202F), (0x205F, 0x205F), (0x3000, 0x3000)]

/-- A character is blank when its code point lies in one of the ranges of `White_Space`. -/
def isBlank (c : Char) : Bool :=
  blankRanges.any fun (first, last) => first ≤ c.toNat && c.toNat ≤ last

/-- The text without its leading blanks. -/
def trimStart (cs : List Char) : List Char :=
  cs.dropWhile isBlank

/-- The text without its trailing blanks. -/
def trimEnd (cs : List Char) : List Char :=
  (cs.reverse.dropWhile isBlank).reverse

/-- The text without its outer blanks; blanks inside stay. -/
def trim (cs : List Char) : List Char :=
  trimEnd (trimStart cs)

/-- The string without its outer blanks. -/
def trimmed (s : String) : String :=
  String.ofList (trim s.toList)

/-- A string is blank when it has no character that is not. The empty string is blank. -/
def isBlankText (s : String) : Bool :=
  s.toList.all isBlank

/-- The string with the capital letters `A` to `Z` made small and all else as it was. -/
def lowercase (s : String) : String :=
  String.ofList (s.toList.map Char.toLower)

/-- A text of blanks has nothing but leading blanks. -/
theorem trimStart_of_all {cs : List Char} (h : cs.all isBlank = true) : trimStart cs = [] := by
  induction cs with
  | nil => rfl
  | cons c cs ih =>
    simp only [List.all_cons, Bool.and_eq_true] at h
    simpa [trimStart, h.1] using ih h.2

end ResourceQuery.Text
