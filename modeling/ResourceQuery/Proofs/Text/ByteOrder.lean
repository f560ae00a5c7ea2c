import ResourceQuery.Proofs.Text.Percent

/-!
# The order of texts is the order of their bytes

Texts are compared by the code points of their characters. The encoding keeps this order: where two
characters differ, the greater one has the greater byte at the first place where their bytes differ,
and neither character ends before that place. So it does not matter whether names are kept by
increasing code points or by increasing bytes.

## Main statements

* `utf8EncodeChar_append_lt`: one character decides, whatever follows it.
* `lt_iff_bytes_lt`: one text is before another exactly when its bytes are.
-/

namespace ResourceQuery.Text

/-- The bytes of a character: the code point itself, or its digits of six bits, the first of which
is marked with the number of bytes. -/
theorem utf8EncodeChar_digits (c : Char) :
    (c.val.toNat < 0x80 ∧ String.utf8EncodeChar c = [.ofNat c.val.toNat]) ∨
      (0x80 ≤ c.val.toNat ∧ ∃ a b, a < 32 ∧ b < 64 ∧ c.val.toNat = a * 64 + b ∧
        String.utf8EncodeChar c = [.ofNat (a + 192), .ofNat (b + 128)]) ∨
      (0x800 ≤ c.val.toNat ∧ ∃ a b x, a < 16 ∧ b < 64 ∧ x < 64 ∧
        c.val.toNat = (a * 64 + b) * 64 + x ∧
        String.utf8EncodeChar c = [.ofNat (a + 224), .ofNat (b + 128), .ofNat (x + 128)]) ∨
      (0x10000 ≤ c.val.toNat ∧ ∃ a b x y, a < 8 ∧ b < 64 ∧ x < 64 ∧ y < 64 ∧
        c.val.toNat = ((a * 64 + b) * 64 + x) * 64 + y ∧
        String.utf8EncodeChar c
          = [.ofNat (a + 240), .ofNat (b + 128), .ofNat (x + 128), .ofNat (y + 128)]) := by
  have hc : c.val.toNat < 0x110000 := by
    rcases c.valid with hlow | hhigh
    · exact Nat.lt_trans hlow (by decide)
    · exact hhigh.2
  rw [String.utf8EncodeChar]
  by_cases hone : c.val.toNat ≤ 0x7f
  · exact Or.inl ⟨by omega, if_pos hone⟩
  by_cases htwo : c.val.toNat ≤ 0x7ff
  · exact Or.inr (Or.inl ⟨by omega, _, _, by omega, by omega, by omega,
      (if_neg hone).trans (if_pos htwo)⟩)
  by_cases hthree : c.val.toNat ≤ 0xffff
  · exact Or.inr (Or.inr (Or.inl ⟨by omega, _, _, _, by omega, by omega, by omega, by omega,
      (if_neg hone).trans ((if_neg htwo).trans (if_pos hthree))⟩))
  · exact Or.inr (Or.inr (Or.inr ⟨by omega, _, _, _, _, by omega, by omega, by omega, by omega,
      by omega, (if_neg hone).trans ((if_neg htwo).trans (if_neg hthree))⟩))

/-- The bytes of a smaller character are smaller, whatever follows them. -/
theorem utf8EncodeChar_append_lt {c d : Char} (h : c < d) (s t : List UInt8) :
    String.utf8EncodeChar c ++ s < String.utf8EncodeChar d ++ t := by
  have hval : c.val.toNat < d.val.toNat := h
  -- the first byte tells the number of bytes; among as many bytes the first digit decides
  rcases utf8EncodeChar_digits c with ⟨hc, hbytes⟩ | ⟨hc, _, _, _, _, hcode, hbytes⟩ |
      ⟨hc, _, _, _, _, _, _, hcode, hbytes⟩ | ⟨hc, _, _, _, _, _, _, _, _, hcode, hbytes⟩ <;>
    rcases utf8EncodeChar_digits d with ⟨hd, hbytes'⟩ | ⟨hd, _, _, _, _, hcode', hbytes'⟩ |
        ⟨hd, _, _, _, _, _, _, hcode', hbytes'⟩ | ⟨hd, _, _, _, _, _, _, _, _, hcode', hbytes'⟩ <;>
    rw [hbytes, hbytes'] <;>
    simp only [List.cons_append, List.nil_append, List.cons_lt_cons_iff, UInt8.lt_iff_toNat_lt,
      ← UInt8.toNat_inj, UInt8.toNat_ofNat'] <;>
    omega

/-- Smaller characters have smaller bytes. -/
theorem utf8Bytes_lt {cs ds : List Char} (h : cs < ds) : utf8Bytes cs < utf8Bytes ds := by
  induction cs generalizing ds with
  | nil =>
      cases ds with
      | nil => cases h
      | cons d ds =>
          rw [utf8Bytes, utf8Bytes, List.flatMap_nil, List.flatMap_cons]
          cases hbytes : String.utf8EncodeChar d with
          | nil => exact absurd hbytes String.utf8EncodeChar_ne_nil
          | cons byte bytes => exact List.nil_lt_cons byte _
  | cons c cs ih =>
      cases ds with
      | nil => cases h
      | cons d ds =>
          rw [utf8Bytes, utf8Bytes, List.flatMap_cons, List.flatMap_cons]
          rcases List.cons_lt_cons_iff.mp h with hlt | ⟨rfl, hlt⟩
          · exact utf8EncodeChar_append_lt hlt _ _
          · exact List.append_left_lt (ih hlt)

/-- **The order of texts is the order of their bytes.** -/
theorem lt_iff_bytes_lt {s t : String} : s < t ↔ s.toUTF8.data.toList < t.toUTF8.data.toList := by
  have hless : ∀ {s t : String}, s < t → utf8Bytes s.toList < utf8Bytes t.toList := utf8Bytes_lt
  rw [data_toUTF8, data_toUTF8]
  refine ⟨hless, fun h => ?_⟩
  by_cases heq : s = t
  · subst heq
    exact absurd h (List.lt_irrefl _)
  · by_cases hlt : s < t
    · exact hlt
    · have hgt : t < s := Std.lt_of_le_of_ne (String.not_lt.mp hlt) (Ne.symm heq)
      exact absurd (hless hgt) (List.lt_asymm h)

end ResourceQuery.Text
