import Mathlib.Data.List.Basic
import Ceylon.Text.Glyph

/-!
# Decoding loses nothing

The glyphs of a byte string spell it: put back together, the encodings of the characters and the stray bytes
are the bytes that were decoded (`Glyph.flatMap_bytes_decode`).
-/

namespace Ceylon.Text

/-- The encoding of a text. -/
def encode (cs : List Char) : List UInt8 :=
  cs.flatMap String.utf8EncodeChar

@[simp] theorem encode_nil : encode [] = [] := rfl

@[simp] theorem encode_append (cs ds : List Char) : encode (cs ++ ds) = encode cs ++ encode ds :=
  List.flatMap_append

@[simp] theorem length_encode_cons (c : Char) (cs : List Char) :
    (encode (c :: cs)).length = c.utf8Size + (encode cs).length := by
  simp [encode]

namespace Glyph

/-- The bytes that a glyph was read from. -/
def bytes : Glyph → List UInt8
  | .char c => String.utf8EncodeChar c
  | .stray b => [b]

/-! ## One character -/

theorem isTail_bounds {b : UInt8} (h : isTail b = true) :
    b.toNat = 0x80 + tailBits b ∧ tailBits b < 64 := by
  simp only [isTail, Bool.and_eq_true, decide_eq_true_eq, UInt8.le_iff_toNat_le] at h
  obtain ⟨hlow, hhigh⟩ := h
  change 0x80 ≤ b.toNat at hlow
  change b.toNat ≤ 0xbf at hhigh
  have hbits : tailBits b = b.toNat - 0x80 := rfl
  omega

/-- The code point of a character that is given by its number. -/
theorem toNat_val_ofNat {n : Nat} (hn : n.isValidChar) : (Char.ofNat n).val.toNat = n := by
  rw [Char.ofNat, dif_pos hn]
  rfl

/-- A byte is the one with its number. -/
theorem ofNat_eq_of_toNat {n : Nat} {b : UInt8} (h : n = b.toNat) : UInt8.ofNat n = b := by
  rw [h, UInt8.ofNat_toNat]

theorem encode_one {a : UInt8} (ha : a.toNat < 0x80) :
    String.utf8EncodeChar (Char.ofNat a.toNat) = [a] := by
  have hval := toNat_val_ofNat (n := a.toNat) (.inl (by omega))
  simp only [String.utf8EncodeChar, hval]
  rw [if_pos (by omega), UInt8.ofNat_toNat]

theorem encode_two {a b : UInt8} {v : Nat} (ha : 0xc2 ≤ a.toNat ∧ a.toNat ≤ 0xdf)
    (hb : isTail b = true) (hv : v = (a.toNat - 0xc0) * 64 + tailBits b) :
    String.utf8EncodeChar (Char.ofNat v) = [a, b] := by
  have hb := isTail_bounds hb
  have hval := toNat_val_ofNat (n := v) (.inl (by omega))
  simp only [String.utf8EncodeChar, hval]
  rw [if_neg (by omega), if_pos (by omega), ofNat_eq_of_toNat (b := a) (by omega),
    ofNat_eq_of_toNat (b := b) (by omega)]

theorem encode_three {a b c : UInt8} {v : Nat} (ha : 0xe0 ≤ a.toNat ∧ a.toNat ≤ 0xef)
    (hb : isTail b = true) (hlong : a.toNat ≠ 0xe0 ∨ 0xa0 ≤ b.toNat)
    (hsurrogate : a.toNat ≠ 0xed ∨ b.toNat ≤ 0x9f) (hc : isTail c = true)
    (hv : v = (a.toNat - 0xe0) * 4096 + tailBits b * 64 + tailBits c) :
    String.utf8EncodeChar (Char.ofNat v) = [a, b, c] := by
  have hb := isTail_bounds hb
  have hc := isTail_bounds hc
  have hvalid : v.isValidChar := by
    simp only [Nat.isValidChar]
    omega
  have hval := toNat_val_ofNat hvalid
  simp only [String.utf8EncodeChar, hval]
  rw [if_neg (by omega), if_neg (by omega), if_pos (by omega), ofNat_eq_of_toNat (b := a) (by omega),
    ofNat_eq_of_toNat (b := b) (by omega), ofNat_eq_of_toNat (b := c) (by omega)]

theorem encode_four {a b c d : UInt8} {v : Nat} (ha : 0xf0 ≤ a.toNat ∧ a.toNat ≤ 0xf4)
    (hb : isTail b = true) (hlong : a.toNat ≠ 0xf0 ∨ 0x90 ≤ b.toNat)
    (hlast : a.toNat ≠ 0xf4 ∨ b.toNat ≤ 0x8f) (hc : isTail c = true) (hd : isTail d = true)
    (hv : v = (a.toNat - 0xf0) * 262144 + tailBits b * 4096 + tailBits c * 64 + tailBits d) :
    String.utf8EncodeChar (Char.ofNat v) = [a, b, c, d] := by
  have hb := isTail_bounds hb
  have hc := isTail_bounds hc
  have hd := isTail_bounds hd
  have hval := toNat_val_ofNat (n := v) (.inr (by omega))
  simp only [String.utf8EncodeChar, hval]
  rw [if_neg (by omega), if_neg (by omega), if_neg (by omega), ofNat_eq_of_toNat (b := a) (by omega),
    ofNat_eq_of_toNat (b := b) (by omega), ofNat_eq_of_toNat (b := c) (by omega),
    ofNat_eq_of_toNat (b := d) (by omega)]

/-- The bytes from which a character is read are its encoding. -/
theorem encode_of_leading {a : UInt8} {rest : List UInt8} {ch : Char} {n : Nat}
    (h : leading a rest = some (ch, n)) : String.utf8EncodeChar ch = a :: rest.take n := by
  -- By the length of the encoding, as the decoder tries them; what it tests of the bytes is what rules out the
  -- shorter ones.
  unfold leading at h
  split at h
  · next hascii =>
    obtain ⟨rfl, rfl⟩ : Char.ofNat a.toNat = ch ∧ 0 = n := by simpa using h
    exact encode_one (UInt8.lt_iff_toNat_lt.mp hascii)
  · match rest with
    | [] => cases h
    | b :: rest =>
      simp only at h
      split at h
      · next htwo =>
        simp only [Bool.and_eq_true, decide_eq_true_eq, UInt8.le_iff_toNat_le] at htwo
        obtain ⟨rfl, rfl⟩ := Prod.mk.inj (Option.some.inj h)
        exact encode_two htwo.1 htwo.2 rfl
      · match rest with
        | [] => cases h
        | c :: rest =>
          simp only at h
          split at h
          · next hthree =>
            simp only [Bool.and_eq_true, Bool.or_eq_true, bne_iff_ne, decide_eq_true_eq,
              UInt8.le_iff_toNat_le, ne_eq, ← UInt8.toNat_inj] at hthree
            obtain ⟨⟨ha, ⟨hb, hlong⟩, hsurrogate⟩, hc⟩ := hthree
            obtain ⟨rfl, rfl⟩ := Prod.mk.inj (Option.some.inj h)
            exact encode_three ha hb hlong hsurrogate hc rfl
          · match rest with
            | [] => cases h
            | d :: rest =>
              simp only at h
              split at h
              · next hfour =>
                simp only [Bool.and_eq_true, Bool.or_eq_true, bne_iff_ne, decide_eq_true_eq,
                  UInt8.le_iff_toNat_le, ne_eq, ← UInt8.toNat_inj] at hfour
                obtain ⟨⟨⟨ha, ⟨hb, hlong⟩, hlast⟩, hc⟩, hd⟩ := hfour
                obtain ⟨rfl, rfl⟩ := Prod.mk.inj (Option.some.inj h)
                exact encode_four ha hb hlong hlast hc hd rfl
              · cases h

/-! ## The whole text -/

/-- Decoding what is left of a text spells what is left of it. -/
theorem flatMap_bytes_decodeAfter (skip : Nat) (text : List UInt8) :
    (decodeAfter skip text).flatMap bytes = text.drop skip := by
  induction text generalizing skip with
  | nil => simp [decodeAfter]
  | cons b rest ih =>
    cases skip with
    | succ skip => simpa [decodeAfter] using ih skip
    | zero =>
      rw [decodeAfter]
      split
      · next c tails hlead =>
        rw [List.flatMap_cons, ih, bytes, encode_of_leading hlead, List.cons_append,
          List.take_append_drop, List.drop_zero]
      · rw [List.flatMap_cons, ih, bytes, List.singleton_append, List.drop_zero, List.drop_zero]

/-- The glyphs of a byte string spell it. -/
theorem flatMap_bytes_decode (text : List UInt8) : (decode text).flatMap bytes = text :=
  flatMap_bytes_decodeAfter 0 text

/-- A byte string without stray bytes is the encoding of its characters. -/
theorem encode_of_decode {text : List UInt8} {cs : List Char} (h : decode text = cs.map .char) :
    encode cs = text := by
  have hspell := flatMap_bytes_decode text
  rw [h, List.flatMap_map] at hspell
  exact hspell

end Glyph

end Ceylon.Text
