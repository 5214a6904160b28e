import Ceylon.Proofs.Decoding

/-!
# Texts and their bytes

A text can be read again from its bytes (`Glyph.decode_encode`), and the order of texts is that of their bytes
(`encode_lt_encode_iff`): the first byte of an encoding tells how long it is, and the longer ones belong to the later
characters.
-/

namespace Ceylon.Text

theorem toNat_byte {n : Nat} (h : n < 256) : (UInt8.ofNat n).toNat = n :=
  UInt8.toNat_ofNat_of_lt h

/-- The numbers of characters. -/
theorem val_valid (c : Char) : c.val.toNat < 0xd800 ∨ 0xdfff < c.val.toNat ∧ c.val.toNat < 0x110000 :=
  c.valid

namespace Glyph

/-! ## Reading one character -/

theorem isTail_byte (n : Nat) : isTail (UInt8.ofNat (n % 64 + 128)) = true := by
  simp (disch := omega) only [isTail, Bool.and_eq_true, decide_eq_true_eq, UInt8.le_iff_toNat_le, toNat_byte,
    UInt8.reduceToNat]
  omega

theorem tailBits_byte (n : Nat) : tailBits (UInt8.ofNat (n % 64 + 128)) = n % 64 := by
  have hbyte := toNat_byte (n := n % 64 + 128) (by omega)
  unfold tailBits
  omega

theorem leading_one {a : UInt8} (h : a.toNat < 0x80) (rest : List UInt8) :
    leading a rest = some (Char.ofNat a.toNat, 0) := by
  unfold leading
  rw [if_pos (UInt8.lt_iff_toNat_lt.mpr h)]

/-- A byte that begins an encoding of several ones. -/
theorem not_ascii {a : UInt8} (h : 0x80 ≤ a.toNat) : ¬ a < 0x80 := by
  simp only [UInt8.lt_iff_toNat_lt, UInt8.reduceToNat]
  omega

theorem leading_two {a b : UInt8} (ha : 0xc2 ≤ a.toNat ∧ a.toNat ≤ 0xdf) (hb : isTail b = true) (rest : List UInt8) :
    leading a (b :: rest) = some (Char.ofNat ((a.toNat - 0xc0) * 64 + tailBits b), 1) := by
  have hrange : (0xc2 : UInt8) ≤ a ∧ a ≤ 0xdf := by rwa [UInt8.le_iff_toNat_le, UInt8.le_iff_toNat_le]
  unfold leading
  rw [if_neg (not_ascii (by omega))]
  simp [hrange, hb]

theorem leading_three {a b c : UInt8} (ha : 0xe0 ≤ a.toNat ∧ a.toNat ≤ 0xef) (hb : isTail b = true)
    (hlong : a.toNat = 0xe0 → 0xa0 ≤ b.toNat) (hsurrogate : a.toNat = 0xed → b.toNat ≤ 0x9f) (hc : isTail c = true)
    (rest : List UInt8) :
    leading a (b :: c :: rest) = some (Char.ofNat ((a.toNat - 0xe0) * 4096 + tailBits b * 64 + tailBits c), 2) := by
  have hrange : (0xe0 : UInt8) ≤ a ∧ a ≤ 0xef := by rwa [UInt8.le_iff_toNat_le, UInt8.le_iff_toNat_le]
  have htwo : ¬ a ≤ 0xdf := by
    simp only [UInt8.le_iff_toNat_le, UInt8.reduceToNat]
    omega
  unfold leading
  rw [if_neg (not_ascii (by omega))]
  simp only [htwo, decide_false, Bool.and_false, Bool.false_and, Bool.false_eq_true, if_false]
  rw [if_pos]
  simp only [hrange, hb, hc, decide_true, Bool.true_and, Bool.and_true, Bool.and_eq_true, Bool.or_eq_true, bne_iff_ne,
    ne_eq, decide_eq_true_eq, UInt8.le_iff_toNat_le, ← UInt8.toNat_inj, UInt8.reduceToNat]
  omega

theorem leading_four {a b c d : UInt8} (ha : 0xf0 ≤ a.toNat ∧ a.toNat ≤ 0xf4) (hb : isTail b = true)
    (hlong : a.toNat = 0xf0 → 0x90 ≤ b.toNat) (hlast : a.toNat = 0xf4 → b.toNat ≤ 0x8f) (hc : isTail c = true)
    (hd : isTail d = true) (rest : List UInt8) :
    leading a (b :: c :: d :: rest) = some (Char.ofNat ((a.toNat - 0xf0) * 262144 + tailBits b * 4096
      + tailBits c * 64 + tailBits d), 3) := by
  have hrange : (0xf0 : UInt8) ≤ a ∧ a ≤ 0xf4 := by rwa [UInt8.le_iff_toNat_le, UInt8.le_iff_toNat_le]
  have hshorter : ¬ a ≤ 0xdf ∧ ¬ a ≤ 0xef := by
    simp only [UInt8.le_iff_toNat_le, UInt8.reduceToNat]
    omega
  unfold leading
  rw [if_neg (not_ascii (by omega))]
  simp only [hshorter, decide_false, Bool.and_false, Bool.false_and, Bool.false_eq_true, if_false]
  rw [if_pos]
  simp only [hrange, hb, hc, hd, decide_true, Bool.true_and, Bool.and_true, Bool.and_eq_true, Bool.or_eq_true,
    bne_iff_ne, ne_eq, decide_eq_true_eq, UInt8.le_iff_toNat_le, ← UInt8.toNat_inj, UInt8.reduceToNat]
  omega

/-- A character is read from its encoding, whatever follows. -/
theorem leading_encode (c : Char) (rest : List UInt8) : ∃ a tails, String.utf8EncodeChar c = a :: tails ∧
    leading a (tails ++ rest) = some (c, tails.length) := by
  have hvalid := val_valid c
  have hchar : ∀ n, n = c.val.toNat → Char.ofNat n = c := by
    rintro _ rfl
    exact Char.ofNat_toNat c
  simp only [String.utf8EncodeChar]
  generalize c.val.toNat = v at hvalid hchar
  -- By the length of the encoding, which the value of the character decides.
  split
  · have ha := toNat_byte (n := v) (by omega)
    refine ⟨_, _, rfl, ?_⟩
    rw [leading_one (by omega), hchar _ ha]
    rfl
  split
  · have ha := toNat_byte (n := v / 64 % 32 + 192) (by omega)
    refine ⟨_, _, rfl, ?_⟩
    rw [List.singleton_append, leading_two (by omega) (isTail_byte v), hchar _ (by rw [ha, tailBits_byte]; omega)]
    rfl
  split
  · have ha := toNat_byte (n := v / 4096 % 16 + 224) (by omega)
    have hb := toNat_byte (n := v / 64 % 64 + 128) (by omega)
    refine ⟨_, _, rfl, ?_⟩
    rw [List.cons_append, List.singleton_append,
      leading_three (by omega) (isTail_byte _) (by omega) (by omega) (isTail_byte _),
      hchar _ (by rw [ha, tailBits_byte, tailBits_byte]; omega)]
    rfl
  · have ha := toNat_byte (n := v / 262144 % 8 + 240) (by omega)
    have hb := toNat_byte (n := v / 4096 % 64 + 128) (by omega)
    refine ⟨_, _, rfl, ?_⟩
    rw [List.cons_append, List.cons_append, List.singleton_append,
      leading_four (by omega) (isTail_byte _) (by omega) (by omega) (isTail_byte _) (isTail_byte _),
      hchar _ (by rw [ha, tailBits_byte, tailBits_byte, tailBits_byte]; omega)]
    rfl

/-! ## Reading a text -/

theorem decodeAfter_append (tails rest : List UInt8) :
    decodeAfter tails.length (tails ++ rest) = decodeAfter 0 rest := by
  induction tails with
  | nil => rfl
  | cons b tails ih => exact ih

/-- A text is read from its bytes. -/
theorem decode_encode (cs : List Char) : decode (encode cs) = cs.map .char := by
  induction cs with
  | nil => rfl
  | cons c cs ih =>
    obtain ⟨a, tails, hc, hlead⟩ := leading_encode c (encode cs)
    have hencode : encode (c :: cs) = a :: (tails ++ encode cs) := by
      rw [encode, List.flatMap_cons, hc]
      rfl
    rw [hencode, decode, decodeAfter, hlead, List.map_cons, ← ih]
    exact congrArg _ (decodeAfter_append _ _)

end Glyph

/-! ## The order of texts -/

/-- The encodings of two characters differ in a byte, which is less for the character that comes first. -/
theorem utf8EncodeChar_append_lt {c d : Char} (h : c < d) (rest rest' : List UInt8) :
    String.utf8EncodeChar c ++ rest < String.utf8EncodeChar d ++ rest' := by
  have hc := val_valid c
  have hd := val_valid d
  have hlt : c.val.toNat < d.val.toNat := h
  simp only [String.utf8EncodeChar]
  generalize c.val.toNat = v at hc hlt ⊢
  generalize d.val.toNat = w at hd hlt ⊢
  have hv : v / 262144 % 8 = v / 262144 := by omega
  have hw : w / 262144 % 8 = w / 262144 := by omega
  -- The first group of six bits in which numbers differ tells which one is less.
  have hgroup : ∀ x y : Nat, x < y → x / 64 < y / 64 ∨ x / 64 = y / 64 ∧ x % 64 < y % 64 := by omega
  have hlast := hgroup v w hlt
  have hthird := hgroup (v / 64) (w / 64)
  have hsecond := hgroup (v / 4096) (w / 4096)
  simp only [Nat.div_div_eq_div_mul, Nat.reduceMul] at hthird hsecond
  repeat' split
  all_goals
    simp (disch := omega) only [hv, hw, List.cons_append, List.nil_append, List.cons_lt_cons_iff,
      UInt8.lt_iff_toNat_lt, ← UInt8.toNat_inj, toNat_byte]
    omega

theorem encode_lt_encode {cs ds : List Char} (h : cs < ds) : encode cs < encode ds := by
  induction h with
  | @nil d ds =>
    obtain ⟨b, bs, hb⟩ := List.exists_cons_of_ne_nil (String.utf8EncodeChar_ne_nil (c := d))
    rw [encode_nil, encode, List.flatMap_cons, hb]
    exact List.nil_lt_cons _ _
  | rel h => exact utf8EncodeChar_append_lt h _ _
  | cons _ ih => exact List.append_left_lt ih

/-- Texts are ordered as their bytes are. -/
theorem encode_lt_encode_iff {cs ds : List Char} : encode cs < encode ds ↔ cs < ds := by
  refine ⟨fun h => ?_, encode_lt_encode⟩
  rcases Std.lt_trichotomy cs ds with hlt | rfl | hgt
  · exact hlt
  · exact absurd h Std.lt_irrefl
  · exact absurd h (List.lt_asymm (encode_lt_encode hgt))

end Ceylon.Text
