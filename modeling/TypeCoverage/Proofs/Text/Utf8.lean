import TypeCoverage.Text.Utf8

/-!
# UTF-8 is read back

Decoding cuts the bytes of a text into the characters of that text, whatever bytes follow, so
strict decoding gives back every encoded text.
-/

set_option autoImplicit false

namespace TypeCoverage.Utf8

/-! ## One character -/

theorem toNat_ofNat_of_lt {n : Nat} (h : n < 256) : (UInt8.ofNat n).toNat = n := by
  rw [UInt8.toNat_ofNat']
  omega

/-- A code point is below the surrogates, or above them and in range. -/
theorem toNat_range (c : Char) : c.toNat < 0xD800 ∨ (0xDFFF < c.toNat ∧ c.toNat < 0x110000) :=
  c.valid

theorem isTail_ofNat (n : Nat) : isTail (UInt8.ofNat (0x80 + n % 0x40)) = true := by
  have h : (UInt8.ofNat (0x80 + n % 0x40)).toNat = 0x80 + n % 0x40 :=
    toNat_ofNat_of_lt (by omega)
  simp only [isTail, h, Bool.and_eq_true, decide_eq_true_eq]
  omega

/-- The second byte of a character, where its first byte and the code point go together. -/
theorem isSecond_ofNat {first n : Nat} (hA : first = 0xE0 → 0x20 ≤ n % 0x40)
    (hB : first = 0xED → n % 0x40 < 0x20) (hC : first = 0xF0 → 0x10 ≤ n % 0x40)
    (hD : first = 0xF4 → n % 0x40 < 0x10) :
    isSecond first (UInt8.ofNat (0x80 + n % 0x40)) = true := by
  have h : (UInt8.ofNat (0x80 + n % 0x40)).toNat = 0x80 + n % 0x40 :=
    toNat_ofNat_of_lt (by omega)
  simp only [isSecond, secondRange, h, Bool.and_eq_true, decide_eq_true_eq]
  split
  · omega
  · split
    · omega
    · split
      · omega
      · split <;> omega

/-- The bytes of a character are cut off as that character. -/
theorem lead_encodeChar {c : Char} {b : UInt8} {bs : Bytes} (h : encodeChar c = b :: bs)
    (rest : Bytes) : lead b (bs ++ rest) = .char c (bs.length + 1) := by
  have hrange := toNat_range c
  have hc : Char.ofNat c.toNat = c := Char.ofNat_toNat c
  unfold encodeChar at h
  simp only at h
  split at h
  · -- one byte
    obtain ⟨rfl, rfl⟩ := List.cons.inj h
    have hb := toNat_ofNat_of_lt (n := c.toNat) (by omega)
    simp [lead, *]
  · split at h
    · -- two bytes
      obtain ⟨rfl, rfl⟩ := List.cons.inj h
      have hb := toNat_ofNat_of_lt (n := 0xC0 + c.toNat / 0x40) (by omega)
      have ht := toNat_ofNat_of_lt (n := 0x80 + c.toNat % 0x40) (by omega)
      have hs : isSecond (0xC0 + c.toNat / 0x40) (UInt8.ofNat (0x80 + c.toNat % 0x40)) = true :=
        isSecond_ofNat (by omega) (by omega) (by omega) (by omega)
      have hval : (0xC0 + c.toNat / 0x40 - 0xC0) * 0x40 + (0x80 + c.toNat % 0x40 - 0x80)
          = c.toNat := by omega
      simp only [lead, hb, ht, hs, hval, hc, List.cons_append, List.nil_append, if_true]
      rw [if_neg (by omega), if_neg (by omega), if_pos (by omega)]
      rfl
    · split at h
      · -- three bytes
        obtain ⟨rfl, rfl⟩ := List.cons.inj h
        have hb := toNat_ofNat_of_lt (n := 0xE0 + c.toNat / 0x1000) (by omega)
        have ht := toNat_ofNat_of_lt (n := 0x80 + c.toNat / 0x40 % 0x40) (by omega)
        have ht₃ := toNat_ofNat_of_lt (n := 0x80 + c.toNat % 0x40) (by omega)
        have hs : isSecond (0xE0 + c.toNat / 0x1000)
            (UInt8.ofNat (0x80 + c.toNat / 0x40 % 0x40)) = true :=
          isSecond_ofNat (by omega) (by omega) (by omega) (by omega)
        have hval : (0xE0 + c.toNat / 0x1000 - 0xE0) * 0x1000
            + (0x80 + c.toNat / 0x40 % 0x40 - 0x80) * 0x40 + (0x80 + c.toNat % 0x40 - 0x80)
            = c.toNat := by omega
        simp only [lead, hb, ht, ht₃, hs, isTail_ofNat, hval, hc, List.cons_append,
          List.nil_append, if_true]
        rw [if_neg (by omega), if_neg (by omega), if_neg (by omega), if_pos (by omega)]
        rfl
      · -- four bytes
        obtain ⟨rfl, rfl⟩ := List.cons.inj h
        have hb := toNat_ofNat_of_lt (n := 0xF0 + c.toNat / 0x40000) (by omega)
        have ht := toNat_ofNat_of_lt (n := 0x80 + c.toNat / 0x1000 % 0x40) (by omega)
        have ht₃ := toNat_ofNat_of_lt (n := 0x80 + c.toNat / 0x40 % 0x40) (by omega)
        have ht₄ := toNat_ofNat_of_lt (n := 0x80 + c.toNat % 0x40) (by omega)
        have hs : isSecond (0xF0 + c.toNat / 0x40000)
            (UInt8.ofNat (0x80 + c.toNat / 0x1000 % 0x40)) = true :=
          isSecond_ofNat (by omega) (by omega) (by omega) (by omega)
        have hval : (0xF0 + c.toNat / 0x40000 - 0xF0) * 0x40000
            + (0x80 + c.toNat / 0x1000 % 0x40 - 0x80) * 0x1000
            + (0x80 + c.toNat / 0x40 % 0x40 - 0x80) * 0x40 + (0x80 + c.toNat % 0x40 - 0x80)
            = c.toNat := by omega
        simp only [lead, hb, ht, ht₃, ht₄, hs, isTail_ofNat, hval, hc, List.cons_append,
          List.nil_append, if_true]
        rw [if_neg (by omega), if_neg (by omega), if_neg (by omega), if_neg (by omega),
          if_pos (by omega)]
        rfl

/-! ## Whole texts -/

theorem encode_cons (c : Char) (s : Text) : encode (c :: s) = encodeChar c ++ encode s := rfl

theorem encode_append (s t : Text) : encode (s ++ t) = encode s ++ encode t :=
  List.flatMap_append

/-- The bytes of a text are cut into its characters, whatever follows. -/
theorem cut_encode_append (s : Text) (rest : Bytes) :
    cut 0 (encode s ++ rest) = s.map some ++ cut 0 rest := by
  induction s with
  | nil => rfl
  | cons c s ih =>
      rw [encode_cons, List.append_assoc]
      obtain ⟨b, bs, hb⟩ := List.exists_cons_of_ne_nil (encodeChar_ne_nil c)
      have hlead := lead_encodeChar hb (encode s ++ rest)
      rw [hb, List.cons_append, cut, hlead]
      simp only [Lead.char?, Lead.width, Nat.add_sub_cancel, List.map_cons, List.cons_append]
      rw [cut_drop, List.drop_left, ih]

theorem mapM_some (s : Text) : (s.map some).mapM id = some s := by
  induction s with
  | nil => rfl
  | cons c s ih =>
      rw [List.map_cons, List.mapM_cons, ih]
      rfl

/-- Strict decoding gives back an encoded text. -/
theorem decode?_encode (s : Text) : decode? (encode s) = some s := by
  have h := cut_encode_append s []
  rw [List.append_nil] at h
  rw [decode?, h, cut, List.append_nil, mapM_some]

end TypeCoverage.Utf8
