import Mathlib.Tactic
import TypeCoverage.Json.Printer
import TypeCoverage.Json.Token
import TypeCoverage.Proofs.Result
import TypeCoverage.Proofs.Text.Utf8

/-!
# Written strings and counts are read back

A quoted string is read back as the same text. A written count is read back as itself if it
fits in 64 bits; a greater one becomes floating point or is refused, and is never taken for
another count.
-/

set_option autoImplicit false

namespace TypeCoverage.Json

/-! ## Characters of strings -/

/-- A byte that stands for itself in a string. -/
def IsPlain (b : UInt8) : Prop := b ≠ ascii '\x22' ∧ b ≠ ascii '\\' ∧ ¬ b < 0x20

theorem stringBytes_eq_drop (skip : Nat) (bs : Bytes) :
    stringBytes skip bs = stringBytes 0 (bs.drop skip) := by
  induction bs generalizing skip with
  | nil => cases skip <;> rfl
  | cons b bs ih =>
      cases skip with
      | zero => rfl
      | succ skip => simp [stringBytes, ih]

theorem stringBytes_plain {l : Bytes} (h : ∀ b ∈ l, IsPlain b) (bs : Bytes) :
    stringBytes 0 (l ++ bs) = (stringBytes 0 bs).map fun r => (l ++ r.1, r.2) := by
  induction l with
  | nil =>
      simp only [List.nil_append]
      cases stringBytes 0 bs <;> rfl
  | cons b l ih =>
      obtain ⟨h1, h2, h3⟩ := h b (by simp)
      have ih' := ih fun b' hb' => h b' (by simp [hb'])
      rw [List.cons_append, stringBytes, if_neg h1, if_neg h2, if_neg h3, ih']
      cases stringBytes 0 bs <;> rfl

theorem isPlain_ofNat {n : Nat} (h : 0x20 ≤ n ∧ n ≠ 0x22 ∧ n ≠ 0x5C ∧ n < 256) :
    IsPlain (UInt8.ofNat n) := by
  have hn := Utf8.toNat_ofNat_of_lt h.2.2.2
  refine ⟨?_, ?_, ?_⟩
  · intro hb
    rw [hb] at hn
    exact h.2.1 hn.symm
  · intro hb
    rw [hb] at hn
    exact h.2.2.1 hn.symm
  · rw [UInt8.lt_iff_toNat_lt, hn]
    show ¬ n < 32
    omega

/-- The bytes of a character that is not escaped. -/
theorem isPlain_encodeChar {c : Char} (h1 : c ≠ '\x22') (h2 : c ≠ '\\') (h3 : ¬ c.toNat < 0x20) :
    ∀ b ∈ Utf8.encodeChar c, IsPlain b := by
  have hrange := Utf8.toNat_range c
  have hq : c.toNat ≠ 0x22 := fun h => h1 (Char.toNat_inj.1 h)
  have hb : c.toNat ≠ 0x5C := fun h => h2 (Char.toNat_inj.1 h)
  intro b hmem
  unfold Utf8.encodeChar at hmem
  simp only at hmem
  -- one case for each length of an encoding
  split at hmem
  · simp only [List.mem_singleton] at hmem
    subst hmem
    exact isPlain_ofNat (by omega)
  · split at hmem
    · simp only [List.mem_cons, List.not_mem_nil, or_false] at hmem
      rcases hmem with rfl | rfl
      · exact isPlain_ofNat (by omega)
      · exact isPlain_ofNat (by omega)
    · split at hmem
      · simp only [List.mem_cons, List.not_mem_nil, or_false] at hmem
        rcases hmem with rfl | rfl | rfl
        · exact isPlain_ofNat (by omega)
        · exact isPlain_ofNat (by omega)
        · exact isPlain_ofNat (by omega)
      · simp only [List.mem_cons, List.not_mem_nil, or_false] at hmem
        rcases hmem with rfl | rfl | rfl | rfl
        · exact isPlain_ofNat (by omega)
        · exact isPlain_ofNat (by omega)
        · exact isPlain_ofNat (by omega)
        · exact isPlain_ofNat (by omega)

/-! ## Escapes -/

theorem hexValue?_digitChar : ∀ d < 16, hexValue? (ascii (Nat.digitChar d)) = some d := by
  decide

theorem digitChar_lt : ∀ d < 16, (Nat.digitChar d).toNat < 0x80 := by
  decide

theorem encodeChar_of_lt {c : Char} (h : c.toNat < 0x80) : Utf8.encodeChar c = [ascii c] := by
  simp [Utf8.encodeChar, h, ascii]

/-- A control character is read back from its code unit. -/
theorem codeUnitEscape_control {c : Char} (h : c.toNat < 0x20) (bs : Bytes) :
    codeUnitEscape (ascii '0' :: ascii '0' :: ascii (hexDigit (c.toNat / 16))
      :: ascii (hexDigit c.toNat) :: bs) = .ok (c, 4) := by
  have h0 : hexValue? (ascii '0') = some 0 := by decide
  have h1 : hexValue? (ascii (hexDigit (c.toNat / 16))) = some (c.toNat / 16 % 16) :=
    hexValue?_digitChar _ (by omega)
  have h2 : hexValue? (ascii (hexDigit c.toNat)) = some (c.toNat % 16) :=
    hexValue?_digitChar _ (by omega)
  have hval : ((0 * 16 + 0) * 16 + c.toNat / 16 % 16) * 16 + c.toNat % 16 = c.toNat := by omega
  unfold codeUnitEscape hexFour
  simp only [h0, h1, h2, hval]
  show (if 0xDC00 ≤ c.toNat ∧ c.toNat ≤ 0xDFFF then _
    else if 0xD800 ≤ c.toNat ∧ c.toNat ≤ 0xDBFF then _ else _) = _
  rw [if_neg (by omega), if_neg (by omega), Char.ofNat_toNat]
  rfl

/-- The bytes of a character as it stands in a string are read back as that character. -/
theorem stringBytes_escapeChar (c : Char) (bs : Bytes) :
    stringBytes 0 (Utf8.encode (escapeChar c) ++ bs)
      = (stringBytes 0 bs).map fun r => (Utf8.encodeChar c ++ r.1, r.2) := by
  unfold escapeChar
  split_ifs with hq hb hc hn hr ht h8 h12
  · subst hq; rfl
  · subst hb; rfl
  · subst hn; rfl
  · subst hr; rfl
  · subst ht; rfl
  · subst h8; rfl
  · subst h12; rfl
  · -- any other control character stands by its code unit
    have hd : ∀ n, Utf8.encodeChar (hexDigit n) = [ascii (hexDigit n)] := by
      intro n
      exact encodeChar_of_lt (digitChar_lt (n % 16) (by omega))
    have hbytes : Utf8.encode ['\\', 'u', '0', '0', hexDigit (c.toNat / 16), hexDigit c.toNat]
        = [ascii '\\', ascii 'u', ascii '0', ascii '0', ascii (hexDigit (c.toNat / 16)),
          ascii (hexDigit c.toNat)] := by
      simp [Utf8.encode, hd, encodeChar_of_lt]
    have hesc : escape (ascii 'u' :: ascii '0' :: ascii '0' :: ascii (hexDigit (c.toNat / 16))
        :: ascii (hexDigit c.toNat) :: bs) = .ok (c, 5) := by
      simp [escape, codeUnitEscape_control hc]
      rfl
    rw [hbytes]
    simp only [List.cons_append, List.nil_append]
    rw [stringBytes, if_neg (by decide), if_pos rfl, hesc, ok_bind]
    dsimp only
    rw [stringBytes_eq_drop]
    show (stringBytes 0 bs >>= _) = _
    cases stringBytes 0 bs <;> rfl
  · have hplain := stringBytes_plain (isPlain_encodeChar hq hb hc) bs
    simpa [Utf8.encode] using hplain

/-! ## Strings -/

/-- The bytes between the quotes of a written string are read back as the text's own bytes. -/
theorem stringBytes_escaped (s : Text) (rest : Bytes) :
    stringBytes 0 (Utf8.encode (s.flatMap escapeChar) ++ ascii '\x22' :: rest)
      = .ok (Utf8.encode s, rest) := by
  induction s with
  | nil => rfl
  | cons c s ih =>
      rw [List.flatMap_cons, Utf8.encode_append, List.append_assoc, stringBytes_escapeChar, ih]
      rfl

/-- A written string, after its opening quote, is read back. -/
theorem readString_escaped (s : Text) (rest : Bytes) :
    readString (Utf8.encode (s.flatMap escapeChar) ++ ascii '\x22' :: rest) = .ok (s, rest) := by
  unfold readString
  rw [stringBytes_escaped, ok_bind]
  dsimp only
  rw [Utf8.decode?_encode]
  rfl

theorem encode_quote (s : Text) :
    Utf8.encode (quote s)
      = ascii '\x22' :: (Utf8.encode (s.flatMap escapeChar) ++ [ascii '\x22']) := by
  rw [quote, Utf8.encode_cons, Utf8.encode_append]
  rfl

/-! ## Numerals -/

/-- Digits, at least one. -/
structure IsDigits (ds : Bytes) : Prop where
  ne_nil : ds ≠ []
  isDigit : ∀ b ∈ ds, isDigit b = true

/-- The bytes of the digits after the point, with the point. -/
def fractionBytes : Option Bytes → Bytes
  | none => []
  | some ds => ascii '.' :: ds

/-- The bytes of an exponent, with its mark and its sign. -/
def exponentBytes : Option (Bool × Bytes) → Bytes
  | none => []
  | some (negative, ds) => ascii 'e' :: ascii (if negative then '-' else '+') :: ds

def Numeral.bytes (n : Numeral) : Bytes :=
  n.whole ++ (fractionBytes n.fraction? ++ exponentBytes n.exponent?)

/-- What numerals have in common: each part has a digit, and a zero before the point stands
alone. -/
structure Numeral.IsWritten (n : Numeral) : Prop where
  whole : IsDigits n.whole
  zero : ∀ ds, n.whole = ascii '0' :: ds → ds = []
  fraction : ∀ ds ∈ n.fraction?, IsDigits ds
  exponent : ∀ part ∈ n.exponent?, IsDigits part.2

/-- A numeral ends where no byte follows that could be part of it. -/
def endsNumeral : Bytes → Bool
  | b :: _ => !(isDigit b || b == ascii '.' || b == ascii 'e' || b == ascii 'E')
  | [] => true

theorem isDigit_head_of_endsNumeral {rest : Bytes} (h : endsNumeral rest = true) :
    ∀ b ∈ rest.head?, isDigit b = false ∧ b ≠ ascii '.' := by
  intro b hb
  obtain ⟨bs, rfl⟩ := List.head?_eq_some_iff.1 hb
  simp only [endsNumeral, Bool.not_eq_true', Bool.or_eq_false_iff, beq_eq_false_iff_ne] at h
  exact ⟨h.1.1.1, h.1.1.2⟩

theorem takeWhile_isDigit {ds rest : Bytes} (hds : ∀ b ∈ ds, isDigit b = true)
    (hrest : ∀ b ∈ rest.head?, isDigit b = false) : (ds ++ rest).takeWhile isDigit = ds := by
  rw [List.takeWhile_append_of_pos hds]
  cases rest with
  | nil => simp
  | cons b bs => simp [hrest b rfl]

theorem dropWhile_isDigit {ds rest : Bytes} (hds : ∀ b ∈ ds, isDigit b = true)
    (hrest : ∀ b ∈ rest.head?, isDigit b = false) : (ds ++ rest).dropWhile isDigit = rest := by
  rw [List.dropWhile_append_of_pos hds]
  cases rest with
  | nil => rfl
  | cons b bs => simp [hrest b rfl]

theorem wholePart_append {ds rest : Bytes} (hds : IsDigits ds)
    (hzero : ∀ ds', ds = ascii '0' :: ds' → ds' = [])
    (hrest : ∀ b ∈ rest.head?, isDigit b = false) :
    wholePart (ds ++ rest) = .ok (ds, rest) := by
  have htake := takeWhile_isDigit hds.isDigit hrest
  have hdrop := dropWhile_isDigit hds.isDigit hrest
  obtain ⟨d, ds', rfl⟩ := List.exists_cons_of_ne_nil hds.ne_nil
  rw [List.cons_append] at htake hdrop ⊢
  unfold wholePart
  dsimp only
  split
  · next h0 =>
    -- a zero stands alone, so what follows it is what follows the digits
    obtain rfl := hzero ds' (by rw [h0])
    cases rest with
    | nil => rfl
    | cons b bs => simp [hrest b rfl]
  · rw [if_pos (hds.isDigit d (by simp)), htake, hdrop]

theorem fractionPart_append {fraction? : Option Bytes} {rest : Bytes}
    (hds : ∀ ds ∈ fraction?, IsDigits ds)
    (hrest : ∀ b ∈ rest.head?, isDigit b = false ∧ b ≠ ascii '.') :
    fractionPart (fractionBytes fraction? ++ rest) = .ok (fraction?, rest) := by
  cases fraction? with
  | none =>
      cases rest with
      | nil => rfl
      | cons b bs => simp [fractionBytes, fractionPart, (hrest b rfl).2]
  | some ds =>
      have hdigits := (hds ds rfl).isDigit
      have htake := takeWhile_isDigit hdigits fun b hb => (hrest b hb).1
      have hdrop := dropWhile_isDigit hdigits fun b hb => (hrest b hb).1
      obtain ⟨d, ds', rfl⟩ := List.exists_cons_of_ne_nil (hds ds rfl).ne_nil
      rw [List.cons_append] at htake hdrop
      rw [fractionBytes, List.cons_append, List.cons_append, fractionPart, if_pos rfl,
        if_pos (hdigits d (by simp)), htake, hdrop]

theorem exponentPart_append {exponent? : Option (Bool × Bytes)} {rest : Bytes}
    (hds : ∀ part ∈ exponent?, IsDigits part.2) (hends : endsNumeral rest = true) :
    exponentPart (exponentBytes exponent? ++ rest) = .ok (exponent?, rest) := by
  cases exponent? with
  | none =>
      cases rest with
      | nil => rfl
      | cons b bs =>
          have hb : ¬ (b = ascii 'e' ∨ b = ascii 'E') := by
            rintro (rfl | rfl) <;> simp [endsNumeral] at hends
          simp only [exponentBytes, List.nil_append, exponentPart, if_neg hb]
  | some part =>
      obtain ⟨negative, ds⟩ := part
      have hrest := fun b hb => (isDigit_head_of_endsNumeral hends b hb).1
      have hdigits := (hds _ rfl).isDigit
      have htake := takeWhile_isDigit hdigits hrest
      have hdrop := dropWhile_isDigit hdigits hrest
      obtain ⟨d, ds', rfl⟩ := List.exists_cons_of_ne_nil (hds _ rfl).ne_nil
      rw [List.cons_append] at htake hdrop
      have hd := hdigits d (by simp)
      rw [exponentBytes, List.cons_append, List.cons_append, List.cons_append, exponentPart,
        if_pos (Or.inl rfl)]
      cases negative with
      | false =>
          dsimp only
          rw [if_neg (by decide), if_pos (by decide)]
          dsimp only
          rw [if_pos hd, htake, hdrop]
      | true =>
          dsimp only
          rw [if_pos (by decide)]
          dsimp only
          rw [if_pos hd, htake, hdrop]

/-- A numeral is read back part by part. -/
theorem Numeral.IsWritten.numeral_bytes {n : Numeral} (hn : n.IsWritten) {rest : Bytes}
    (hends : endsNumeral rest = true) : numeral (n.bytes ++ rest) = .ok (n, rest) := by
  have hfraction : ∀ b ∈ (exponentBytes n.exponent? ++ rest).head?,
      isDigit b = false ∧ b ≠ ascii '.' := by
    cases n.exponent? with
    | none => exact isDigit_head_of_endsNumeral hends
    | some part => simp [exponentBytes, isDigit, ascii]
  have hwhole : ∀ b ∈ (fractionBytes n.fraction? ++ (exponentBytes n.exponent? ++ rest)).head?,
      isDigit b = false := by
    cases n.fraction? with
    | none => exact fun b hb => (hfraction b hb).1
    | some ds => simp [fractionBytes, isDigit, ascii]
  unfold numeral
  rw [Numeral.bytes, List.append_assoc, List.append_assoc, wholePart_append hn.whole hn.zero hwhole,
    ok_bind]
  dsimp only
  rw [fractionPart_append hn.fraction hfraction, ok_bind]
  dsimp only
  rw [exponentPart_append hn.exponent hends]
  rfl

/-! ## Counts -/

/-- The bytes of a written count. -/
def digits (n : Nat) : Bytes := Utf8.encode (Text.ofNat n)

/-- The number that decimal digits stand for after a significand. -/
def accumulate (n : Nat) (ds : Bytes) : Nat := ds.foldl (fun n d => 10 * n + digitValue d) n

theorem encode_digitChar {d : Nat} (h : d < 10) :
    Utf8.encode [Nat.digitChar d] = [ascii (Nat.digitChar d)] := by
  simp [Utf8.encode, encodeChar_of_lt (digitChar_lt d (by omega))]

theorem isDigit_digitChar : ∀ d < 10, isDigit (ascii (Nat.digitChar d)) = true := by
  decide

theorem digitValue_digitChar : ∀ d < 10, digitValue (ascii (Nat.digitChar d)) = d := by
  decide

theorem digits_of_lt {n : Nat} (h : n < 10) : digits n = [ascii (Nat.digitChar n)] := by
  rw [digits, Text.ofNat, Nat.toDigits_of_lt_base h, encode_digitChar h]

theorem digits_of_le {n : Nat} (h : 10 ≤ n) :
    digits n = digits (n / 10) ++ [ascii (Nat.digitChar (n % 10))] := by
  rw [digits, Text.ofNat, Nat.toDigits_of_base_le (by omega) h, Utf8.encode_append,
    encode_digitChar (by omega)]
  rfl

theorem isDigit_of_mem_digits (n : Nat) : ∀ b ∈ digits n, isDigit b = true := by
  induction n using Nat.strong_induction_on with
  | _ n ih =>
      intro b hb
      by_cases h : n < 10
      · rw [digits_of_lt h, List.mem_singleton] at hb
        subst hb
        exact isDigit_digitChar n h
      · rw [digits_of_le (by omega), List.mem_append, List.mem_singleton] at hb
        rcases hb with hb | rfl
        · exact ih (n / 10) (by omega) b hb
        · exact isDigit_digitChar (n % 10) (by omega)

/-- The first digit of a written count; it is no zero, except of zero itself. -/
theorem digits_eq_cons (n : Nat) :
    ∃ d ds, digits n = d :: ds ∧ isDigit d = true ∧ (d = ascii '0' → ds = []) := by
  induction n using Nat.strong_induction_on with
  | _ n ih =>
      by_cases h : n < 10
      · exact ⟨_, [], digits_of_lt h, isDigit_digitChar n h, fun _ => rfl⟩
      · obtain ⟨d, ds, hds, hd, hzero⟩ := ih (n / 10) (by omega)
        refine ⟨d, ds ++ [ascii (Nat.digitChar (n % 10))], ?_, hd, ?_⟩
        · rw [digits_of_le (by omega), hds, List.cons_append]
        · intro h0
          -- a leading zero would make the count before the last digit zero
          have hlt : n / 10 < 10 := by
            by_contra hge
            rw [digits_of_le (by omega), hzero h0] at hds
            have := congrArg List.length hds
            obtain ⟨_, _, h', _, _⟩ := ih (n / 10 / 10) (by omega)
            rw [h'] at this
            simp at this
          rw [digits_of_lt hlt] at hds
          have h1 := (List.cons.inj hds).1
          rw [h0] at h1
          have h2 := congrArg digitValue h1
          rw [digitValue_digitChar _ hlt] at h2
          have h3 : digitValue (ascii '0') = 0 := by decide
          omega

theorem accumulate_append (n : Nat) (ds : Bytes) (d : UInt8) :
    accumulate n (ds ++ [d]) = 10 * accumulate n ds + digitValue d := by
  simp [accumulate]

theorem accumulate_digits (n : Nat) : accumulate 0 (digits n) = n := by
  induction n using Nat.strong_induction_on with
  | _ n ih =>
      by_cases h : n < 10
      · rw [digits_of_lt h]
        show 10 * 0 + digitValue (ascii (Nat.digitChar n)) = n
        rw [digitValue_digitChar n h]
        omega
      · rw [digits_of_le (by omega), accumulate_append, ih (n / 10) (by omega),
          digitValue_digitChar _ (by omega)]
        omega

theorem le_accumulate (n : Nat) (ds : Bytes) : n ≤ accumulate n ds := by
  induction ds generalizing n with
  | nil => exact Nat.le_refl n
  | cons d ds ih =>
      have h : 10 * n + digitValue d ≤ accumulate n (d :: ds) := ih _
      omega

/-- Digits are taken into a significand to the last one exactly if the number fits. -/
theorem appendDigits_eq (n : Nat) (ds : Bytes) (h : accumulate n ds ≤ maxCount) :
    appendDigits n ds = (accumulate n ds, []) := by
  induction ds generalizing n with
  | nil => rfl
  | cons d ds ih =>
      have hle : 10 * n + digitValue d ≤ accumulate n (d :: ds) := le_accumulate _ ds
      rw [appendDigits, if_neg (by omega)]
      exact ih _ h

theorem appendDigits_left {n : Nat} {ds : Bytes} (hn : n ≤ maxCount)
    (h : maxCount < accumulate n ds) : (appendDigits n ds).2 ≠ [] := by
  induction ds generalizing n with
  | nil => exact absurd hn (Nat.not_le.2 h)
  | cons d ds ih =>
      rw [appendDigits]
      split
      · simp
      · next hfits => exact ih (Nat.not_lt.1 hfits) h

theorem isDigits_digits (n : Nat) : IsDigits (digits n) where
  ne_nil := by
    obtain ⟨d, ds, hds, -⟩ := digits_eq_cons n
    simp [hds]
  isDigit := isDigit_of_mem_digits n

/-- A written count is read as a numeral without point and exponent. -/
theorem numeral_digits (n : Nat) {rest : Bytes} (h : endsNumeral rest = true) :
    numeral (digits n ++ rest) = .ok (⟨digits n, none, none⟩, rest) := by
  obtain ⟨d, ds, hds, -, hzero⟩ := digits_eq_cons n
  have hwritten : (⟨digits n, none, none⟩ : Numeral).IsWritten :=
    { whole := isDigits_digits n
      zero := fun ds' hds' => by
        obtain ⟨rfl, rfl⟩ := List.cons.inj (hds.symm.trans hds')
        exact hzero rfl
      fraction := by simp
      exponent := by simp }
  have hread := hwritten.numeral_bytes h
  rwa [Numeral.bytes, fractionBytes, exponentBytes, List.append_nil, List.append_nil] at hread

/-- What a written count is read back as: itself if it fits, or perhaps a floating point
number. -/
def rereadCount? (n : Nat) : Option Number :=
  (Numeral.value false ⟨digits n, none, none⟩).toOption

theorem rereadCount?_of_le {n : Nat} (h : n ≤ maxCount) : rereadCount? n = some (.natural n) := by
  have happend : appendDigits 0 (digits n) = (n, []) := by
    have := appendDigits_eq 0 (digits n) (by rwa [accumulate_digits])
    rwa [accumulate_digits] at this
  simp [rereadCount?, Numeral.value, happend, Except.toOption]

/-- A count that does not fit is no count when it is read back. -/
theorem eq_decimal_of_rereadCount? {n : Nat} (h : maxCount < n) {m : Number}
    (hm : rereadCount? n = some m) : ∃ x, m = .decimal x := by
  have hleft : (appendDigits 0 (digits n)).2 ≠ [] :=
    appendDigits_left (Nat.zero_le _) (by rwa [accumulate_digits])
  rw [rereadCount?, Numeral.value] at hm
  simp only [hleft, and_false, if_false, Option.getD_none] at hm
  split at hm
  · exact ⟨_, (Option.some.inj hm).symm⟩
  · exact absurd hm (by simp [Except.toOption])

/-- A written count is read as a number with nothing of what follows it. -/
theorem readNumber_digits (ahead n : Nat) {rest : Bytes} (h : endsNumeral rest = true) :
    (readNumber ahead false (digits n ++ rest)).toOption
      = (rereadCount? n).map fun m => (m, rest) := by
  unfold readNumber rereadCount?
  rw [numeral_digits n h, ok_bind]
  dsimp only
  cases Numeral.value false ⟨digits n, none, none⟩ with
  | ok v => rfl
  | error e => cases e <;> rfl

end TypeCoverage.Json
