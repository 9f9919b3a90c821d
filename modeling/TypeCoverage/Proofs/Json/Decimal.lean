import TypeCoverage.Number.Notation
import TypeCoverage.Proofs.Json.InRange
import TypeCoverage.Proofs.Json.ReadBack
import TypeCoverage.Proofs.Number.Decimal

/-!
# Written floating-point numbers are read

A number that is not too great is written with a point or an exponent, few digits before the point
and no great exponent. Such a numeral is read as a floating-point number; it is neither refused nor
taken for a count.
-/

set_option autoImplicit false

namespace TypeCoverage.Json

open Binary64 (AtMost)

/-! ## Digits -/

theorem encode_eq_map {s : Text} (h : ∀ c ∈ s, c.toNat < 0x80) : Utf8.encode s = s.map ascii := by
  induction s with
  | nil => rfl
  | cons c s ih =>
      rw [Utf8.encode_cons, encodeChar_of_lt (h c (by simp)), ih fun d hd => h d (by simp [hd])]
      rfl

theorem toNat_lt_of_isDigit {c : Char} (h : c.isDigit = true) : c.toNat < 0x80 := by
  have hle : c.val ≤ '9'.val := by
    simp only [Char.isDigit, Bool.and_eq_true, decide_eq_true_eq] at h
    exact h.2
  have hnat : c.toNat ≤ 57 := hle
  omega

theorem toNat_lt_of_mem_ofNat {n : Nat} {c : Char} (h : c ∈ Text.ofNat n) : c.toNat < 0x80 :=
  toNat_lt_of_isDigit (Nat.isDigit_of_mem_toDigits (by decide) (by decide) h)

theorem digits_eq_map (n : Nat) : digits n = (Text.ofNat n).map ascii :=
  encode_eq_map fun _ => toNat_lt_of_mem_ofNat

theorem length_digits (n : Nat) : (digits n).length = (Text.ofNat n).length := by
  rw [digits_eq_map, List.length_map]

theorem encode_take_ofNat (n k : Nat) :
    Utf8.encode ((Text.ofNat n).take k) = (digits n).take k := by
  rw [digits_eq_map, ← List.map_take]
  exact encode_eq_map fun _ hc => toNat_lt_of_mem_ofNat (List.mem_of_mem_take hc)

theorem encode_drop_ofNat (n k : Nat) :
    Utf8.encode ((Text.ofNat n).drop k) = (digits n).drop k := by
  rw [digits_eq_map, ← List.map_drop]
  exact encode_eq_map fun _ hc => toNat_lt_of_mem_ofNat (List.mem_of_mem_drop hc)

theorem encode_replicate_zero (k : Nat) :
    Utf8.encode (List.replicate k '0') = List.replicate k (ascii '0') := by
  rw [encode_eq_map, List.map_replicate]
  intro c hc
  rw [(List.mem_replicate.1 hc).2]
  decide

/-- A count that is not zero does not begin with a zero. -/
theorem head_digits_ne {n : Nat} (hn : n ≠ 0) :
    ∃ d ds, digits n = d :: ds ∧ d ≠ ascii '0' := by
  obtain ⟨d, ds, hds, -, hzero⟩ := digits_eq_cons n
  refine ⟨d, ds, hds, fun h0 => hn ?_⟩
  have hvalue := accumulate_digits n
  rw [hds, hzero h0, h0] at hvalue
  exact hvalue.symm

theorem IsDigits.take {ds : Bytes} (hds : IsDigits ds) {k : Nat} (hk : 0 < k) :
    IsDigits (ds.take k) where
  ne_nil := by
    rw [Ne, List.take_eq_nil_iff, not_or]
    exact ⟨hk.ne', hds.ne_nil⟩
  isDigit b hb := hds.isDigit b (List.mem_of_mem_take hb)

theorem IsDigits.drop {ds : Bytes} (hds : IsDigits ds) {k : Nat} (hk : k < ds.length) :
    IsDigits (ds.drop k) where
  ne_nil := by
    rw [Ne, List.drop_eq_nil_iff]
    exact Nat.not_le.2 hk
  isDigit b hb := hds.isDigit b (List.mem_of_mem_drop hb)

theorem isDigit_of_mem_zeros {k : Nat} {b : UInt8} (hb : b ∈ List.replicate k (ascii '0')) :
    isDigit b = true := by
  rw [(List.mem_replicate.1 hb).2]
  rfl

theorem IsDigits.zeros_append {ds : Bytes} (hds : IsDigits ds) (k : Nat) :
    IsDigits (List.replicate k (ascii '0') ++ ds) where
  ne_nil := by simp [hds.ne_nil]
  isDigit b hb := (List.mem_append.1 hb).elim isDigit_of_mem_zeros (hds.isDigit b)

theorem IsDigits.append_zeros {ds : Bytes} (hds : IsDigits ds) (k : Nat) :
    IsDigits (ds ++ List.replicate k (ascii '0')) where
  ne_nil := by simp [hds.ne_nil]
  isDigit b hb := (List.mem_append.1 hb).elim (hds.isDigit b) isDigit_of_mem_zeros

/-! ## What moderate numbers are written as -/

/-- A numeral of a floating-point number that is not too great. -/
structure Numeral.IsModerate (n : Numeral) : Prop extends n.IsWritten where
  decimal : n.fraction? ≠ none ∨ n.exponent? ≠ none
  short : n.whole.length ≤ 16
  small : ∀ ds, n.exponent? = some (false, ds) → ∃ k ≤ 25, ds = digits k

theorem isModerate_point {whole fraction : Bytes} (hwhole : IsDigits whole)
    (hzero : ∀ ds, whole = ascii '0' :: ds → ds = []) (hshort : whole.length ≤ 16)
    (hfraction : IsDigits fraction) :
    (⟨whole, some fraction, none⟩ : Numeral).IsModerate where
  whole := hwhole
  zero := hzero
  fraction := by
    rintro ds ⟨⟩
    exact hfraction
  exponent := by simp
  decimal := Or.inl (by simp)
  short := hshort
  small := by simp

theorem isDigits_zero : IsDigits [ascii '0'] where
  ne_nil := by simp
  isDigit b hb := by
    rw [List.mem_singleton.1 hb]
    rfl

variable {d : Decimal}

/-- A number below `10 ^ 16` in positional notation. -/
theorem exists_positional (hd : d.digits ≠ 0) (h : d.layout.2 ≤ 16) :
    ∃ n : Numeral, n.IsModerate ∧ Utf8.encode (d.positional ['.', '0']) = n.bytes := by
  obtain ⟨c, cs, hcs, hc⟩ := head_digits_ne hd
  have hdigits := isDigits_digits d.digits
  have hlength := length_digits d.digits
  unfold Decimal.positional Decimal.layout
  unfold Decimal.layout at h
  dsimp only at h ⊢
  generalize ((Text.ofNat d.digits).length : Int) + d.exponent = point at h
  split
  · -- all digits stand after the point
    refine ⟨_, isModerate_point isDigits_zero (by simp) (by decide)
      (hdigits.zeros_append (-point).toNat), ?_⟩
    rw [Utf8.encode_append, Utf8.encode_append, encode_replicate_zero, List.append_assoc,
      Numeral.bytes, exponentBytes, List.append_nil]
    rfl
  · split
    · -- all digits stand before the point, and zeros after them
      next hge =>
      have hwhole := hdigits.append_zeros (point.toNat - (Text.ofNat d.digits).length)
      refine ⟨_, isModerate_point hwhole ?_ ?_ isDigits_zero, ?_⟩
      · intro ds hds
        rw [hcs] at hds
        exact absurd (List.cons.inj hds).1 hc
      · rw [List.length_append, List.length_replicate]
        omega
      · rw [Utf8.encode_append, Utf8.encode_append, encode_replicate_zero, Numeral.bytes,
          exponentBytes, List.append_nil]
        rfl
    · next hpos hlt =>
      have hwhole := hdigits.take (k := point.toNat) (by omega)
      have hfraction := hdigits.drop (k := point.toNat) (by omega)
      refine ⟨_, isModerate_point hwhole ?_ ?_ hfraction, ?_⟩
      · intro ds hds
        obtain ⟨k, hk⟩ : ∃ k, point.toNat = k + 1 := ⟨point.toNat - 1, by omega⟩
        rw [hcs, hk] at hds
        exact absurd (List.cons.inj hds).1 hc
      · rw [List.length_take]
        omega
      · rw [Utf8.encode_append, Utf8.encode_append, encode_take_ofNat, encode_drop_ofNat,
          List.append_assoc, Numeral.bytes, exponentBytes, List.append_nil]
        rfl

theorem isModerate_exponent {m : Nat} (hm : m ≠ 0) {e : Int} (he : e ≤ 25)
    (fraction? : Option Bytes) (hfraction : ∀ ds ∈ fraction?, IsDigits ds) :
    (⟨(digits m).take 1, fraction?, some (decide (e < 0), digits e.natAbs)⟩
      : Numeral).IsModerate where
  whole := (isDigits_digits m).take (by decide)
  zero := by
    intro ds hds
    obtain ⟨c, cs, hcs, hc⟩ := head_digits_ne hm
    rw [hcs] at hds
    exact absurd (List.cons.inj hds).1 hc
  fraction := hfraction
  exponent := by
    rintro part ⟨⟩
    exact isDigits_digits e.natAbs
  decimal := Or.inr (by simp)
  short := by
    rw [List.length_take]
    omega
  small := by
    intro ds hds
    obtain ⟨hsign, rfl⟩ := Prod.mk.inj (Option.some.inj hds)
    have hnonneg : ¬ e < 0 := of_decide_eq_false hsign
    exact ⟨e.natAbs, by omega, rfl⟩

theorem encode_exponent (e : Int) :
    Utf8.encode ((if e < 0 then ['e', '-'] else ['e', '+']) ++ Text.ofNat e.natAbs)
      = exponentBytes (some (decide (e < 0), digits e.natAbs)) := by
  rw [Utf8.encode_append, exponentBytes]
  by_cases hneg : e < 0
  · simp only [hneg, if_true, decide_true]
    rfl
  · simp only [hneg, if_false, decide_false]
    rfl

/-- A number in scientific notation. -/
theorem exists_scientific (hd : d.digits ≠ 0) (h : d.layout.2 - 1 ≤ 25) :
    ∃ n : Numeral, n.IsModerate ∧ Utf8.encode d.scientific = n.bytes := by
  unfold Decimal.scientific Decimal.layout
  unfold Decimal.layout at h
  dsimp only at h ⊢
  generalize ((Text.ofNat d.digits).length : Int) + d.exponent - 1 = e at h
  by_cases htail : (Text.ofNat d.digits).drop 1 = []
  · -- one digit has no point
    refine ⟨_, isModerate_exponent hd h none (by simp), ?_⟩
    rw [if_pos htail, List.append_nil, List.append_assoc, Utf8.encode_append, encode_exponent,
      encode_take_ofNat, Numeral.bytes]
    rfl
  · have hfraction := (isDigits_digits d.digits).drop (k := 1) (by
      rw [length_digits]
      exact Nat.not_le.1 fun hle => htail (List.drop_eq_nil_of_le hle))
    refine ⟨_, isModerate_exponent hd h (some ((digits d.digits).drop 1)) ?_, ?_⟩
    · rintro ds ⟨⟩
      exact hfraction
    · rw [if_neg htail, List.append_assoc, List.append_assoc, Utf8.encode_append,
        Utf8.encode_append, encode_exponent, Utf8.encode_cons, encode_take_ofNat,
        encode_drop_ofNat, Numeral.bytes]
      rfl

/-- A moderate number is written as a moderate numeral. -/
theorem exists_compact {x : Binary64} (hx : x.AtMost (2 ^ 80)) :
    ∃ n : Numeral, n.IsModerate ∧ Utf8.encode x.compact = n.bytes := by
  obtain ⟨m, e, rfl, hm⟩ := hx
  have hzero : ∃ n : Numeral, n.IsModerate ∧ Utf8.encode ['0', '.', '0'] = n.bytes :=
    ⟨_, isModerate_point isDigits_zero (by simp) (by decide) isDigits_zero, rfl⟩
  unfold Binary64.compact
  dsimp only
  split
  · exact hzero
  · next hne =>
    rcases Decimal.shortest_spec .toEven hne e with h | ⟨hd, hvalue⟩
    · rw [h]
      exact hzero
    · have hlead := Decimal.lead_le hd (k := 25) (hvalue.trans (by linarith))
      split
      · exact exists_scientific hd hlead
      · exact exists_positional hd (by omega)

/-! ## What moderate numerals are read as -/

theorem length_appendDigits_le (n : Nat) (ds : Bytes) :
    (appendDigits n ds).2.length ≤ ds.length := by
  induction ds generalizing n with
  | nil => exact Nat.le_refl 0
  | cons d ds ih =>
      rw [appendDigits]
      split
      · exact Nat.le_refl _
      · exact (ih _).trans (Nat.le_succ _)

theorem exponentValue_eq (n : Nat) (ds : Bytes) (h : accumulate n ds ≤ Nat.pow 2 31 - 1) :
    exponentValue n ds = .ok (accumulate n ds) := by
  induction ds generalizing n with
  | nil => rfl
  | cons d ds ih =>
      have hle : 10 * n + digitValue d ≤ accumulate n (d :: ds) := le_accumulate _ ds
      rw [exponentValue, if_neg (by omega)]
      exact ih _ h

/-- A negative power of ten takes no number out of range. -/
theorem exists_scaleByTen_negSucc (steps : Nat) (x : Binary64) (k : Nat) :
    ∃ y, scaleByTen steps x (.negSucc k) = some y := by
  induction steps generalizing x k with
  | zero => exact ⟨_, rfl⟩
  | succ steps ih =>
      rw [scaleByTen]
      split
      · exact ⟨_, rfl⟩
      · split
        · exact ⟨_, rfl⟩
        · next hk _ =>
          obtain ⟨l, hl⟩ : ∃ l, (308 : Int) - (k + 1 : Nat) = .negSucc l := ⟨k - 308, by omega⟩
          rw [hl]
          exact ih _ l

theorem isInfinite_eq_false {x : Binary64} {q : ℚ} (h : x.AtMost q) : x.isInfinite = false := by
  obtain ⟨m, e, rfl, -⟩ := h
  rfl

/-- A significand that fits in 64 bits, scaled by a power of ten that is not too great. -/
theorem exists_scaleByTen {m : Nat} (hm : m ≤ maxCount) {e : Int} (he : e ≤ 41) :
    ∃ y, scaleByTen 4 (Binary64.ofNat m) e = some y := by
  cases e with
  | negSucc k => exact exists_scaleByTen_negSucc 4 _ k
  | ofNat k =>
      have hk : k ≤ 41 := Int.ofNat_le.1 he
      have hfits := Coverage.cast_le_of_le_maxCount hm
      have hpow : ((Nat.pow 10 k : ℕ) : ℚ) ≤ 10 ^ 41 := by
        exact_mod_cast Nat.pow_le_pow_right (by decide) hk
      obtain ⟨m', e', hround, hle, -⟩ :=
        Binary64.exists_ofNat_eq (n := m) (hfits.trans (by norm_num))
      obtain ⟨m'', e'', hround', hle', -⟩ :=
        Binary64.exists_ofNat_eq (n := Nat.pow 10 k) (hpow.trans (by norm_num))
      have hx : (Binary64.ofNat m).AtMost (2 ^ 65) := ⟨m', e', hround, by linarith⟩
      have hy : (Binary64.tenPow k).AtMost (2 * 10 ^ 41) := ⟨m'', e'', hround', by linarith⟩
      have hproduct := isInfinite_eq_false (hx.mul hy (by norm_num))
      refine ⟨(Binary64.ofNat m).mul (Binary64.tenPow k), ?_⟩
      rw [scaleByTen, if_pos (by omega)]
      dsimp only
      rw [hproduct]
      rfl

/-- A moderate numeral stands for a floating-point number. -/
theorem Numeral.IsModerate.exists_value {n : Numeral} (hn : n.IsModerate) :
    ∃ y, n.value false = .ok (.decimal y) := by
  have hwhole := appendDigits_le (Nat.zero_le maxCount) n.whole
  have hextra := length_appendDigits_le 0 n.whole
  have hshort := hn.short
  have hnot : ¬ (n.fraction?.isNone ∧ n.exponent?.isNone ∧ (appendDigits 0 n.whole).2 = []) := by
    rintro ⟨hfraction, hexponent, -⟩
    exact hn.decimal.elim (· (Option.isNone_iff_eq_none.1 hfraction))
      (· (Option.isNone_iff_eq_none.1 hexponent))
  unfold Numeral.value
  generalize appendDigits 0 n.whole = taken at hwhole hextra hnot
  obtain ⟨m, extra⟩ := taken
  dsimp only at hwhole hextra hnot ⊢
  rw [if_neg hnot]
  have hfraction := appendDigits_le hwhole (n.fraction?.getD [])
  have hleft := length_appendDigits_le m (n.fraction?.getD [])
  generalize appendDigits m (n.fraction?.getD []) = taken at hfraction hleft
  obtain ⟨m', extraFraction⟩ := taken
  dsimp only at hfraction hleft ⊢
  have hscale :
      (extra.length : Int) - ((n.fraction?.getD []).length - extraFraction.length) ≤ 16 := by omega
  generalize (extra.length : Int) - ((n.fraction?.getD []).length - extraFraction.length) = e
    at hscale ⊢
  cases hexponent : n.exponent? with
  | none =>
      obtain ⟨y, hy⟩ := exists_scaleByTen hfraction (show e ≤ 41 by omega)
      dsimp only
      rw [hy]
      exact ⟨_, rfl⟩
  | some part =>
      obtain ⟨negative, ds⟩ := part
      dsimp only
      cases negative with
      | false =>
          obtain ⟨k, hk, rfl⟩ := hn.small ds hexponent
          have hvalue := exponentValue_eq 0 (digits k) (by
            rw [accumulate_digits]
            exact hk.trans (by decide))
          obtain ⟨y, hy⟩ := exists_scaleByTen hfraction (show e + k ≤ 41 by omega)
          rw [hvalue, accumulate_digits]
          dsimp only
          rw [if_neg (by decide), hy]
          exact ⟨_, rfl⟩
      | true =>
          -- a negative exponent that is too great gives zero
          split
          · next k _ =>
            obtain ⟨y, hy⟩ := exists_scaleByTen hfraction (show e - k ≤ 41 by omega)
            rw [if_pos rfl, hy]
            exact ⟨_, rfl⟩
          · rw [if_neg (by simp)]
            exact ⟨_, rfl⟩

/-- **Floating-point numbers are read.** A moderate number is read as a floating-point number,
wherever it stands in a document. -/
theorem exists_readsAs_decimal {x : Binary64} (hx : x.AtMost (2 ^ 80)) (level depth : Nat) :
    ∃ y, ReadsAs level depth (.number (.decimal x)) (some (.number (.decimal y))) := by
  obtain ⟨n, hn, hbytes⟩ := exists_compact hx
  obtain ⟨y, hy⟩ := hn.exists_value
  have htext : Utf8.encode (Number.text (.decimal x)) = n.bytes := hbytes
  have hstarts : ∃ d ds, Utf8.encode (Number.text (.decimal x)) = d :: ds ∧ isDigit d = true := by
    obtain ⟨d, ds, hds⟩ := List.exists_cons_of_ne_nil hn.whole.ne_nil
    have hd := hn.whole.isDigit d (by simp [hds])
    rw [htext, Numeral.bytes, hds, List.cons_append]
    exact ⟨d, _, rfl, hd⟩
  refine ⟨y, readsAs_number (r := some (.decimal y)) hstarts (fun rest hrest => ?_) level depth⟩
  rw [htext, readNumber, hn.numeral_bytes hrest, ok_bind]
  dsimp only
  rw [hy]
  rfl

end TypeCoverage.Json
