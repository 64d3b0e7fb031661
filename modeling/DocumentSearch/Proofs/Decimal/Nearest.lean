import DocumentSearch.Decimal.Float
import DocumentSearch.Proofs.Decimal.Rounding

/-!
# Reading decimals as doubles

A decimal is read as the double in whose interval it lies. Short decimals with a small exponent are
read by one product or quotient of two doubles that are exact, all others in one step from the exact
number; either way the result is rounded once. Decimals that are far too small or too large are not
computed at all.

Results:

* `exists_ofScientific_eq`: however a decimal is read, it is rounded once.
* `nearestFloat_eq_iff`: a decimal is read as a double iff it lies in the interval of the double.
* `ofBits_eq_spanOf`: the interval that a double is written by is the one that it is read by.
-/

namespace DocumentSearch.Double

open Float.Model Float.Model.UnpackedFloat Decimal

/-! ## Exact doubles -/

/-- The double is this number, with all the digits. -/
def IsExactly (y : Float) (x : ℚ) : Prop :=
  ∃ m e hm, y.toModel.unpack = .finite .positive m e hm ∧ 2 ^ 52 ≤ m ∧ x = m * 2 ^ e

theorem mem_interval_self (m : Nat) (e : Int) : (m * 2 ^ e : ℚ) ∈ (spanOf m e).interval := by
  have hvalue : (m * 2 ^ e : ℚ) / 2 ^ e = m := mul_div_cancel_right₀ _ (by positivity)
  refine mem_interval_of_abs_sub_le ?_ ?_ ?_ ?_ <;> rw [hvalue] <;> norm_num

/-- A number that fits into a mantissa is not rounded. -/
theorem isExactly_toFloat {n : Nat} (hn : 0 < n) (hlt : n < 2 ^ 53) :
    IsExactly n.toUInt64.toFloat n := by
  have hlog := (Nat.log2_lt hn.ne').2 hlt
  obtain ⟨hlow, hhigh⟩ := (Nat.log2_eq_iff hn.ne').1 rfl
  generalize hk : 52 - n.log2 = k
  have hlack : lack n 0 = k := by
    rw [lack]
    omega
  have hmantissa : 2 ^ 52 ≤ n * 2 ^ k ∧ n * 2 ^ k < 2 ^ 53 := by
    have hpow : 2 ^ n.log2 * 2 ^ k = 2 ^ 52 := by
      rw [← Nat.pow_add]
      congr 1
      omega
    have hpos := Nat.two_pow_pos k
    constructor
    · rw [← hpow]
      exact Nat.mul_le_mul_right _ hlow
    · calc n * 2 ^ k < 2 ^ (n.log2 + 1) * 2 ^ k := Nat.mul_lt_mul_of_pos_right hhigh hpos
        _ = 2 * (2 ^ n.log2 * 2 ^ k) := by ring
        _ = 2 ^ 53 := by rw [hpow]; rfl
  have hcanonical : IsCanonical (n * 2 ^ k) (-k) := ⟨hmantissa.2, by omega, .inl hmantissa.1⟩
  have hpos : 0 < n * 2 ^ k := by positivity
  have hvalue : (n : ℚ) = (n * 2 ^ k : ℕ) * 2 ^ (-k : ℤ) := by
    rw [zpow_neg, zpow_natCast]
    push_cast
    field_simp
  refine ⟨n * 2 ^ k, -k, hpos, ?_, hmantissa.1, hvalue⟩
  have hsmall : n.toUInt64.toNat = n := by
    rw [Nat.toUInt64, UInt64.toNat_ofNat']
    omega
  show (pack (UnpackedFloat.normalize .binary64 (n.toUInt64.toNat : ℕ) 0 .positive)).unpack = _
  rw [hsmall, normalize_eq hn, hlack, zero_sub]
  obtain ⟨m, e, hcanonical', hmem, heq⟩ := exists_roundWithAccuracy_eq (x := n) (e := -k)
    (by rw [hvalue, mul_div_cancel_right₀ _ (by positivity)]; exact represents_exact _)
    (.inl hmantissa.1) .positive
  rw [hvalue] at hmem
  obtain ⟨rfl, rfl⟩ := hcanonical'.eq_of_mem hcanonical hmem (mem_interval_self _ _)
  rw [heq, ofParts, dif_neg hpos.ne', hcanonical.unpack_pack, if_neg (by omega)]

/-- The powers of ten that are doubles. -/
theorem isExactly_powerOfTen {k : Nat} (hk : k < Float.exactlyRepresentablePowersOfTen.size) :
    IsExactly Float.exactlyRepresentablePowersOfTen[k] (10 ^ k) := by
  have htable : ∀ k : Fin 23,
      let m := 10 ^ k.val * 2 ^ 60 / 2 ^ ((10 ^ k.val).log2 + 8)
      Float.exactlyRepresentablePowersOfTen[k] =
          .ofModel (pack (ofParts .positive m ((10 ^ k.val).log2 - 52))) ∧
        2 ^ 52 ≤ m ∧ m < 2 ^ 53 ∧ (10 ^ k.val).log2 < 100 ∧
        m * 2 ^ ((10 ^ k.val).log2 + 8) = 10 ^ k.val * 2 ^ 60 := by decide +kernel
  obtain ⟨hdouble, hlow, hlt, hlog, hvalue⟩ := htable ⟨k, hk⟩
  dsimp only at *
  generalize 10 ^ k * 2 ^ 60 / 2 ^ ((10 ^ k).log2 + 8) = m at *
  generalize (10 ^ k).log2 = l at *
  have hpos : 0 < m := by omega
  refine ⟨m, l - 52, hpos, ?_, hlow, ?_⟩
  · have hcanonical : IsCanonical m (l - 52) := ⟨hlt, by omega, .inl hlow⟩
    have hdouble' : Float.exactlyRepresentablePowersOfTen[k] = _ := hdouble
    rw [hdouble', ofParts, dif_neg hpos.ne', hcanonical.unpack_pack, if_neg (by omega)]
  · have hcast : (m * 2 ^ (l + 8) : ℚ) = 10 ^ k * 2 ^ 60 := by exact_mod_cast hvalue
    rw [zpow_sub₀ (by norm_num), zpow_natCast, mul_div_assoc', eq_div_iff (by positivity)]
    rw [pow_add] at hcast
    norm_num at hcast ⊢
    linarith

theorem IsExactly.isRounded_mul {y z : Float} {a b : ℚ} (hy : IsExactly y a) (hz : IsExactly z b) :
    ∃ u, IsRounded (a * b) u ∧ (y * z).toModel = pack u := by
  obtain ⟨m, e, hm, hunpack, hfull, rfl⟩ := hy
  obtain ⟨m', e', hm', hunpack', -, rfl⟩ := hz
  refine ⟨_, Double.isRounded_mul hm hm' (hfull.trans (Nat.le_mul_of_pos_right m hm')), ?_⟩
  rw [← hunpack, ← hunpack']
  rfl

theorem IsExactly.isRounded_div {y z : Float} {a b : ℚ} (hy : IsExactly y a) (hz : IsExactly z b) :
    ∃ u, IsRounded (a / b) u ∧ (y / z).toModel = pack u := by
  obtain ⟨m, e, hm, hunpack, -, rfl⟩ := hy
  obtain ⟨m', e', hm', hunpack', -, rfl⟩ := hz
  refine ⟨_, Double.isRounded_div hm hm', ?_⟩
  rw [← hunpack, ← hunpack']
  rfl

/-! ## Decimals -/

/-- Decimals are rounded, whichever way they are read. -/
theorem exists_ofScientific_eq {n : Nat} {e : Int} (hn : 0 < n) (hhigh : e ≤ 2048)
    (hlow : -(2048 + n.log2 : Int) ≤ e) :
    ∃ u, IsRounded (n * 10 ^ e) u ∧
      (Float.ofScientific n (e < 0) e.natAbs).toModel = pack u := by
  by_cases hfast : n < 2 ^ 53 ∧ e.natAbs ≤ 22
  · have hsize : e.natAbs < Float.exactlyRepresentablePowersOfTen.size :=
      Nat.lt_succ_of_le hfast.2
    have hdigits := isExactly_toFloat hn hfast.1
    have hpower := isExactly_powerOfTen hsize
    rw [Float.ofScientific, dif_pos hfast]
    by_cases he : e < 0
    · have hvalue : (n * 10 ^ e : ℚ) = n / 10 ^ e.natAbs := by
        have habs : e = -(e.natAbs : ℤ) := by omega
        rw [habs, zpow_neg, zpow_natCast, Int.natAbs_neg, Int.natAbs_natCast, div_eq_mul_inv]
      simp only [he, decide_true, if_true]
      rw [hvalue]
      exact hdigits.isRounded_div hpower
    · have hvalue : (n * 10 ^ e : ℚ) = n * 10 ^ e.natAbs := by
        have habs : e = (e.natAbs : ℤ) := by omega
        rw [habs, zpow_natCast, Int.natAbs_natCast]
      simp only [he, decide_false, Bool.false_eq_true, if_false]
      rw [hvalue]
      exact hdigits.isRounded_mul hpower
  · have hexponent :
        (if decide (e < 0) then Int.negOfNat e.natAbs else Int.ofNat e.natAbs) = e := by
      simp only [decide_eq_true_eq, Int.negOfNat_eq, Int.ofNat_eq_natCast]
      split <;> omega
    refine ⟨_, isRounded_ofScientific hn hhigh hlow, ?_⟩
    rw [Float.ofScientific, dif_neg hfast]
    simp only [hexponent]
    rfl

/-- The intervals of the positive doubles lie between half the least one and the power of two above
the greatest one. -/
theorem bounds_of_mem_interval {m : Nat} {e : Int} (h : IsCanonical m e) (hm : 0 < m)
    (he : e ≤ 971) {x : ℚ} (hx : x ∈ (spanOf m e).interval) :
    2 ^ (-1075 : ℤ) ≤ x ∧ x < 2 ^ (1024 : ℤ) := by
  obtain ⟨hlow, -⟩ := low_div_le_of_mem hx
  obtain ⟨hhigh, -⟩ := le_high_div_of_mem hx
  have hbelow := (le_low_div m e).trans hlow
  have hone : (1 : ℚ) ≤ m := by exact_mod_cast hm
  have hlt : (m : ℚ) + 1 ≤ 2 ^ (53 : ℤ) := by exact_mod_cast h.lt
  have hpos : (0 : ℚ) < 2 ^ e := by positivity
  constructor
  · calc (2 : ℚ) ^ (-1075 : ℤ) ≤ 2 ^ (-1 + e) :=
          zpow_le_zpow_right₀ (by norm_num) (by have := h.le; omega)
      _ = 1 / 2 * 2 ^ e := by rw [zpow_add₀ (by norm_num), zpow_neg_one, one_div]
      _ ≤ x := by
          rw [← le_div_iff₀ hpos]
          linarith
  · calc x < 2 ^ (53 : ℤ) * 2 ^ e := by
          rw [← div_lt_iff₀ hpos]
          linarith
      _ = 2 ^ (53 + e) := (zpow_add₀ (by norm_num) _ _).symm
      _ ≤ 2 ^ (1024 : ℤ) := zpow_le_zpow_right₀ (by norm_num) (by omega)

theorem pow_ten_lt : (10 : ℚ) ^ (-331 : ℤ) < 2 ^ (-1075 : ℤ) := by
  rw [zpow_neg, zpow_neg, inv_lt_inv₀ (by positivity) (by positivity)]
  exact_mod_cast (by decide +kernel : 2 ^ 1075 < 10 ^ 331)

theorem lt_pow_ten : (2 : ℚ) ^ (1024 : ℤ) < 10 ^ (310 : ℤ) := by
  exact_mod_cast (by decide +kernel : 2 ^ 1024 < 10 ^ 310)

theorem length_natText_le_log2 {n : Nat} (hn : 0 < n) : (natText n).length ≤ n.log2 + 1 := by
  have hlow := pow_length_natText_le hn
  have hhigh : n < 2 ^ (n.log2 + 1) := Nat.lt_log2_self
  have hpow : 2 ^ ((natText n).length - 1) ≤ 10 ^ ((natText n).length - 1) :=
    Nat.pow_le_pow_left (by decide) _
  have := (Nat.pow_lt_pow_iff_right (by decide : 1 < 2)).1 ((hpow.trans hlow).trans_lt hhigh)
  omega

theorem nearestFloat_eq_iff_of_positive {y : Float} {m : Nat} {e : Int} {hm : 0 < m}
    (hy : y.toModel.unpack = .finite .positive m e hm) (d : Scaled) :
    nearestFloat false d.digits d.exponent = y ↔ d.value ∈ (spanOf m e).interval := by
  obtain ⟨hcanonical, he⟩ := isCanonical_of_unpack_eq hy
  have hbounds := fun hx => bounds_of_mem_interval hcanonical hm he (x := d.value) hx
  unfold nearestFloat
  simp only [Bool.false_eq_true, if_false, Bool.or_eq_true, decide_eq_true_eq]
  split
  · next htiny =>
    -- the decimal is below all intervals
    have hvalue : d.value < 2 ^ (-1075 : ℤ) := by
      rcases htiny with hzero | hsmall
      · rw [Scaled.value, hzero, Nat.cast_zero, zero_mul]
        positivity
      · refine (Scaled.value_lt_pow (lt_pow_length_natText d.digits)).trans ?_
        exact (zpow_le_zpow_right₀ (by norm_num) (by omega)).trans_lt pow_ten_lt
    refine iff_of_false (fun heq => ?_) fun hx => absurd (hbounds hx).1 hvalue.not_ge
    rw [← heq] at hy
    cases hy
  · next hdigits =>
    rw [not_or] at hdigits
    have hpos : 0 < d.digits := Nat.pos_of_ne_zero hdigits.1
    split
    · next hlarge =>
      -- it is above all intervals
      have hvalue : 2 ^ (1024 : ℤ) < d.value := by
        have hpow : ((10 ^ ((natText d.digits).length - 1) : ℕ) : ℚ) ≤ d.digits :=
          Nat.cast_le.2 (pow_length_natText_le hpos)
        have hlength := length_natText_pos d.digits
        calc (2 : ℚ) ^ (1024 : ℤ) < 10 ^ (310 : ℤ) := lt_pow_ten
          _ ≤ 10 ^ (((natText d.digits).length - 1 : ℕ) + d.exponent) :=
            zpow_le_zpow_right₀ (by norm_num) (by omega)
          _ = (10 ^ ((natText d.digits).length - 1) : ℕ) * 10 ^ d.exponent := by
            rw [zpow_add₀ (by norm_num), zpow_natCast]
            push_cast
            rfl
          _ ≤ d.value := mul_le_mul_of_nonneg_right hpow (by positivity)
      refine iff_of_false (fun heq => ?_) fun hx => absurd (hbounds hx).2 hvalue.not_gt
      rw [← heq] at hy
      cases hy
    · next hsmall =>
      have hlength := length_natText_le_log2 hpos
      obtain ⟨u, hrounded, hu⟩ :=
        exists_ofScientific_eq (e := d.exponent) hpos (by omega) (by omega)
      rw [← IsRounded.pack_eq_iff (x := d.value) hrounded hy, ← hu]
      exact ⟨fun heq => congrArg Float.toModel heq, fun heq => congrArg Float.ofModel heq⟩

/-! ## Signs -/

/-- Is it the sign of a negative number? -/
def isNegative : Sign → Bool
  | .positive => false
  | .negative => true

theorem neg_eq_iff {x y : Float} : -x = y ↔ x = -y := by
  have hneg : ∀ z : Float, - -z = z := fun z => congrArg Float.ofModel (neg_neg_model z.toModel)
  constructor
  · intro h
    rw [← h, hneg]
  · intro h
    rw [h, hneg]

/-- A decimal is read as a double iff it lies in the interval of the double. -/
theorem nearestFloat_eq_iff {x : Float} {s : Sign} {m : Nat} {e : Int} {hm : 0 < m}
    (hx : x.toModel.unpack = .finite s m e hm) (d : Scaled) :
    nearestFloat (isNegative s) d.digits d.exponent = x ↔ d.value ∈ (spanOf m e).interval := by
  cases s with
  | positive => exact nearestFloat_eq_iff_of_positive hx d
  | negative =>
    have hneg : (-x).toModel.unpack = .finite .positive m e hm := by
      show (-x.toModel).unpack = _
      rw [unpack_neg, hx]
      rfl
    rw [← nearestFloat_eq_iff_of_positive hneg d, ← neg_eq_iff]
    rfl

/-! ## Bits -/

theorem toNat_and_fraction (bits : UInt64) :
    (bits &&& 0xFFFFFFFFFFFFF).toNat = bits.toNat % 2 ^ 52 := by
  rw [UInt64.toNat_and]
  exact Nat.and_two_pow_sub_one_eq_mod _ 52

theorem toNat_and_exponent (bits : UInt64) :
    ((bits >>> 52) &&& 0x7FF).toNat = bits.toNat / 2 ^ 52 % 2 ^ 11 := by
  rw [UInt64.toNat_and, UInt64.toNat_shiftRight, Nat.shiftRight_eq_div_pow]
  exact Nat.and_two_pow_sub_one_eq_mod _ 11

theorem toNat_and_magnitude (bits : UInt64) :
    (bits &&& 0x7FFFFFFFFFFFFFFF).toNat = bits.toNat % 2 ^ 63 := by
  rw [UInt64.toNat_and]
  exact Nat.and_two_pow_sub_one_eq_mod _ 63

section Unpacked

variable (b : BitVec Format.binary64.numBits)

theorem toNat_unpackMantissa : (unpackMantissa b).toNat = b.toNat % 2 ^ 52 := by
  simp [unpackMantissa]

theorem toNat_unpackExponent : (unpackExponent b).toNat = b.toNat / 2 ^ 52 % 2 ^ 11 := by
  simp [unpackExponent, Nat.shiftRight_eq_div_pow]

theorem toNat_unpackSign : (unpackSign b).toNat = b.toNat / 2 ^ 63 := by
  have hlt : b.toNat < 2 ^ 64 := b.isLt
  simp [unpackSign, Nat.shiftRight_eq_div_pow]
  omega

end Unpacked

/-- What a finite double is unpacked to, in terms of its bits. -/
theorem toBits_of_unpack_eq {x : Float} {s : Sign} {m : Nat} {e : Int} {hm : 0 < m}
    (hx : x.toModel.unpack = .finite s m e hm) :
    let fraction : Nat := x.toBits.toNat % 2 ^ 52
    let biased : Nat := x.toBits.toNat / 2 ^ 52 % 2 ^ 11
    m = (if biased = 0 then fraction else 2 ^ 52 + fraction) ∧ e = max (biased : Int) 1 - 1075 ∧
      (isNegative s = true ↔ 2 ^ 63 ≤ x.toBits.toNat) := by
  have hfraction := toNat_unpackMantissa x.toBits.toBitVec
  have hbiased := toNat_unpackExponent x.toBits.toBitVec
  have hsign := toNat_unpackSign x.toBits.toBitVec
  have happend := toNat_append (@unpackMantissa .binary64 x.toBits.toBitVec)
  have hnegative : isNegative (Sign.ofBitVec (@unpackSign .binary64 x.toBits.toBitVec)) = true ↔
      2 ^ 63 ≤ x.toBits.toNat := by
    have hlt := x.toBits.toNat_lt
    rw [UInt64.toNat_toBitVec] at hsign
    unfold Sign.ofBitVec
    split
    · next hzero =>
      rw [hzero] at hsign
      change 0 = _ at hsign
      exact iff_of_false Bool.false_ne_true (by omega)
    · next hne =>
      have hsign' : (@unpackSign .binary64 x.toBits.toBitVec).toNat ≠ 0 :=
        fun hzero => hne (BitVec.eq_of_toNat_eq hzero)
      exact iff_of_true rfl (by omega)
  dsimp only
  rw [UInt64.toNat_toBitVec] at hfraction hbiased
  change UnpackedFloat.unpack .binary64 x.toBits.toBitVec = _ at hx
  simp only [UnpackedFloat.unpack] at hx
  split at hx
  · split at hx <;> cases hx
  · split at hx
    · split at hx
      · cases hx
      · next hzero _ =>
        simp only [UnpackedFloat.finite.injEq] at hx
        obtain ⟨rfl, rfl, rfl⟩ := hx
        rw [hzero] at hbiased ⊢
        change 0 = _ at hbiased
        rw [if_pos hbiased.symm, ← hbiased]
        exact ⟨hfraction, by decide, hnegative⟩
    · next hne =>
      simp only [UnpackedFloat.finite.injEq] at hx
      obtain ⟨rfl, rfl, rfl⟩ := hx
      have hne' : (@unpackExponent .binary64 x.toBits.toBitVec).toNat ≠ 0 :=
        fun hzero => hne (BitVec.eq_of_toNat_eq hzero)
      rw [hbiased] at hne' ⊢
      rw [if_neg hne', happend, hfraction]
      refine ⟨rfl, ?_, hnegative⟩
      simp only [Format.exponentBias]
      omega

/-- The interval that is read off the bits is that of the double. -/
theorem ofBits_eq_spanOf {x : Float} {s : Sign} {m : Nat} {e : Int} {hm : 0 < m}
    (hx : x.toModel.unpack = .finite s m e hm) :
    Span.ofBits (x.toBits &&& 0x7FFFFFFFFFFFFFFF) = spanOf m e := by
  obtain ⟨hmantissa, hexponent, -⟩ := toBits_of_unpack_eq hx
  have hfraction : x.toBits.toNat % 2 ^ 63 % 2 ^ 52 = x.toBits.toNat % 2 ^ 52 := by omega
  have hbiased : x.toBits.toNat % 2 ^ 63 / 2 ^ 52 % 2 ^ 11 = x.toBits.toNat / 2 ^ 52 % 2 ^ 11 := by
    omega
  unfold Span.ofBits spanOf
  simp only [toNat_and_fraction, toNat_and_exponent, toNat_and_magnitude, hfraction, hbiased]
  generalize x.toBits.toNat % 2 ^ 52 = fraction at *
  generalize x.toBits.toNat / 2 ^ 52 % 2 ^ 11 = biased at *
  have hpower : (decide (fraction = 0) && decide (biased > 1)) = true ↔ m = 2 ^ 52 ∧ -1074 < e := by
    rw [Bool.and_eq_true, decide_eq_true_eq, decide_eq_true_eq]
    split at hmantissa <;> omega
  have hmantissa' : (if biased = 0 then fraction else 0x10000000000000 + fraction) = m :=
    hmantissa.symm
  have hexponent' : (max biased 1 : Int) - 1077 = e - 2 := by omega
  simp only [hmantissa', hexponent', hpower]

theorem toBits_and_ne_zero {x : Float} {s : Sign} {m : Nat} {e : Int} {hm : 0 < m}
    (hx : x.toModel.unpack = .finite s m e hm) : x.toBits &&& 0x7FFFFFFFFFFFFFFF ≠ 0 := by
  obtain ⟨hmantissa, -⟩ := toBits_of_unpack_eq hx
  intro hzero
  have hmagnitude := toNat_and_magnitude x.toBits
  rw [hzero] at hmagnitude
  change 0 = _ at hmagnitude
  split at hmantissa <;> omega

theorem toBits_eq_and_iff {x : Float} {s : Sign} {m : Nat} {e : Int} {hm : 0 < m}
    (hx : x.toModel.unpack = .finite s m e hm) :
    (x.toBits == x.toBits &&& 0x7FFFFFFFFFFFFFFF) = !isNegative s := by
  obtain ⟨-, -, hsign⟩ := toBits_of_unpack_eq hx
  have hmagnitude := toNat_and_magnitude x.toBits
  have hlt := x.toBits.toNat_lt
  rw [Bool.eq_iff_iff, beq_iff_eq, Bool.not_eq_true', ← Bool.not_eq_true, hsign, ← UInt64.toNat_inj,
    hmagnitude]
  omega

end DocumentSearch.Double
