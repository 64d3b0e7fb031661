import DocumentSearch.Proofs.Decimal.Interval
import DocumentSearch.Proofs.Search.Double

/-!
# Rounding to doubles

The arithmetic of doubles counts in natural numbers: a result is a mantissa, of which the last
digits are dropped and remembered as two bits. Here the same is said of rational numbers. Every
double has an interval of its own, whose ends are in the middle between two doubles and belong to
the one with the even mantissa; a product or a quotient is rounded to the double in whose interval
it lies.

Results:

* `Represents.shiftRight`, `Represents.roundedMantissa_spec`: the two bits say enough to round by.
* `exists_roundWithAccuracy_eq`: a number is rounded to a double in whose interval it lies.
* `IsCanonical.eq_of_mem`: there is one such double only.
* `isRounded_mul`, `isRounded_div`, `isRounded_ofScientific`: what is rounded is the exact result.
* `IsRounded.pack_eq_iff`: the result is a given double iff it lies in the interval of that double.
-/

namespace DocumentSearch.Double

open Float.Model Float.Model.UnpackedFloat Decimal

/-! ## Mantissas that lost digits -/

/-- The digit behind the mantissa. -/
def half (em : ExtendedMantissa) : ℚ := if em.roundBit then 1 / 2 else 0

/-- The mantissa and the digit behind it are where the number begins, and the last bit says whether
there is more. -/
structure Represents (em : ExtendedMantissa) (y : ℚ) : Prop where
  le : em.mantissa + half em ≤ y
  lt : y < em.mantissa + half em + 1 / 2
  sticky_iff : em.stickyBit = true ↔ em.mantissa + half em ≠ y

theorem half_mem (em : ExtendedMantissa) : half em = 0 ∨ half em = 1 / 2 := by
  unfold half
  split
  · exact .inr rfl
  · exact .inl rfl

theorem half_nonneg (em : ExtendedMantissa) : 0 ≤ half em := by
  rcases half_mem em with h | h <;> norm_num [h]

theorem half_le (em : ExtendedMantissa) : half em ≤ 1 / 2 := by
  rcases half_mem em with h | h <;> norm_num [h]

section Shift

variable {em : ExtendedMantissa} {y : ℚ}

theorem Represents.shiftRightOne (h : Represents em y) : Represents em.shiftRightOne (y / 2) := by
  have hcast : (em.mantissa : ℚ) = 2 * (em.mantissa / 2 : ℕ) + (em.mantissa % 2 : ℕ) := by
    exact_mod_cast (Nat.div_add_mod em.mantissa 2).symm
  have hhalf : half em.shiftRightOne = (em.mantissa % 2 : ℕ) / 2 := by
    unfold half ExtendedMantissa.shiftRightOne
    rcases Nat.mod_two_eq_zero_or_one em.mantissa with hbit | hbit <;> simp [hbit]
  have hstart : (em.shiftRightOne.mantissa : ℚ) + half em.shiftRightOne = em.mantissa / 2 := by
    rw [hhalf, hcast]
    change ((em.mantissa / 2 : ℕ) : ℚ) + _ = _
    ring
  have hle := h.le
  have hlt := h.lt
  have hnonneg := half_nonneg em
  have hhalf_le := half_le em
  refine ⟨by rw [hstart]; linarith, by rw [hstart]; linarith, ?_⟩
  rw [hstart]
  show (em.roundBit || em.stickyBit) = true ↔ _
  rw [Bool.or_eq_true, h.sticky_iff]
  cases hround : em.roundBit with
  | true =>
    have : half em = 1 / 2 := by rw [half, hround, if_pos rfl]
    refine iff_of_true (.inl rfl) fun heq => ?_
    linarith
  | false =>
    have : half em = 0 := by rw [half, hround]; rfl
    rw [this, add_zero, ne_eq, ne_eq, div_left_inj' (by norm_num)]
    simp

theorem Represents.shiftRight (h : Represents em y) (k : Nat) :
    Represents (em >>> k) (y / 2 ^ k) := by
  induction k with
  | zero =>
    rw [pow_zero, div_one]
    exact h
  | succ k ih =>
    rw [pow_succ, ← div_div]
    exact ih.shiftRightOne

theorem Represents.mantissa_le (h : Represents em y) : (em.mantissa : ℚ) ≤ y :=
  (le_add_of_nonneg_right (half_nonneg em)).trans h.le

/-- The rounded mantissa is nearest to the number, and even if there are two that are nearest. -/
theorem Represents.roundedMantissa_spec (h : Represents em y) :
    |y - em.roundedMantissa| ≤ 1 / 2 ∧
      (em.roundedMantissa % 2 = 1 → |y - em.roundedMantissa| < 1 / 2) := by
  obtain ⟨m, round, sticky⟩ := em
  obtain ⟨hle, hlt, hsticky⟩ := h
  simp only [half] at hle hlt hsticky
  rw [abs_le, abs_lt]
  cases round <;> cases sticky <;>
    simp only [ExtendedMantissa.roundedMantissa, ExtendedMantissa.accuracy,
      Accuracy.roundToNearestEven, Bool.false_eq_true, if_true, if_false, false_iff, true_iff,
      not_not, ne_eq, add_zero] at *
  · subst hsticky
    norm_num
  · have := lt_of_le_of_ne hle hsticky
    exact ⟨⟨by linarith, by linarith⟩, fun _ => ⟨by linarith, by linarith⟩⟩
  · rcases Nat.mod_two_eq_zero_or_one m with hbit | hbit <;> rw [hbit] <;> push_cast
    · refine ⟨⟨by linarith, by linarith⟩, fun hodd => ?_⟩
      omega
    · refine ⟨⟨by linarith, by linarith⟩, fun hodd => ?_⟩
      omega
  · have := lt_of_le_of_ne hle hsticky
    push_cast
    exact ⟨⟨by linarith, by linarith⟩, fun _ => ⟨by linarith, by linarith⟩⟩

end Shift

theorem represents_exact (m : Nat) : Represents (.ofMantissaAndAccuracy m .exact) m := by
  constructor <;> simp [ExtendedMantissa.ofMantissaAndAccuracy, half]

/-- What a division leaves tells how far the quotient is behind its whole part. -/
theorem represents_fraction {n d : Nat} (hd : 0 < d) :
    Represents (.ofMantissaAndAccuracy (n / d) (accuracyOfFraction (n % d) d)) (n / d) := by
  have hpos : (0 : ℚ) < d := Nat.cast_pos.2 hd
  have hsplit : (n : ℚ) / d = (n / d : ℕ) + (n % d : ℕ) / d := by
    rw [div_eq_iff hpos.ne', add_mul, div_mul_cancel₀ _ hpos.ne', mul_comm]
    exact_mod_cast (Nat.div_add_mod n d).symm
  have hlt : ((n % d : ℕ) : ℚ) / d < 1 := by
    rw [div_lt_one hpos]
    exact_mod_cast Nat.mod_lt n hd
  have hcompare : 2 * ((n % d : ℕ) : ℚ) / d = ((2 * (n % d) : ℕ) : ℚ) / d := by push_cast; rfl
  rw [hsplit, accuracyOfFraction]
  split
  · next hzero =>
    rw [hzero, Nat.cast_zero, zero_div, add_zero]
    exact represents_exact _
  · next hne =>
    have hrest : 0 < ((n % d : ℕ) : ℚ) / d := div_pos (Nat.cast_pos.2 (Nat.pos_of_ne_zero hne)) hpos
    rcases lt_trichotomy (2 * (n % d)) d with h | h | h
    · have hfraction : 2 * ((n % d : ℕ) : ℚ) / d < 1 := by
        rw [hcompare, div_lt_one hpos]
        exact_mod_cast h
      rw [Nat.compare_eq_lt.2 h]
      constructor <;> simp only [ExtendedMantissa.ofMantissaAndAccuracy, half] <;> grind
    · have hfraction : 2 * ((n % d : ℕ) : ℚ) / d = 1 := by
        rw [hcompare, h, div_self hpos.ne']
      rw [Nat.compare_eq_eq.2 h]
      constructor <;> simp only [ExtendedMantissa.ofMantissaAndAccuracy, half] <;> grind
    · have hfraction : 1 < 2 * ((n % d : ℕ) : ℚ) / d := by
        rw [hcompare, one_lt_div hpos]
        exact_mod_cast h
      rw [Nat.compare_eq_gt.2 h]
      constructor <;> simp only [ExtendedMantissa.ofMantissaAndAccuracy, half] <;> grind

/-! ## Rounding -/

/-- The numbers that are rounded to a number with the given mantissa and exponent. -/
def spanOf (m : Nat) (e : Int) : Span where
  low := 4 * m - if m = 2 ^ 52 ∧ -1074 < e then 1 else 2
  value := 4 * m
  high := 4 * m + 2
  exponent := e - 2
  closed := m % 2 = 0

theorem isProper_spanOf {m : Nat} {e : Int} (h : IsCanonical m e) (hm : 0 < m) :
    (spanOf m e).IsProper := by
  have hlt := h.lt
  constructor <;> rw [spanOf] <;> split <;> dsimp only <;> omega

theorem point_eq_div (m : Nat) (e : Int) (units : Nat) :
    (spanOf m e).point units = units / 4 * 2 ^ e := by
  show (units : ℚ) * 2 ^ (e - 2) = _
  rw [zpow_sub₀ (by norm_num)]
  ring

theorem point_le_iff {m : Nat} {e : Int} {units : Nat} {x : ℚ} :
    (spanOf m e).point units ≤ x ↔ units / 4 ≤ x / 2 ^ e := by
  rw [point_eq_div, le_div_iff₀ (by positivity)]

theorem le_point_iff {m : Nat} {e : Int} {units : Nat} {x : ℚ} :
    x ≤ (spanOf m e).point units ↔ x / 2 ^ e ≤ units / 4 := by
  rw [point_eq_div, div_le_iff₀ (by positivity)]

theorem mem_interval_spanOf_iff {m : Nat} {e : Int} {x : ℚ} :
    x ∈ (spanOf m e).interval ↔
      if m % 2 = 0 then (spanOf m e).low / 4 ≤ x / 2 ^ e ∧ x / 2 ^ e ≤ (4 * m + 2) / 4
      else (spanOf m e).low / 4 < x / 2 ^ e ∧ x / 2 ^ e < (4 * m + 2) / 4 := by
  have hhigh : ((spanOf m e).high : ℚ) = 4 * m + 2 := by
    show ((4 * m + 2 : ℕ) : ℚ) = _
    push_cast
    rfl
  have hclosed : (spanOf m e).closed = decide (m % 2 = 0) := rfl
  rw [Span.interval, hclosed, ← hhigh]
  simp only [decide_eq_true_eq]
  split
  · rw [Set.mem_Icc, point_le_iff, le_point_iff]
  · rw [Set.mem_Ioo, ← not_le, ← not_le, point_le_iff, le_point_iff, not_le, not_le]

theorem low_div_le {m : Nat} {e : Int} {y : ℚ} (hy : 0 ≤ y) (hle : m - 1 / 2 ≤ y)
    (hpower : m = 2 ^ 52 → -1074 < e → m ≤ y) : ((spanOf m e).low : ℚ) / 4 ≤ y := by
  rw [spanOf]
  split
  · next h =>
    have hm := hpower h.1 h.2
    have hcast : ((4 * m - 1 : ℕ) : ℚ) ≤ (4 * m : ℕ) := Nat.cast_le.2 (Nat.sub_le _ _)
    push_cast at hcast
    linarith
  · rcases Nat.eq_zero_or_pos m with rfl | hm
    · rw [mul_zero, Nat.zero_sub, Nat.cast_zero, zero_div]
      exact hy
    · rw [Nat.cast_sub (by omega)]
      push_cast
      linarith

theorem low_div_lt_of_odd {m : Nat} {e : Int} {y : ℚ} (hodd : m % 2 = 1) (hlt : m - 1 / 2 < y) :
    ((spanOf m e).low : ℚ) / 4 < y := by
  have hne : ¬ (m = 2 ^ 52 ∧ -1074 < e) := by omega
  rw [spanOf, if_neg hne, Nat.cast_sub (by omega)]
  push_cast
  linarith

/-- A number that is nearest to the mantissa, in units of the exponent, is rounded to it. -/
theorem mem_interval_of_abs_sub_le {m : Nat} {e : Int} {x : ℚ} (hx : 0 ≤ x / 2 ^ e)
    (hle : |x / 2 ^ e - m| ≤ 1 / 2) (hodd : m % 2 = 1 → |x / 2 ^ e - m| < 1 / 2)
    (hpower : m = 2 ^ 52 → -1074 < e → m ≤ x / 2 ^ e) : x ∈ (spanOf m e).interval := by
  rw [abs_le] at hle
  rw [mem_interval_spanOf_iff]
  split
  · exact ⟨low_div_le hx (by linarith) hpower, by linarith⟩
  · have hlt := hodd (by omega)
    rw [abs_lt] at hlt
    exact ⟨low_div_lt_of_odd (by omega) (by linarith), by linarith⟩

/-- A number that is rounded up to a power of two is counted in the greater units of the next
exponent. -/
theorem mem_interval_two_pow {e : Int} {x : ℚ} (he : -1074 ≤ e)
    (hle : 2 ^ 53 - 1 / 2 ≤ x / 2 ^ e) (hlt : x / 2 ^ e ≤ 2 ^ 53 + 1 / 2) :
    x ∈ (spanOf (2 ^ 52) (e + 1)).interval := by
  have hscale : x / 2 ^ (e + 1) = x / 2 ^ e / 2 := by
    rw [zpow_add₀ (by norm_num), zpow_one, div_div]
  have hlow : (spanOf (2 ^ 52) (e + 1)).low = 4 * 2 ^ 52 - 1 := by
    rw [spanOf, if_pos ⟨rfl, by omega⟩]
  rw [mem_interval_spanOf_iff, if_pos (by decide), hlow, hscale]
  norm_num at hle hlt ⊢
  exact ⟨by linarith, by linarith⟩

theorem ofMantissaAndAccuracy_mantissa (m : Nat) (acc : Accuracy) :
    (ExtendedMantissa.ofMantissaAndAccuracy m acc).mantissa = m := by
  cases acc with
  | exact => rfl
  | inexact o => cases o <;> rfl

theorem excess_spec {m : Nat} {e : Int} (hdigits : 2 ^ 52 ≤ m ∨ e ≤ -1074) :
    m / 2 ^ excess m e < 2 ^ 53 ∧ -1074 ≤ e + excess m e ∧
      (2 ^ 52 ≤ m / 2 ^ excess m e ∨ e + excess m e = -1074) := by
  generalize hk : excess m e = k
  rw [excess] at hk
  refine ⟨?_, by omega, ?_⟩
  · rw [Nat.div_lt_iff_lt_mul (Nat.two_pow_pos k), ← Nat.pow_add]
    exact Nat.lt_of_lt_of_le Nat.lt_log2_self (Nat.pow_le_pow_right (by decide) (by omega))
  · rcases Int.le_total (m.log2 + 1 + e - 53) (-1074) with hle | hle
    · refine .inr ?_
      rcases hdigits with hfull | hsmall
      · have := (Nat.le_log2 (by omega)).2 hfull
        omega
      · omega
    · have hlog : 52 + k ≤ m.log2 := by
        rcases hdigits with hfull | hsmall
        · have := (Nat.le_log2 (by omega)).2 hfull
          omega
        · omega
      have hne : m ≠ 0 := by
        rintro rfl
        simp at hlog
      refine .inl ?_
      rw [Nat.le_div_iff_mul_le (Nat.two_pow_pos k), ← Nat.pow_add]
      exact (Nat.le_log2 hne).1 hlog

theorem roundedMantissa_le (em : ExtendedMantissa) : em.roundedMantissa ≤ em.mantissa + 1 := by
  obtain ⟨m, round, sticky⟩ := em
  cases round <;> cases sticky <;>
    simp only [ExtendedMantissa.roundedMantissa, ExtendedMantissa.accuracy,
      Accuracy.roundToNearestEven] <;> omega

theorem excess_of_lt {m : Nat} {e : Int} (hlt : m < 2 ^ 53) (he : -1074 ≤ e) : excess m e = 0 := by
  rcases Nat.eq_zero_or_pos m with rfl | hm
  · rw [excess, Nat.log2_zero]
    omega
  · have := (Nat.log2_lt hm.ne').2 hlt
    rw [excess]
    omega

theorem excess_two_pow {e : Int} (he : -1074 ≤ e) : excess (2 ^ 53) e = 1 := by
  rw [excess, Nat.log2_two_pow]
  omega

/-- The number with the given mantissa, which may be zero. -/
def ofParts (s : Sign) (m : Nat) (e : Int) : UnpackedFloat :=
  if h : m = 0 then .zero s else .finite s m e (Nat.pos_of_ne_zero h)

/-- Rounding takes a number to the one in whose interval it lies. -/
theorem exists_roundWithAccuracy_eq {m : Nat} {e : Int} {acc : Accuracy} {x : ℚ}
    (h : Represents (.ofMantissaAndAccuracy m acc) (x / 2 ^ e))
    (hdigits : 2 ^ 52 ≤ m ∨ e ≤ -1074) (s : Sign) :
    ∃ m' e', IsCanonical m' e' ∧ x ∈ (spanOf m' e').interval ∧
      roundWithAccuracy .binary64 s m e acc = ofParts s m' e' := by
  obtain ⟨hlt, hle, hfull⟩ := excess_spec hdigits
  have hem := h.shiftRight (excess m e)
  have hmantissa := mantissa_shiftRight (.ofMantissaAndAccuracy m acc) (excess m e)
  rw [ofMantissaAndAccuracy_mantissa] at hmantissa
  rw [div_div, ← zpow_natCast, ← zpow_add₀ (by norm_num)] at hem
  show ∃ m' e', _ ∧ _ ∧ (let em := ExtendedMantissa.ofMantissaAndAccuracy m acc >>> excess m e
    let r := em.roundedMantissa
    let shifted := shiftToTargetExponent .binary64 r (e + excess m e) .exact
    ofParts s shifted.1.mantissa shifted.2) = _
  generalize ExtendedMantissa.ofMantissaAndAccuracy m acc >>> excess m e = em at hem hmantissa
  generalize e + excess m e = e₁ at *
  rw [← hmantissa] at hlt hfull
  dsimp only
  obtain ⟨hmantissa', hexponent'⟩ := shiftToTargetExponent_eq em.roundedMantissa e₁
  rw [hmantissa', hexponent']
  have hge := mantissa_le_roundedMantissa em
  have hrounded := roundedMantissa_le em
  obtain ⟨hnear, hodd⟩ := hem.roundedMantissa_spec
  have hmantissa_le := hem.mantissa_le
  rcases Nat.lt_or_ge em.roundedMantissa (2 ^ 53) with hr | hr
  · rw [excess_of_lt hr hle, pow_zero, Nat.div_one, Nat.cast_zero, add_zero]
    refine ⟨_, _, ⟨hr, hle, hfull.imp_left fun h => h.trans hge⟩, ?_, rfl⟩
    refine mem_interval_of_abs_sub_le ((Nat.cast_nonneg _).trans hmantissa_le) hnear hodd ?_
    intro hpower hpos
    have heq : em.roundedMantissa = em.mantissa := by omega
    rw [heq]
    exact hmantissa_le
  · have hpower : em.roundedMantissa = 2 ^ 53 := by omega
    rw [hpower] at hnear ⊢
    rw [excess_two_pow hle]
    refine ⟨2 ^ 52, e₁ + 1, ⟨by decide, by omega, .inl le_rfl⟩, ?_, rfl⟩
    rw [abs_le] at hnear
    push_cast at hnear
    exact mem_interval_two_pow hle (by linarith) (by linarith)

/-! ## Intervals of different doubles -/

theorem le_low_div (m : Nat) (e : Int) : (m : ℚ) - 1 / 2 ≤ (spanOf m e).low / 4 := by
  have hle : 4 * m ≤ (spanOf m e).low + 2 := by
    rw [spanOf]
    split <;> dsimp only <;> omega
  have hcast : (4 * m : ℚ) ≤ (spanOf m e).low + 2 := by exact_mod_cast hle
  linarith

theorem two_pow_le_low_div {m : Nat} {e : Int} (hm : 2 ^ 52 ≤ m) (he : -1074 < e) :
    (2 ^ 52 : ℚ) - 1 / 4 ≤ (spanOf m e).low / 4 := by
  have hle : 4 * 2 ^ 52 ≤ (spanOf m e).low + 1 := by
    rw [spanOf]
    split <;> dsimp only <;> omega
  have hcast : (4 * 2 ^ 52 : ℚ) ≤ (spanOf m e).low + 1 := by exact_mod_cast hle
  linarith

section Bounds

variable {m : Nat} {e : Int} {x : ℚ} (hx : x ∈ (spanOf m e).interval)
include hx

theorem low_div_le_of_mem : ((spanOf m e).low : ℚ) / 4 ≤ x / 2 ^ e ∧
    (m % 2 = 1 → ((spanOf m e).low : ℚ) / 4 < x / 2 ^ e) := by
  rw [mem_interval_spanOf_iff] at hx
  split at hx
  · exact ⟨hx.1, fun hodd => by omega⟩
  · exact ⟨hx.1.le, fun _ => hx.1⟩

theorem le_high_div_of_mem : x / 2 ^ e ≤ m + 1 / 2 ∧ (m % 2 = 1 → x / 2 ^ e < m + 1 / 2) := by
  rw [mem_interval_spanOf_iff] at hx
  split at hx
  · exact ⟨by linarith [hx.2], fun hodd => by omega⟩
  · exact ⟨by linarith [hx.2], fun _ => by linarith [hx.2]⟩

end Bounds

section Disjoint

variable {m m' : Nat} {e e' : Int} {x : ℚ}

theorem notMem_interval_of_mantissa_lt (hlt : m < m') (hx : x ∈ (spanOf m e).interval) :
    x ∉ (spanOf m' e).interval := by
  intro hx'
  obtain ⟨hhigh, hhigh_lt⟩ := le_high_div_of_mem hx
  obtain ⟨hlow, hlow_lt⟩ := low_div_le_of_mem hx'
  have hbelow := le_low_div m' e
  have hsucc : (m + 1 : ℚ) ≤ m' := by exact_mod_cast hlt
  -- only the number in the middle is left, and one of the two mantissas is odd
  have hm : m' = m + 1 := by
    have : (m' : ℚ) ≤ (m + 1 : ℕ) := by
      push_cast
      linarith
    have := Nat.cast_le.1 this
    omega
  rcases Nat.mod_two_eq_zero_or_one m with heven | hodd
  · have := hlow_lt (by omega)
    linarith
  · have := hhigh_lt hodd
    linarith

theorem notMem_interval_of_exponent_lt (h : IsCanonical m e) (h' : IsCanonical m' e')
    (hlt : e < e') (hx : x ∈ (spanOf m e).interval) : x ∉ (spanOf m' e').interval := by
  intro hx'
  obtain ⟨hhigh, hhigh_lt⟩ := le_high_div_of_mem hx
  obtain ⟨hlow, -⟩ := low_div_le_of_mem hx'
  have he := h.le
  have hfull := two_pow_le_low_div (h'.full.resolve_right (by omega)) (show -1074 < e' by omega)
  obtain ⟨k, hk⟩ := Int.le.dest (Int.add_one_le_of_lt hlt)
  have hscale : x / 2 ^ e = x / 2 ^ e' * 2 ^ (k + 1) := by
    rw [← hk, add_assoc, zpow_add₀ (by norm_num), ← div_div, add_comm 1 (k : ℤ), ← Nat.cast_succ,
      zpow_natCast, div_mul_cancel₀ _ (by positivity)]
  have hunits : 2 * (x / 2 ^ e') ≤ x / 2 ^ e := by
    have hone : (1 : ℚ) ≤ 2 ^ k := one_le_pow₀ (by norm_num)
    have hpos : 0 ≤ x / 2 ^ e' := by linarith [h]
    rw [hscale, pow_succ]
    nlinarith
  have hm : (m : ℚ) + 1 ≤ 2 ^ 53 := by exact_mod_cast h.lt
  have hlast : m = 2 ^ 53 - 1 := by
    have : (2 ^ 53 : ℚ) ≤ m + 1 := by linarith
    have : 2 ^ 53 ≤ m + 1 := by exact_mod_cast this
    have := h.lt
    omega
  have := hhigh_lt (by rw [hlast]; decide)
  linarith

/-- A number is rounded to one double only. -/
theorem IsCanonical.eq_of_mem (h : IsCanonical m e) (h' : IsCanonical m' e')
    (hx : x ∈ (spanOf m e).interval) (hx' : x ∈ (spanOf m' e').interval) : m = m' ∧ e = e' := by
  rcases lt_trichotomy e e' with he | rfl | he
  · exact absurd hx' (notMem_interval_of_exponent_lt h h' he hx)
  · rcases lt_trichotomy m m' with hm | rfl | hm
    · exact absurd hx' (notMem_interval_of_mantissa_lt hm hx)
    · exact ⟨rfl, rfl⟩
    · exact absurd hx (notMem_interval_of_mantissa_lt hm hx')
  · exact absurd hx (notMem_interval_of_exponent_lt h' h he hx')

end Disjoint

/-! ## Operations -/

/-- The number is what `x` is rounded to. -/
def IsRounded (x : ℚ) (u : UnpackedFloat) : Prop :=
  ∃ m e, IsCanonical m e ∧ x ∈ (spanOf m e).interval ∧ u = ofParts .positive m e

theorem isRounded_mul {m₁ m₂ : Nat} {e₁ e₂ : Int} (hm₁ : 0 < m₁) (hm₂ : 0 < m₂)
    (hdigits : 2 ^ 52 ≤ m₁ * m₂) :
    IsRounded (m₁ * 2 ^ e₁ * (m₂ * 2 ^ e₂))
      (UnpackedFloat.mul .binary64 (.finite .positive m₁ e₁ hm₁)
        (.finite .positive m₂ e₂ hm₂)) := by
  refine exists_roundWithAccuracy_eq ?_ (.inl hdigits) .positive
  have hvalue : (m₁ * 2 ^ e₁ * (m₂ * 2 ^ e₂) : ℚ) / 2 ^ (e₁ + e₂) = (m₁ * m₂ : ℕ) := by
    rw [zpow_add₀ (by norm_num), Nat.cast_mul, div_eq_iff (by positivity)]
    ring
  rw [hvalue]
  exact represents_exact _

/-- A quotient has all the digits of a double when enough zeros are written behind the dividend. -/
theorem two_pow_le_quotient {m₁ m₂ k : Nat} (hm₁ : 0 < m₁) (hm₂ : 0 < m₂)
    (hk : m₂.log2 + 53 ≤ m₁.log2 + k) : 2 ^ 52 ≤ m₁ * 2 ^ k / m₂ := by
  rw [Nat.le_div_iff_mul_le hm₂]
  have hlow : 2 ^ m₁.log2 * 2 ^ k ≤ m₁ * 2 ^ k :=
    Nat.mul_le_mul_right _ (Nat.log2_self_le hm₁.ne')
  have hhigh : 2 ^ 52 * m₂ ≤ 2 ^ 52 * 2 ^ (m₂.log2 + 1) :=
    Nat.mul_le_mul_left _ Nat.lt_log2_self.le
  refine hhigh.trans (le_trans ?_ hlow)
  rw [← Nat.pow_add, ← Nat.pow_add]
  exact Nat.pow_le_pow_right (by decide) (by omega)

theorem isRounded_div {m₁ m₂ : Nat} {e₁ e₂ : Int} (hm₁ : 0 < m₁) (hm₂ : 0 < m₂) :
    IsRounded (m₁ * 2 ^ e₁ / (m₂ * 2 ^ e₂))
      (UnpackedFloat.div .binary64 (.finite .positive m₁ e₁ hm₁)
        (.finite .positive m₂ e₂ hm₂)) := by
  have htarget : Format.binary64.targetExponent (totalExponent m₁ e₁ - totalExponent m₂ e₂) =
      max (m₁.log2 + e₁ - (m₂.log2 + e₂) - 53) (-1074) := by
    show max (m₁.log2 + 1 + e₁ - (m₂.log2 + 1 + e₂) - 53) (-1074) = _
    congr 1
    omega
  dsimp only [UnpackedFloat.div, divCore]
  rw [htarget]
  generalize ht : min (e₁ - e₂) (max (m₁.log2 + e₁ - (m₂.log2 + e₂) - 53) (-1074)) = t
  generalize hk : (e₁ - e₂ - t).toNat = k
  rw [Nat.shiftLeft_eq]
  refine exists_roundWithAccuracy_eq ?_ ?_ .positive
  · have hvalue : (m₁ * 2 ^ e₁ / (m₂ * 2 ^ e₂) : ℚ) / 2 ^ t = (m₁ * 2 ^ k : ℕ) / m₂ := by
      have hexponent : e₁ = k + (e₂ + t) := by omega
      rw [hexponent, zpow_add₀ (by norm_num), zpow_add₀ (by norm_num), zpow_natCast]
      push_cast
      field_simp
    rw [hvalue]
    exact represents_fraction hm₂
  · rcases Int.le_total (m₁.log2 + e₁ - (m₂.log2 + e₂) - 53) (-1074) with hle | hle
    · exact .inr (by omega)
    · exact .inl (two_pow_le_quotient hm₁ hm₂ (by omega))

theorem isRounded_ofScientific {n : Nat} {e : Int} (hn : 0 < n) (hhigh : e ≤ 2048)
    (hlow : -(2048 + n.log2 : Int) ≤ e) :
    IsRounded (n * 10 ^ e) (UnpackedFloat.ofScientific .binary64 n e) := by
  unfold UnpackedFloat.ofScientific
  rw [dif_neg hn.ne', if_neg (by change ¬ e > 2048; omega),
    if_neg (by change ¬ e < -((2048 : Int) + n.log2); omega)]
  split
  · next he =>
    have hdigits : 2 ^ 52 ≤ n <<< 53 * 10 ^ e.toNat := by
      rw [Nat.shiftLeft_eq]
      calc 2 ^ 52 ≤ 1 * 2 ^ 53 * 1 := by decide
        _ ≤ n * 2 ^ 53 * 10 ^ e.toNat :=
          Nat.mul_le_mul (Nat.mul_le_mul_right _ hn) (Nat.one_le_pow _ _ (by decide))
    have hvalue : (n * 10 ^ e : ℚ) =
        (n <<< 53 : ℕ) * 2 ^ (-53 : ℤ) * ((10 ^ e.toNat : ℕ) * 2 ^ (0 : ℤ)) := by
      have hcast : (10 : ℚ) ^ e = 10 ^ e.toNat := by rw [← zpow_natCast, Int.toNat_of_nonneg he]
      rw [hcast, Nat.shiftLeft_eq, zpow_neg]
      push_cast
      field_simp
    rw [hvalue]
    exact isRounded_mul _ _ hdigits
  · next he =>
    have hvalue : (n * 10 ^ e : ℚ) =
        n * 2 ^ (0 : ℤ) / ((10 ^ (-e).toNat : ℕ) * 2 ^ (0 : ℤ)) := by
      have hcast : (10 : ℚ) ^ e = (10 ^ (-e).toNat)⁻¹ := by
        rw [← zpow_natCast, ← zpow_neg, Int.toNat_of_nonneg (by omega), neg_neg]
      rw [hcast, zpow_zero, mul_one, mul_one, div_eq_mul_inv, Nat.cast_pow, Nat.cast_ofNat]
    rw [hvalue]
    exact isRounded_div _ _

/-! ## Packing -/

/-- What is rounded is packed to a double iff the number lies in the interval of that double. -/
theorem IsRounded.pack_eq_iff {x : ℚ} {u : UnpackedFloat} (h : IsRounded x u) {y : Float.Model}
    {m : Nat} {e : Int} {hm : 0 < m} (hy : y.unpack = .finite .positive m e hm) :
    pack u = y ↔ x ∈ (spanOf m e).interval := by
  obtain ⟨m', e', hcanonical, hx, rfl⟩ := h
  constructor
  · intro heq
    have hunpack : (pack (ofParts .positive m' e')).unpack = .finite .positive m e hm := by
      rw [heq, hy]
    unfold ofParts at hunpack
    split at hunpack
    · cases hunpack
    · rw [hcanonical.unpack_pack] at hunpack
      split at hunpack
      · cases hunpack
      · cases hunpack
        exact hx
  · intro hx'
    obtain ⟨rfl, rfl⟩ := hcanonical.eq_of_mem (isCanonical_of_unpack_eq hy).1 hx hx'
    rw [ofParts, dif_neg hm.ne', ← hy, pack_unpack]

end DocumentSearch.Double
