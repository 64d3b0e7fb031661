import DocumentSearch.Decimal.Digits
import DocumentSearch.Decimal.Shortest
import Mathlib.Algebra.Order.Field.Power
import Mathlib.Algebra.Order.Field.Rat
import Mathlib.Data.Nat.Prime.Basic
import Mathlib.Order.Interval.Set.OrdConnected
import Mathlib.Tactic.FieldSimp
import Mathlib.Tactic.Linarith
import Mathlib.Tactic.NormNum.Prime
import Mathlib.Tactic.Positivity
import Mathlib.Tactic.Ring

/-!
# The numbers that are rounded to a double

The numbers that decimals and spans stand for are rational. The code compares them as natural
numbers, over a common denominator; here are the same comparisons between the numbers themselves.

Results:

* `lt_pow_length_natText`, `pow_length_natText_le`: the powers of ten around a number, by the number
  of its digits.
* `Span.contains_iff`: the test for a decimal decides whether its value lies in the interval.
* `Span.IsProper.magnitude_spec`: the powers of ten around a double.
-/

namespace DocumentSearch.Decimal

/-! ## Numbers of digits -/

theorem length_natText_pos (n : Nat) : 0 < (natText n).length := Nat.length_toDigits_pos

theorem length_natText_le_iff {n k : Nat} (hk : 0 < k) : (natText n).length ≤ k ↔ n < 10 ^ k :=
  Nat.length_toDigits_le_iff (by decide) hk

theorem lt_pow_length_natText (n : Nat) : n < 10 ^ (natText n).length :=
  (length_natText_le_iff (length_natText_pos n)).1 le_rfl

theorem pow_length_natText_le {n : Nat} (hn : 0 < n) : 10 ^ ((natText n).length - 1) ≤ n := by
  rcases Nat.eq_zero_or_pos ((natText n).length - 1) with hzero | hpos
  · rw [hzero]
    exact hn
  · refine le_of_not_gt fun hlt => ?_
    have hle := (length_natText_le_iff hpos).2 hlt
    omega

/-! ## Decimals -/

namespace Scaled

/-- The number that the decimal stands for. -/
def value (d : Scaled) : ℚ := d.digits * 10 ^ d.exponent

/-- The decimals of a grid stand in the order of their digits. -/
theorem value_le_value {n m : Nat} (hle : n ≤ m) (grid : Int) :
    value ⟨n, grid⟩ ≤ value ⟨m, grid⟩ :=
  mul_le_mul_of_nonneg_right (Nat.cast_le.2 hle) (by positivity)

theorem value_mul_pow (n k : Nat) (exponent : Int) :
    value ⟨n * 10 ^ k, exponent⟩ = value ⟨n, exponent + k⟩ := by
  simp only [value]
  rw [zpow_add₀ (by norm_num), zpow_natCast]
  push_cast
  ring

theorem value_lt_pow {d : Scaled} {k : Nat} (h : d.digits < 10 ^ k) :
    d.value < 10 ^ (d.exponent + k) := by
  rw [value, add_comm, zpow_add₀ (by norm_num), zpow_natCast]
  exact mul_lt_mul_of_pos_right (by exact_mod_cast h) (by positivity)

end Scaled

namespace Span

variable (s : Span)

/-- The number of so many units. -/
def point (units : Nat) : ℚ := units * 2 ^ s.exponent

/-- The double itself. -/
def double : ℚ := s.point s.value

/-- The numbers that are rounded to the double. -/
def interval : Set ℚ :=
  if s.closed then Set.Icc (s.point s.low) (s.point s.high)
  else Set.Ioo (s.point s.low) (s.point s.high)

/-- The double lies within its interval, which is so wide that it has a decimal of 17 digits. -/
structure IsProper : Prop where
  low_lt : s.low < s.value
  lt_high : s.value < s.high
  lt_width : s.value < 10 ^ 16 * (s.high - s.low)

/-! ## Common denominators -/

theorem zpow_mul_pow_toNat_neg {b : ℚ} (hb : b ≠ 0) (n : ℤ) :
    b ^ n * b ^ (-n).toNat = b ^ n.toNat := by
  rw [← zpow_natCast, ← zpow_natCast, ← zpow_add₀ hb]
  congr 1
  omega

theorem unit_pos (grid : Int) : 0 < s.unit grid :=
  Nat.mul_pos (Nat.pow_pos (by decide)) (Nat.pow_pos (by decide))

/-- What a unit of the grid counts, in units of the common denominator. -/
theorem ratio_pos (grid : Int) : (0 : ℚ) < s.unit grid / 10 ^ grid := by
  have := s.unit_pos grid
  positivity

theorem cast_scale (grid : Int) (units : Nat) :
    (s.scale grid units : ℚ) = s.point units * (s.unit grid / 10 ^ grid) := by
  have htwo := zpow_mul_pow_toNat_neg (b := 2) (by norm_num) s.exponent
  have hten := zpow_mul_pow_toNat_neg (b := 10) (by norm_num) grid
  have hne : (10 : ℚ) ^ grid ≠ 0 := by positivity
  rw [point, scale, unit, mul_div_assoc', eq_div_iff hne]
  push_cast [Nat.pow_eq]
  rw [← htwo, ← hten]
  ring

theorem cast_mul_unit (grid : Int) (n : Nat) :
    ((n * s.unit grid : ℕ) : ℚ) = Scaled.value ⟨n, grid⟩ * (s.unit grid / 10 ^ grid) := by
  have hne : (10 : ℚ) ^ grid ≠ 0 := by positivity
  rw [Scaled.value, Nat.cast_mul]
  field_simp

section Comparisons

variable (grid : Int) (n units : Nat)

theorem scale_lt_mul_unit_iff :
    s.scale grid units < n * s.unit grid ↔ s.point units < Scaled.value ⟨n, grid⟩ := by
  rw [← Nat.cast_lt (α := ℚ), cast_scale, cast_mul_unit, mul_lt_mul_iff_left₀ (s.ratio_pos grid)]

theorem mul_unit_lt_scale_iff :
    n * s.unit grid < s.scale grid units ↔ Scaled.value ⟨n, grid⟩ < s.point units := by
  rw [← Nat.cast_lt (α := ℚ), cast_scale, cast_mul_unit, mul_lt_mul_iff_left₀ (s.ratio_pos grid)]

end Comparisons

theorem contains_iff {grid : Int} {n : Nat} :
    s.contains grid n = true ↔ Scaled.value ⟨n, grid⟩ ∈ s.interval := by
  have hlow := s.scale_lt_mul_unit_iff grid n s.low
  have hhigh := s.mul_unit_lt_scale_iff grid n s.high
  have hlow' := s.mul_unit_lt_scale_iff grid n s.low
  have hhigh' := s.scale_lt_mul_unit_iff grid n s.high
  unfold contains interval
  cases s.closed
  · simp [hlow, hhigh]
  · simp only [Bool.true_and, Bool.and_eq_true, Bool.or_eq_true, decide_eq_true_eq, beq_iff_eq,
      if_true, Set.mem_Icc, ← not_lt, ← hlow', ← hhigh']
    omega

/-! ## The interval -/

/-- Between two numbers of the interval there are only numbers of the interval. -/
theorem mem_interval_of_le {x y z : ℚ} (hx : x ∈ s.interval) (hz : z ∈ s.interval) (hxy : x ≤ y)
    (hyz : y ≤ z) : y ∈ s.interval := by
  have hconnected : s.interval.OrdConnected := by
    unfold interval
    split
    · exact Set.ordConnected_Icc
    · exact Set.ordConnected_Ioo
  exact hconnected.out hx hz ⟨hxy, hyz⟩

variable {s}

theorem mem_interval_of_lt {x : ℚ} (hlow : s.point s.low < x) (hhigh : x < s.point s.high) :
    x ∈ s.interval := by
  unfold interval
  split
  · exact ⟨hlow.le, hhigh.le⟩
  · exact ⟨hlow, hhigh⟩

section Proper

variable (h : s.IsProper)
include h

theorem IsProper.point_low_lt : s.point s.low < s.double :=
  mul_lt_mul_of_pos_right (Nat.cast_lt.2 h.low_lt) (by positivity)

theorem IsProper.lt_point_high : s.double < s.point s.high :=
  mul_lt_mul_of_pos_right (Nat.cast_lt.2 h.lt_high) (by positivity)

theorem IsProper.double_mem : s.double ∈ s.interval :=
  mem_interval_of_lt h.point_low_lt h.lt_point_high

theorem IsProper.double_lt_width : s.double < 10 ^ 16 * (s.point s.high - s.point s.low) := by
  have hle := (h.low_lt.trans h.lt_high).le
  have hcast : (s.value : ℚ) < 10 ^ 16 * (s.high - s.low) := by exact_mod_cast h.lt_width
  rw [double, point, point, point, ← sub_mul, ← mul_assoc]
  exact mul_lt_mul_of_pos_right hcast (by positivity)

end Proper

/-! ## Powers of ten around the double -/

/-- No power of ten but the first one divides a power of two. -/
theorem mul_pow_ne_unit {n k : Nat} (hlt : n < s.unit 0) : 10 ^ k * n ≠ s.unit 0 := by
  intro heq
  have hunit : s.unit 0 = 2 ^ (-s.exponent).toNat := Nat.one_mul _
  rcases Nat.eq_zero_or_pos k with rfl | hk
  · rw [pow_zero, one_mul] at heq
    omega
  · have hfive : 5 ∣ 2 ^ (-s.exponent).toNat := by
      rw [← hunit, ← heq]
      exact ((by decide : 5 ∣ 10).trans (dvd_pow_self 10 hk.ne')).mul_right n
    exact absurd (Nat.Prime.dvd_of_dvd_pow (by norm_num) hfive) (by decide)

/-- A quotient of one or more, between the powers of ten that its digits tell. -/
theorem pow_length_le_div {n m : Nat} (hm : 0 < m) (hle : m ≤ n) :
    10 ^ ((natText (n / m)).length - 1) * m ≤ n ∧ n < 10 ^ (natText (n / m)).length * m :=
  ⟨(Nat.le_div_iff_mul_le hm).1 (pow_length_natText_le (Nat.div_pos hle hm)),
    (Nat.div_lt_iff_lt_mul hm).1 (lt_pow_length_natText _)⟩

theorem IsProper.magnitude_spec (h : s.IsProper) :
    10 ^ (s.magnitude - 1) ≤ s.double ∧ s.double < 10 ^ s.magnitude := by
  have hvalue : 0 < s.value := by
    have := h.low_lt
    omega
  have hnumerator : 0 < s.scale 0 s.value :=
    Nat.mul_pos (Nat.mul_pos hvalue (Nat.pow_pos (by decide))) (Nat.pow_pos (by decide))
  have hunit : (0 : ℚ) < s.unit 0 := Nat.cast_pos.2 (s.unit_pos 0)
  have hdouble : s.double = s.scale 0 s.value / s.unit 0 := by
    rw [eq_div_iff hunit.ne', cast_scale, zpow_zero, div_one, double]
  rw [hdouble, le_div_iff₀ hunit, div_lt_iff₀ hunit, magnitude]
  split
  · next hle =>
    -- the double is one or more
    obtain ⟨hlow, hhigh⟩ := pow_length_le_div (s.unit_pos 0) hle
    obtain ⟨k, hk⟩ := Nat.exists_eq_succ_of_ne_zero
      (length_natText_pos (s.scale 0 s.value / s.unit 0)).ne'
    rw [hk] at hlow hhigh
    rw [← natText, hk, Nat.succ_eq_add_one, Nat.cast_succ, add_sub_cancel_right, ← Nat.cast_succ,
      zpow_natCast, zpow_natCast]
    exact ⟨by exact_mod_cast hlow, by exact_mod_cast hhigh⟩
  · next hlt =>
    -- the double is below one
    obtain ⟨hlow, hhigh⟩ := pow_length_le_div hnumerator (Nat.le_of_not_le hlt)
    obtain ⟨k, hk⟩ := Nat.exists_eq_succ_of_ne_zero
      (length_natText_pos (s.unit 0 / s.scale 0 s.value)).ne'
    rw [hk, Nat.succ_sub_one] at hlow
    rw [hk] at hhigh
    have hlow' := lt_of_le_of_ne hlow (mul_pow_ne_unit (Nat.lt_of_not_le hlt))
    have hexponent : (1 : ℤ) - (k + 1 : ℕ) = -k := by omega
    have hexponent' : -(k : ℤ) - 1 = -(k + 1 : ℕ) := by omega
    rw [← natText, hk, Nat.succ_eq_add_one, hexponent, hexponent', zpow_neg, zpow_neg,
      zpow_natCast, zpow_natCast, inv_mul_le_iff₀ (by positivity), lt_inv_mul_iff₀ (by positivity)]
    exact ⟨by exact_mod_cast hhigh.le, by exact_mod_cast hlow'⟩

end Span

end DocumentSearch.Decimal
