import DocumentSearch.Proofs.Decimal.Interval
import DocumentSearch.Proofs.Lists

/-!
# Shortest decimals

The search tries one digit, two digits, and so on, each time on the grid whose decimals have that
many digits near the double, and looks there at the two neighbours of the double only. Nothing is
missed: the interval has no gaps, so with a decimal of the grid the neighbour on its side is in it,
too; and a decimal with few digits that is not on the grid lies so far below the double that a power
of ten stands between them.

Results:

* `IsProper.isNearestOn_of_onGrid?`: what is found on a grid is nearest to the double among the
  decimals of the grid that are rounded to it.
* `IsProper.isSome_onGrid?_of_mem`: something is found where there is such a decimal.
* `IsProper.exists_mem_grid_seventeen`: with 17 digits there always is one.
* `IsProper.isShortest_shortest`: no decimal that is rounded to the double has fewer digits than the
  one that is chosen, and none with so few digits is nearer.
-/

namespace DocumentSearch.Decimal

namespace Scaled

/-! ## Zeros at the end -/

theorem value_strip (fuel : Nat) (d : Scaled) : (d.strip fuel).value = d.value := by
  induction fuel generalizing d with
  | zero => rfl
  | succ fuel ih =>
    rw [strip]
    split
    · next hzero =>
      rw [ih]
      have := value_mul_pow (d.digits / 10) 1 d.exponent
      rw [pow_one, Nat.div_mul_cancel (Nat.dvd_of_mod_eq_zero hzero)] at this
      exact this.symm
    · rfl

theorem digits_strip_le (fuel : Nat) (d : Scaled) : (d.strip fuel).digits ≤ d.digits := by
  induction fuel generalizing d with
  | zero => exact le_rfl
  | succ fuel ih =>
    rw [strip]
    split
    · exact (ih _).trans (Nat.div_le_self _ _)
    · exact le_rfl

theorem strip_pow {fuel k : Nat} (h : k ≤ fuel) (exponent : Int) :
    (mk (10 ^ k) exponent).strip fuel = ⟨1, exponent + k⟩ := by
  induction fuel generalizing k exponent with
  | zero =>
    obtain rfl : k = 0 := by omega
    simp [strip]
  | succ fuel ih =>
    cases k with
    | zero => simp [strip]
    | succ k =>
      rw [strip, if_pos (by rw [pow_succ]; omega), pow_succ, Nat.mul_div_cancel _ (by decide),
        ih (by omega)]
      congr 1
      omega

theorem length_strip_le {d : Scaled} {fuel k : Nat} (hk : 0 < k) (hfuel : k ≤ fuel)
    (h : d.digits ≤ 10 ^ k) : (natText (d.strip fuel).digits).length ≤ k := by
  refine (length_natText_le_iff hk).2 ?_
  rcases Nat.lt_or_eq_of_le h with hlt | heq
  · exact (d.digits_strip_le fuel).trans_lt hlt
  · have hd : d = ⟨10 ^ k, d.exponent⟩ := congrArg (mk · d.exponent) heq
    rw [hd, strip_pow hfuel]
    exact Nat.one_lt_pow hk.ne' (by decide)

end Scaled

namespace Span

variable {s : Span}

/-! ## Neighbours -/

theorem value_below_le (grid : Int) : Scaled.value ⟨s.below grid, grid⟩ ≤ s.double := by
  rw [← not_lt, double, ← scale_lt_mul_unit_iff, not_lt]
  exact Nat.div_mul_le_self _ _

theorem lt_value_above (grid : Int) : s.double < Scaled.value ⟨s.below grid + 1, grid⟩ := by
  rw [double, ← scale_lt_mul_unit_iff]
  exact Nat.lt_mul_of_div_lt (Nat.lt_succ_self _) (s.unit_pos grid)

section Grid

variable (h : s.IsProper) {grid : Int} {n : Nat}
include h

/-- What lies in the interval on one side of the double has the neighbour on that side before it. -/
theorem IsProper.neighbour_mem (hn : Scaled.value ⟨n, grid⟩ ∈ s.interval) :
    n ≤ s.below grid ∧ Scaled.value ⟨s.below grid, grid⟩ ∈ s.interval ∨
      s.below grid + 1 ≤ n ∧ Scaled.value ⟨s.below grid + 1, grid⟩ ∈ s.interval := by
  rcases Nat.lt_or_ge (s.below grid) n with hlt | hle
  · exact .inr ⟨hlt, s.mem_interval_of_le h.double_mem hn (lt_value_above grid).le
      (Scaled.value_le_value hlt grid)⟩
  · exact .inl ⟨hle, s.mem_interval_of_le hn h.double_mem (Scaled.value_le_value hle grid)
      (value_below_le grid)⟩

end Grid

/-! ## The nearest decimal of a grid -/

variable (s) in
/-- How far a number is from the double. -/
def distance (x : ℚ) : ℚ := |x - s.double|

section Distances

variable {grid : Int} {n : Nat}

theorem distance_of_le_below (hn : n ≤ s.below grid) :
    s.distance (Scaled.value ⟨n, grid⟩) = s.double - Scaled.value ⟨n, grid⟩ := by
  have hle := (Scaled.value_le_value hn grid).trans (value_below_le grid)
  rw [distance, abs_sub_comm, abs_of_nonneg (sub_nonneg.2 hle)]

theorem distance_of_above_le (hn : s.below grid + 1 ≤ n) :
    s.distance (Scaled.value ⟨n, grid⟩) = Scaled.value ⟨n, grid⟩ - s.double := by
  have hlt := (lt_value_above grid).trans_le (Scaled.value_le_value hn grid)
  rw [distance, abs_of_nonneg (sub_nonneg.2 hlt.le)]

/-- What the one neighbour is farther away than the other one, over the common denominator. -/
theorem distance_above_sub_distance_below (grid : Int) :
    (s.distance (Scaled.value ⟨s.below grid + 1, grid⟩) -
        s.distance (Scaled.value ⟨s.below grid, grid⟩)) * (s.unit grid / 10 ^ grid) =
      ((s.below grid + (s.below grid + 1)) * s.unit grid : ℕ) - (2 * s.scale grid s.value : ℕ) := by
  have hsum : Scaled.value ⟨s.below grid + (s.below grid + 1), grid⟩ =
      Scaled.value ⟨s.below grid, grid⟩ + Scaled.value ⟨s.below grid + 1, grid⟩ := by
    simp only [Scaled.value]
    push_cast
    ring
  rw [distance_of_le_below le_rfl, distance_of_above_le le_rfl, cast_mul_unit, hsum, Nat.cast_mul,
    cast_scale, ← double]
  ring

theorem roundsUp_spec (s : Span) (tie : Tie) (grid : Int) :
    if s.roundsUp tie grid then
      s.distance (Scaled.value ⟨s.below grid + 1, grid⟩) ≤
        s.distance (Scaled.value ⟨s.below grid, grid⟩)
    else
      s.distance (Scaled.value ⟨s.below grid, grid⟩) ≤
        s.distance (Scaled.value ⟨s.below grid + 1, grid⟩) := by
  have hdifference := s.distance_above_sub_distance_below grid
  have hratio := s.ratio_pos grid
  split
  · next hup =>
    have hle : (s.below grid + (s.below grid + 1)) * s.unit grid ≤ 2 * s.scale grid s.value := by
      unfold roundsUp at hup
      dsimp only at hup
      split at hup
      · cases hup
      · next hgt => exact (Nat.compare_eq_gt.1 hgt).le
      · next heq => exact (Nat.compare_eq_eq.1 heq).ge
    refine sub_nonpos.1 (nonpos_of_mul_nonpos_left ?_ hratio)
    rw [hdifference, sub_nonpos, Nat.cast_le]
    exact hle
  · next hdown =>
    have hle : 2 * s.scale grid s.value ≤ (s.below grid + (s.below grid + 1)) * s.unit grid := by
      unfold roundsUp at hdown
      dsimp only at hdown
      split at hdown
      · next hlt => exact (Nat.compare_eq_lt.1 hlt).le
      · exact absurd rfl hdown
      · next heq => exact (Nat.compare_eq_eq.1 heq).le
    refine sub_nonneg.1 (nonneg_of_mul_nonneg_left ?_ hratio)
    rw [hdifference, sub_nonneg, Nat.cast_le]
    exact hle

end Distances

variable (s) in
/-- Of the decimals on the grid that are rounded to the double, this one is nearest to it. -/
structure IsNearestOn (grid : Int) (d : Scaled) : Prop where
  exponent_eq : d.exponent = grid
  digits_le : d.digits ≤ s.below grid + 1
  value_mem : d.value ∈ s.interval
  distance_le : ∀ n, Scaled.value ⟨n, grid⟩ ∈ s.interval →
    s.distance d.value ≤ s.distance (Scaled.value ⟨n, grid⟩)

section Grid

variable (h : s.IsProper) {grid : Int}
include h

theorem IsProper.isNearestOn_below (hbelow : Scaled.value ⟨s.below grid, grid⟩ ∈ s.interval)
    (hcloser : Scaled.value ⟨s.below grid + 1, grid⟩ ∈ s.interval →
      s.distance (Scaled.value ⟨s.below grid, grid⟩) ≤
        s.distance (Scaled.value ⟨s.below grid + 1, grid⟩)) :
    s.IsNearestOn grid ⟨s.below grid, grid⟩ := by
  refine ⟨rfl, Nat.le_succ _, hbelow, fun n hn => ?_⟩
  rcases h.neighbour_mem hn with ⟨hle, -⟩ | ⟨hle, habove⟩
  · rw [distance_of_le_below le_rfl, distance_of_le_below hle]
    exact sub_le_sub_left (Scaled.value_le_value hle grid) _
  · refine (hcloser habove).trans ?_
    rw [distance_of_above_le le_rfl, distance_of_above_le hle]
    exact sub_le_sub_right (Scaled.value_le_value hle grid) _

theorem IsProper.isNearestOn_above (habove : Scaled.value ⟨s.below grid + 1, grid⟩ ∈ s.interval)
    (hcloser : Scaled.value ⟨s.below grid, grid⟩ ∈ s.interval →
      s.distance (Scaled.value ⟨s.below grid + 1, grid⟩) ≤
        s.distance (Scaled.value ⟨s.below grid, grid⟩)) :
    s.IsNearestOn grid ⟨s.below grid + 1, grid⟩ := by
  refine ⟨rfl, le_rfl, habove, fun n hn => ?_⟩
  rcases h.neighbour_mem hn with ⟨hle, hbelow⟩ | ⟨hle, -⟩
  · refine (hcloser hbelow).trans ?_
    rw [distance_of_le_below le_rfl, distance_of_le_below hle]
    exact sub_le_sub_left (Scaled.value_le_value hle grid) _
  · rw [distance_of_above_le le_rfl, distance_of_above_le hle]
    exact sub_le_sub_right (Scaled.value_le_value hle grid) _

theorem IsProper.isNearestOn_of_onGrid? {tie : Tie} {d : Scaled}
    (hd : s.onGrid? tie grid = some d) : s.IsNearestOn grid d := by
  unfold onGrid? at hd
  dsimp only at hd
  split at hd
  · next hbelow habove =>
    cases hd
    rw [contains_iff] at hbelow habove
    have hcloser := s.roundsUp_spec tie grid
    split at hcloser
    · next hup =>
      rw [if_pos hup]
      exact h.isNearestOn_above habove fun _ => hcloser
    · next hdown =>
      rw [if_neg hdown]
      exact h.isNearestOn_below hbelow fun _ => hcloser
  · next hbelow habove =>
    cases hd
    rw [contains_iff] at hbelow
    rw [← Bool.not_eq_true, contains_iff] at habove
    exact h.isNearestOn_below hbelow fun hmem => absurd hmem habove
  · next hbelow habove =>
    cases hd
    rw [← Bool.not_eq_true, contains_iff] at hbelow
    rw [contains_iff] at habove
    exact h.isNearestOn_above habove fun hmem => absurd hmem hbelow
  · cases hd

/-- Where a decimal of the grid is rounded to the double, one of the neighbours is. -/
theorem IsProper.isSome_onGrid?_of_mem (tie : Tie) {n : Nat}
    (hn : Scaled.value ⟨n, grid⟩ ∈ s.interval) : (s.onGrid? tie grid).isSome = true := by
  unfold onGrid?
  dsimp only
  rcases h.neighbour_mem hn with ⟨-, hmem⟩ | ⟨-, hmem⟩ <;> rw [← contains_iff] at hmem <;> rw [hmem]
  · cases s.contains grid (s.below grid + 1) <;> rfl
  · cases s.contains grid (s.below grid) <;> rfl

end Grid

/-! ## The search -/

/-- A decimal that is rounded to the double has a decimal on the grid with as many digits as it has,
which is rounded to the double, too, and no farther away. -/
theorem IsProper.exists_mem_grid (h : s.IsProper) {d : Scaled} (hd : d.value ∈ s.interval) {k : Nat}
    (hk : 0 < k) (hlt : d.digits < 10 ^ k) :
    ∃ n, Scaled.value ⟨n, s.magnitude - k⟩ ∈ s.interval ∧
      s.distance (Scaled.value ⟨n, s.magnitude - k⟩) ≤ s.distance d.value := by
  rcases le_or_gt (s.magnitude - k) d.exponent with hle | hgt
  · -- the decimal lies on the grid itself
    obtain ⟨j, hj⟩ := Int.le.dest hle
    have hvalue : Scaled.value ⟨d.digits * 10 ^ j, s.magnitude - k⟩ = d.value := by
      rw [Scaled.value_mul_pow, hj]
    exact ⟨d.digits * 10 ^ j, hvalue ▸ hd, (congrArg s.distance hvalue).le⟩
  · -- it lies below the power of ten that is next below the double
    have hpower : Scaled.value ⟨1 * 10 ^ (k - 1), s.magnitude - k⟩ = 10 ^ (s.magnitude - 1) := by
      have hexponent : s.magnitude - k + (k - 1 : ℕ) = s.magnitude - 1 := by omega
      rw [Scaled.value_mul_pow, hexponent, Scaled.value, Nat.cast_one, one_mul]
    have hle : d.value ≤ 10 ^ (s.magnitude - 1) :=
      (Scaled.value_lt_pow hlt).le.trans (zpow_le_zpow_right₀ (by norm_num) (by omega))
    have hdouble := h.magnitude_spec.1
    refine ⟨1 * 10 ^ (k - 1), ?_, ?_⟩ <;> rw [hpower]
    · exact s.mem_interval_of_le hd h.double_mem hle hdouble
    · rw [distance, distance, abs_sub_comm, abs_sub_comm d.value,
        abs_of_nonneg (sub_nonneg.2 hdouble), abs_of_nonneg (sub_nonneg.2 (hle.trans hdouble))]
      exact sub_le_sub_left hle _

/-- The grid of the decimals with 17 digits is finer than the interval is wide. -/
theorem IsProper.exists_mem_grid_seventeen (h : s.IsProper) :
    ∃ n, Scaled.value ⟨n, s.magnitude - 17⟩ ∈ s.interval := by
  by_contra! hnone
  have hlow : Scaled.value ⟨s.below (s.magnitude - 17), s.magnitude - 17⟩ ≤ s.point s.low :=
    le_of_not_gt fun hlt => hnone _ <|
      mem_interval_of_lt hlt ((value_below_le _).trans_lt h.lt_point_high)
  have hhigh : s.point s.high ≤ Scaled.value ⟨s.below (s.magnitude - 17) + 1, s.magnitude - 17⟩ :=
    le_of_not_gt fun hlt => hnone _ <|
      mem_interval_of_lt (h.point_low_lt.trans (lt_value_above _)) hlt
  have hstep : Scaled.value ⟨s.below (s.magnitude - 17) + 1, s.magnitude - 17⟩ =
      Scaled.value ⟨s.below (s.magnitude - 17), s.magnitude - 17⟩ + 10 ^ (s.magnitude - 17) := by
    simp only [Scaled.value]
    push_cast
    ring
  have hmagnitude : (10 : ℚ) ^ 16 * 10 ^ (s.magnitude - 17) ≤ s.double := by
    refine le_of_eq_of_le ?_ h.magnitude_spec.1
    rw [← zpow_natCast, ← zpow_add₀ (by norm_num)]
    congr 1
    omega
  have hwidth := h.double_lt_width
  linarith

variable (s) in
/-- Of the decimals that are rounded to the double none has fewer digits than this one, and of those
with at most as many none is nearer to the double. -/
structure IsShortest (d : Scaled) : Prop where
  value_mem : d.value ∈ s.interval
  length_le : ∀ d' : Scaled, d'.value ∈ s.interval →
    (natText d.digits).length ≤ (natText d'.digits).length
  distance_le : ∀ d' : Scaled, d'.value ∈ s.interval →
    (natText d'.digits).length ≤ (natText d.digits).length →
    s.distance d.value ≤ s.distance d'.value

theorem IsProper.below_lt_pow (h : s.IsProper) {k : Nat} : s.below (s.magnitude - k) < 10 ^ k := by
  have hlt := (value_below_le (s.magnitude - k)).trans_lt h.magnitude_spec.2
  have hpow : (10 : ℚ) ^ s.magnitude = 10 ^ k * 10 ^ (s.magnitude - k) := by
    rw [← zpow_natCast, ← zpow_add₀ (by norm_num)]
    congr 1
    omega
  rw [hpow, Scaled.value] at hlt
  exact_mod_cast lt_of_mul_lt_mul_right hlt (by positivity)

theorem IsProper.isShortest_strip (h : s.IsProper) {tie : Tie} {k : Nat} (hk : 0 < k) (hle : k ≤ 17)
    {d : Scaled} (hd : s.onGrid? tie (s.magnitude - k) = some d)
    (hcoarser : ∀ j, 0 < j → j < k → s.onGrid? tie (s.magnitude - j) = none) :
    s.IsShortest (d.strip 17) := by
  have hnearest := h.isNearestOn_of_onGrid? hd
  have hlength : (natText (d.strip 17).digits).length ≤ k :=
    Scaled.length_strip_le hk hle (hnearest.digits_le.trans h.below_lt_pow)
  refine ⟨by rw [Scaled.value_strip]; exact hnearest.value_mem, fun d' hd' => ?_,
    fun d' hd' hshort => ?_⟩
  · -- a decimal with fewer digits would have been found on its grid
    refine hlength.trans (Nat.le_of_not_lt fun hlt => ?_)
    obtain ⟨n, hn, -⟩ := h.exists_mem_grid hd' (length_natText_pos _) (lt_pow_length_natText _)
    have hfound := h.isSome_onGrid?_of_mem tie hn
    rw [hcoarser _ (length_natText_pos _) hlt] at hfound
    cases hfound
  · obtain ⟨n, hn, hdistance⟩ := h.exists_mem_grid hd' hk <|
      (lt_pow_length_natText _).trans_le (Nat.pow_le_pow_right (by decide) (hshort.trans hlength))
    rw [Scaled.value_strip]
    exact (hnearest.distance_le n hn).trans hdistance

theorem IsProper.isShortest_shortest (h : s.IsProper) (tie : Tie) :
    s.IsShortest (s.shortest tie) := by
  unfold shortest
  split
  · next d hd =>
    obtain ⟨i, hi, hfound, hearlier⟩ := findSome?_range_eq_some hd
    refine h.isShortest_strip (Nat.succ_pos i) hi (by exact_mod_cast hfound) fun j hj hlt => ?_
    obtain ⟨j, rfl⟩ := Nat.exists_eq_succ_of_ne_zero hj.ne'
    exact_mod_cast hearlier j (by omega)
  · next hnone =>
    obtain ⟨n, hn⟩ := h.exists_mem_grid_seventeen
    have hfound := h.isSome_onGrid?_of_mem tie hn
    have := List.findSome?_eq_none_iff.1 hnone 16 (by simp)
    rw [show s.magnitude - 17 = s.magnitude - ((16 : ℕ) + 1) by norm_num, this] at hfound
    cases hfound

end Span

end DocumentSearch.Decimal
