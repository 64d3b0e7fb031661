import DocumentSearch.Proofs.Search.Score

/-!
# Doubles as scores

A double is unpacked into a sign, a mantissa and an exponent; sums and products are exact, are
rounded and packed again. Rounding keeps at least one digit of a number that is not below the least
positive double, so nothing that is added up or counted here is lost to zero. A count is at least
one, and of the factors below one none is so small that it halves the least positive double.

Results:

* `isCanonical_of_unpack_eq`, `IsCanonical.unpack_pack`: which numbers doubles are unpacked to, and
  that packing keeps them.
* `isPositive_iff`: a score is positive iff it is unpacked to a positive number or to infinity.
* `IsPackable.isPositive`: a positive number that fits into a double is packed to a positive score.
* `isPackable_roundWithAccuracy`: rounding a positive number makes it fit.
* `isAtLeastOne_ofNat`: however a count is rounded, it stays at least one.
* `IsPackable.mul_fraction`: when a factor below one takes no positive double to zero.
* the instances: doubles obey the laws of points, of counts and of weights.
-/

namespace DocumentSearch

namespace Double

open Float.Model Float.Model.UnpackedFloat

/-! ## Unpacking -/

/-- The number is above zero. -/
inductive IsAbove : UnpackedFloat → Prop where
  | infinity : IsAbove (.infinity .positive)
  | finite {m : Nat} {e : Int} (hm : 0 < m) : IsAbove (.finite .positive m e hm)

/-- The number is above zero, and a double can hold it. -/
inductive IsPackable : UnpackedFloat → Prop where
  | infinity : IsPackable (.infinity .positive)
  | finite {m : Nat} {e : Int} (hm : 0 < m) (hlt : m < 2 ^ 53) (he : -1074 ≤ e) :
      IsPackable (.finite .positive m e hm)

/-- The number is one or more, with all the digits that a double can hold. -/
inductive IsAtLeastOne : UnpackedFloat → Prop where
  | infinity : IsAtLeastOne (.infinity .positive)
  | finite {m : Nat} {e : Int} (hm : 0 < m) (hle : 2 ^ 52 ≤ m) (hlt : m < 2 ^ 53) (he : -52 ≤ e) :
      IsAtLeastOne (.finite .positive m e hm)

theorem IsAtLeastOne.isAbove {u : UnpackedFloat} (h : IsAtLeastOne u) : IsAbove u := by
  cases h with
  | infinity => exact .infinity
  | finite hm => exact .finite hm

theorem zero_lt_iff {u : UnpackedFloat} : (zero .positive).lt u = true ↔ IsAbove u := by
  constructor
  · intro h
    unfold UnpackedFloat.lt at h
    cases u with
    | infinity s => cases s <;> simp [UnpackedFloat.compare] at h; exact .infinity
    | notANumber | zero => simp [UnpackedFloat.compare] at h
    | finite s m e hm => cases s <;> simp [UnpackedFloat.compare] at h; exact .finite hm
  · rintro (_ | _) <;> rfl

theorem isPositive_iff {x : Float} :
    Score.isPositive x = true ↔ IsAbove x.toModel.unpack := by
  show decide (Float.lt 0 x = true) = true ↔ _
  rw [decide_eq_true_iff, Float.lt, decide_eq_true_iff]
  exact zero_lt_iff

/-- A mantissa and an exponent that go together: all the digits are there, unless the exponent is
the least one. -/
structure IsCanonical (m : Nat) (e : Int) : Prop where
  lt : m < 2 ^ 53
  le : -1074 ≤ e
  full : 2 ^ 52 ≤ m ∨ e = -1074

/-- The greatest digit is not stored. -/
theorem toNat_append (mantissa : BitVec 52) :
    (1#1 ++ mantissa).toNat = 2 ^ 52 + mantissa.toNat := by
  rw [BitVec.toNat_append, ← Nat.shiftLeft_add_eq_or_of_lt mantissa.isLt]
  rfl

/-- The numbers that doubles are unpacked to. -/
theorem isCanonical_of_unpack_eq {x : Float.Model} {s : Sign} {m : Nat} {e : Int} {hm : 0 < m}
    (h : x.unpack = .finite s m e hm) : IsCanonical m e ∧ e ≤ 971 := by
  have hmantissa : (@unpackMantissa .binary64 x.toBits.toBitVec).toNat < 2 ^ 52 :=
    BitVec.isLt _
  simp only [Float.Model.unpack, UnpackedFloat.unpack] at h
  split at h
  · split at h <;> cases h
  · next hlarge =>
    split at h
    · split at h
      · cases h
      · next hzero _ =>
        simp only [UnpackedFloat.finite.injEq] at h
        obtain ⟨-, rfl, rfl⟩ := h
        rw [hzero]
        exact ⟨⟨by omega, by decide, .inr (by decide)⟩, by decide⟩
    · next hne =>
      simp only [UnpackedFloat.finite.injEq] at h
      obtain ⟨-, rfl, rfl⟩ := h
      have hpos : (@unpackExponent .binary64 x.toBits.toBitVec).toNat ≠ 0 :=
        fun h0 => hne (BitVec.eq_of_toNat_eq h0)
      have hlt : (@unpackExponent .binary64 x.toBits.toBitVec).toNat < 2 ^ 11 := BitVec.isLt _
      have hlast : (@unpackExponent .binary64 x.toBits.toBitVec).toNat ≠ 2047 :=
        fun h0 => hlarge (BitVec.eq_of_toNat_eq h0)
      have happend := toNat_append (@unpackMantissa .binary64 x.toBits.toBitVec)
      simp only [Format.exponentBias]
      exact ⟨⟨by omega, by omega, .inl (by omega)⟩, by omega⟩

theorem IsAbove.isPackable {x : Float.Model} (h : IsAbove x.unpack) : IsPackable x.unpack := by
  cases hx : x.unpack with
  | infinity s =>
    rw [hx] at h
    cases h
    exact .infinity
  | notANumber | zero => rw [hx] at h; cases h
  | finite s m e hm =>
    have hcanonical := (isCanonical_of_unpack_eq hx).1
    rw [hx] at h
    cases h
    exact .finite hm hcanonical.lt hcanonical.le

/-! ## Packing -/

theorem two_pow_le_toNat_append (mantissa : BitVec 52) : 2 ^ 52 ≤ (1#1 ++ mantissa).toNat := by
  rw [toNat_append]
  exact Nat.le_add_right _ _

theorem unpack_packComponents (s : Sign) (exponent : BitVec 11) (mantissa : BitVec 52) :
    UnpackedFloat.unpack .binary64 (packComponents .binary64 s exponent mantissa) =
      if exponent = -1#11 then if mantissa = 0#52 then .infinity s else .notANumber
      else if exponent = 0#11 then
        if h : mantissa = 0#52 then .zero s
        else .finite s mantissa.toNat (exponent.toNat - 1075 + 1)
          (Nat.pos_of_ne_zero fun h0 => h (BitVec.eq_of_toNat_eq h0))
      else .finite s (1#1 ++ mantissa).toNat (exponent.toNat - 1075)
        (Nat.lt_of_lt_of_le (by decide) (two_pow_le_toNat_append mantissa)) := by
  have hsign : Sign.ofBitVec (unpackSign (packComponents .binary64 s exponent mantissa)) = s := by
    rw [unpackSign_packComponents]
    cases s <;> rfl
  rw [UnpackedFloat.unpack]
  simp only [unpackExponent_packComponents, unpackMantissa_packComponents, hsign]
  rfl

theorem isAbove_unpack_packComponents {exponent : BitVec 11} {mantissa : BitVec 52}
    (hnan : exponent = -1#11 → mantissa = 0#52) (hzero : exponent = 0#11 → mantissa ≠ 0#52) :
    IsAbove (UnpackedFloat.unpack .binary64
      (packComponents .binary64 .positive exponent mantissa)) := by
  rw [unpack_packComponents]
  split
  · next h =>
    rw [if_pos (hnan h)]
    exact .infinity
  · split
    · next h =>
      rw [dif_neg (hzero h)]
      exact .finite _
    · exact .finite _

/-- What a finite number is packed to: infinity, a number with all its digits, or one with fewer. -/
theorem pack_finite_eq (s : Sign) {m : Nat} {e : Int} (hm : 0 < m) (he : -1074 ≤ e) :
    UnpackedFloat.pack .binary64 (.finite s m e hm) =
      if 971 < e then packComponents .binary64 s (-1#11) 0#52
      else if m.log2 = 52 then
        packComponents .binary64 s (BitVec.ofNat 11 (e + 1075).toNat) (BitVec.ofNat 52 m)
      else packComponents .binary64 s 0#11 (BitVec.ofNat 52 m) := by
  have hbias : e + (Format.binary64.exponentBias : Int) +
      Format.binary64.mantissaBitsWithoutImplicit = e + 1075 := by
    simp only [Format.exponentBias]
    omega
  have hlarge : 2 ^ 11 ≤ (e + 1075).toNat + 1 ↔ 971 < e := by omega
  have hfull : m.log2 + 1 = 53 ↔ m.log2 = 52 := by omega
  simp only [UnpackedFloat.pack, hbias]
  change (if 2 ^ 11 ≤ (e + 1075).toNat + 1 then _ else if m.log2 + 1 = 53 then _ else _) = _
  simp only [hlarge, hfull]
  rfl

theorem toNat_ofNat_exponent {e : Int} (he : -1074 ≤ e) (hsmall : ¬ 971 < e) :
    (BitVec.ofNat 11 (e + 1075).toNat).toNat = (e + 1075).toNat := by
  rw [BitVec.toNat_ofNat]
  omega

theorem ofNat_exponent_ne {e : Int} (he : -1074 ≤ e) (hsmall : ¬ 971 < e) :
    BitVec.ofNat 11 (e + 1075).toNat ≠ -1#11 ∧ BitVec.ofNat 11 (e + 1075).toNat ≠ 0#11 := by
  have hexponent := toNat_ofNat_exponent he hsmall
  refine ⟨fun heq => ?_, fun heq => ?_⟩ <;> rw [heq] at hexponent
  · change 2047 = _ at hexponent
    omega
  · change 0 = _ at hexponent
    omega

/-- A finite number is unpacked to what it was packed from, if it is not too large. -/
theorem IsCanonical.unpack_pack {m : Nat} {e : Int} (h : IsCanonical m e) (s : Sign) (hm : 0 < m) :
    (pack (.finite s m e hm)).unpack = if 971 < e then .infinity s else .finite s m e hm := by
  have hlt := h.lt
  have hle := h.le
  show UnpackedFloat.unpack .binary64 (UnpackedFloat.pack .binary64 _) = _
  rw [pack_finite_eq s hm hle]
  split
  · rw [unpack_packComponents, if_pos rfl, if_pos rfl]
  · next hsmall =>
    split
    · next hlog =>
      obtain ⟨hne, hne'⟩ := ofNat_exponent_ne hle hsmall
      have hfull := ((Nat.log2_eq_iff (Nat.ne_of_gt hm)).1 hlog).1
      have hmantissa : (1#1 ++ BitVec.ofNat 52 m).toNat = m := by
        rw [toNat_append, BitVec.toNat_ofNat]
        omega
      simp only [unpack_packComponents, if_neg hne, if_neg hne', hmantissa,
        toNat_ofNat_exponent hle hsmall, UnpackedFloat.finite.injEq, true_and]
      omega
    · next hlog =>
      have hfull : m < 2 ^ 52 := by
        have hlog' := (Nat.log2_lt (Nat.ne_of_gt hm)).2 hlt
        exact (Nat.log2_lt (Nat.ne_of_gt hm)).1 (by omega)
      have hmantissa : (BitVec.ofNat 52 m).toNat = m := by
        rw [BitVec.toNat_ofNat, Nat.mod_eq_of_lt hfull]
      have hne : BitVec.ofNat 52 m ≠ 0#52 := by
        intro heq
        rw [heq] at hmantissa
        exact Nat.ne_of_lt hm hmantissa
      have hleast := h.full.resolve_left (Nat.not_le_of_lt hfull)
      have hne' : (0#11 : BitVec 11) ≠ -1#11 := by decide
      simp only [unpack_packComponents, if_neg hne', if_true, dif_neg hne, hmantissa,
        UnpackedFloat.finite.injEq, true_and, hleast]
      decide

theorem isAbove_unpack_pack_finite {m : Nat} {e : Int} (hm : 0 < m) (hlt : m < 2 ^ 53)
    (he : -1074 ≤ e) : IsAbove (pack (.finite .positive m e hm)).unpack := by
  show IsAbove (UnpackedFloat.unpack .binary64 (UnpackedFloat.pack .binary64 _))
  rw [pack_finite_eq .positive hm he]
  split
  · exact isAbove_unpack_packComponents (fun _ => rfl) (by decide)
  · next hsmall =>
    split
    · obtain ⟨hne, hne'⟩ := ofNat_exponent_ne he hsmall
      exact isAbove_unpack_packComponents (fun h => absurd h hne) fun h => absurd h hne'
    · next hlog =>
      refine isAbove_unpack_packComponents (fun h => absurd h (by decide)) fun _ h => ?_
      have hm52 : m < 2 ^ 52 := by
        have h53 := (Nat.log2_lt (Nat.ne_of_gt hm)).2 hlt
        exact (Nat.log2_lt (Nat.ne_of_gt hm)).1 (by omega)
      have hmantissa := congrArg BitVec.toNat h
      rw [BitVec.toNat_ofNat, Nat.mod_eq_of_lt hm52] at hmantissa
      change m = 0 at hmantissa
      omega

theorem unpack_pack_infinity (s : Sign) : (pack (.infinity s)).unpack = .infinity s := by
  cases s <;> rfl

/-- Packing takes no number below one. -/
theorem IsAtLeastOne.unpack_pack {u : UnpackedFloat} (h : IsAtLeastOne u) :
    IsAtLeastOne (pack u).unpack := by
  cases h with
  | infinity =>
    rw [unpack_pack_infinity]
    exact .infinity
  | @finite m e hm hle hlt he =>
    have hcanonical : IsCanonical m e := ⟨hlt, by omega, .inl hle⟩
    rw [hcanonical.unpack_pack]
    split
    · exact .infinity
    · exact .finite hm hle hlt he

theorem IsPackable.isPositive {u : UnpackedFloat} (h : IsPackable u) {x : Float}
    (hx : x.toModel = pack u) : Score.isPositive x = true := by
  rw [isPositive_iff, hx]
  cases h with
  | infinity =>
    rw [unpack_pack_infinity]
    exact .infinity
  | finite hm hlt he => exact isAbove_unpack_pack_finite hm hlt he

theorem pack_unpack (x : Float.Model) : pack x.unpack = x := by
  obtain ⟨bits, hvalid⟩ := x
  have h : UnpackedFloat.pack .binary64 (UnpackedFloat.unpack .binary64 bits.toBitVec) =
      bits.toBitVec := pack_unpack_of_valid hvalid
  simp only [Float.Model.pack, Float.Model.unpack, h]

theorem unpack_neg (x : Float.Model) : (-x).unpack = x.unpack.neg := by
  show (pack x.unpack.neg).unpack = _
  cases hx : x.unpack with
  | notANumber => rfl
  | infinity s => exact unpack_pack_infinity _
  | zero s => cases s <;> rfl
  | finite s m e hm =>
    obtain ⟨hcanonical, hlt⟩ := isCanonical_of_unpack_eq hx
    show (pack (.finite (-s) m e hm)).unpack = .finite (-s) m e hm
    rw [hcanonical.unpack_pack, if_neg (Int.not_lt.2 hlt)]

theorem neg_neg_model (x : Float.Model) : -(-x) = x := by
  have h : x.unpack.neg.neg = x.unpack := by
    cases x.unpack with
    | notANumber => rfl
    | infinity s | zero s | finite s => cases s <;> rfl
  show pack (-x).unpack.neg = x
  rw [unpack_neg, h, pack_unpack]

/-! ## Rounding -/

theorem mantissa_shiftRight (em : ExtendedMantissa) (k : Nat) :
    (em >>> k).mantissa = em.mantissa / 2 ^ k := by
  induction k with
  | zero =>
    rw [Nat.pow_zero, Nat.div_one]
    rfl
  | succ k ih =>
    have hstep : (em >>> (k + 1)).mantissa = (em >>> k).mantissa / 2 := rfl
    rw [hstep, ih, Nat.div_div_eq_div_mul, Nat.pow_succ]

theorem mantissa_le_roundedMantissa (em : ExtendedMantissa) :
    em.mantissa ≤ em.roundedMantissa := by
  obtain ⟨m, round, sticky⟩ := em
  cases round <;> cases sticky <;>
    simp [ExtendedMantissa.roundedMantissa, ExtendedMantissa.accuracy,
      Accuracy.roundToNearestEven]

/-- How many digits too many a number has for a double. -/
def excess (m : Nat) (e : Int) : Nat := (max (m.log2 + 1 + e - 53) (-1074) - e).toNat

theorem shiftToTargetExponent_eq (m : Nat) (e : Int) :
    let shifted := shiftToTargetExponent .binary64 m e .exact
    shifted.1.mantissa = m / 2 ^ excess m e ∧ shifted.2 = e + excess m e :=
  ⟨mantissa_shiftRight _ _, rfl⟩

/-- A number not below the least positive double keeps a digit when it is cut to fit. -/
theorem shiftToTargetExponent_spec {m : Nat} {e : Int} (hm : 0 < m) (h : -1074 ≤ m.log2 + e) :
    let shifted := shiftToTargetExponent .binary64 m e .exact
    0 < shifted.1.mantissa ∧ shifted.1.mantissa < 2 ^ 53 ∧ -1074 ≤ shifted.2 := by
  obtain ⟨hmantissa, hexponent⟩ := shiftToTargetExponent_eq m e
  dsimp only
  rw [hmantissa, hexponent]
  generalize hk : excess m e = k
  rw [excess] at hk
  refine ⟨?_, ?_, by omega⟩
  · exact Nat.div_pos ((Nat.le_log2 (Nat.ne_of_gt hm)).1 (by omega)) (Nat.two_pow_pos k)
  · rw [Nat.div_lt_iff_lt_mul (Nat.two_pow_pos k), ← Nat.pow_add]
    exact (Nat.log2_lt (Nat.ne_of_gt hm)).1 (by omega)

/-- A number with all the digits that is not below one keeps them when it is cut to fit. -/
theorem shiftToTargetExponent_of_two_pow_le {m : Nat} {e : Int} (hle : 2 ^ 52 ≤ m)
    (h : 0 ≤ m.log2 + e) :
    let shifted := shiftToTargetExponent .binary64 m e .exact
    2 ^ 52 ≤ shifted.1.mantissa ∧ shifted.1.mantissa < 2 ^ 53 ∧ -52 ≤ shifted.2 := by
  have hlog : 52 ≤ m.log2 := (Nat.le_log2 (by omega)).2 hle
  obtain ⟨-, hlt, -⟩ := shiftToTargetExponent_spec (m := m) (e := e) (by omega) (by omega)
  obtain ⟨hmantissa, hexponent⟩ := shiftToTargetExponent_eq m e
  refine ⟨?_, hlt, ?_⟩
  · rw [hmantissa, Nat.le_div_iff_mul_le (Nat.two_pow_pos _), ← Nat.pow_add]
    refine (Nat.le_log2 (by omega)).1 ?_
    rw [excess]
    omega
  · rw [hexponent, excess]
    omega

theorem isPackable_roundWithAccuracy {m : Nat} {e : Int} (hm : 0 < m) (h : -1074 ≤ m.log2 + e) :
    IsPackable (roundWithAccuracy .binary64 .positive m e .exact) := by
  obtain ⟨hpos, -, he⟩ := shiftToTargetExponent_spec hm h
  rw [roundWithAccuracy]
  generalize shiftToTargetExponent .binary64 m e .exact = shifted at hpos he
  obtain ⟨em, e'⟩ := shifted
  dsimp only at hpos he
  have hle := mantissa_le_roundedMantissa em
  obtain ⟨hpos', hlt', he'⟩ := shiftToTargetExponent_spec (m := em.roundedMantissa) (e := e')
    (by omega) (by omega)
  dsimp only
  rw [dif_neg (Nat.ne_of_gt hpos')]
  exact .finite _ hlt' he'

theorem isAtLeastOne_roundWithAccuracy {m : Nat} {e : Int} (hle : 2 ^ 52 ≤ m)
    (h : 0 ≤ m.log2 + e) : IsAtLeastOne (roundWithAccuracy .binary64 .positive m e .exact) := by
  obtain ⟨hle₁, -, he₁⟩ := shiftToTargetExponent_of_two_pow_le hle h
  rw [roundWithAccuracy]
  generalize shiftToTargetExponent .binary64 m e .exact = shifted at hle₁ he₁
  obtain ⟨em, e'⟩ := shifted
  dsimp only at hle₁ he₁
  have hle' := hle₁.trans (mantissa_le_roundedMantissa em)
  have hlog : 52 ≤ em.roundedMantissa.log2 := (Nat.le_log2 (by omega)).2 hle'
  obtain ⟨hle₂, hlt₂, he₂⟩ := shiftToTargetExponent_of_two_pow_le (e := e') hle' (by omega)
  dsimp only
  rw [dif_neg (by omega)]
  exact .finite _ hle₂ hlt₂ he₂

theorem log2_add_log2_le {m n : Nat} (hm : 0 < m) (hn : 0 < n) :
    m.log2 + n.log2 ≤ (m * n).log2 := by
  rw [Nat.le_log2 (Nat.ne_of_gt (Nat.mul_pos hm hn)), Nat.pow_add]
  exact Nat.mul_le_mul (Nat.log2_self_le (Nat.ne_of_gt hm)) (Nat.log2_self_le (Nat.ne_of_gt hn))

/-- How many digits a number lacks for a double. -/
def lack (m : Nat) (e : Int) : Nat := (e - max (m.log2 + 1 + e - 53) (-1074)).toNat

theorem normalize_eq {m : Nat} (hm : 0 < m) (e : Int) (s : Sign) :
    UnpackedFloat.normalize .binary64 m e s =
      roundWithAccuracy .binary64 .positive (m * 2 ^ lack m e) (e - lack m e) .exact := by
  have hgt : compare (m : Int) 0 = .gt := by
    rw [Int.compare_eq_gt]
    omega
  unfold UnpackedFloat.normalize
  rw [hgt, Int.toNat_natCast, ← Nat.shiftLeft_eq]
  rfl

theorem isPackable_normalize {m : Nat} {e : Int} (hm : 0 < m) (he : -1074 ≤ e) (s : Sign) :
    IsPackable (UnpackedFloat.normalize .binary64 m e s) := by
  have hlog := log2_add_log2_le hm (Nat.two_pow_pos (lack m e))
  rw [Nat.log2_two_pow] at hlog
  rw [normalize_eq hm]
  exact isPackable_roundWithAccuracy (Nat.mul_pos hm (Nat.two_pow_pos _)) (by omega)

theorem isAtLeastOne_normalize {n : Nat} (hn : 0 < n) (s : Sign) :
    IsAtLeastOne (UnpackedFloat.normalize .binary64 n 0 s) := by
  have hlog := log2_add_log2_le hn (Nat.two_pow_pos (lack n 0))
  rw [Nat.log2_two_pow] at hlog
  have hlack : 52 ≤ n.log2 + lack n 0 := by
    rw [lack]
    omega
  rw [normalize_eq hn]
  have hpos := Nat.mul_pos hn (Nat.two_pow_pos (lack n 0))
  exact isAtLeastOne_roundWithAccuracy ((Nat.le_log2 (Nat.ne_of_gt hpos)).1 (by omega)) (by omega)

/-! ## Arithmetic -/

theorem IsPackable.add {u v : UnpackedFloat} (hu : IsPackable u) (hv : IsPackable v) :
    IsPackable (UnpackedFloat.add .binary64 u v) := by
  cases hu with
  | infinity => cases hv <;> exact .infinity
  | @finite m₁ e₁ hm₁ hlt₁ he₁ =>
    cases hv with
    | infinity => exact .infinity
    | @finite m₂ e₂ hm₂ hlt₂ he₂ =>
      rw [UnpackedFloat.add]
      simp only [decreaseExponent, Sign.apply, Nat.shiftLeft_eq]
      have hpos := Nat.mul_pos hm₁ (Nat.two_pow_pos (e₁ - min e₁ e₂).toNat)
      rw [← Int.natCast_add]
      exact isPackable_normalize (by omega) (by omega) _

/-- The second factor is not below one. -/
theorem IsPackable.mul {u : UnpackedFloat} (hu : IsPackable u) {m : Nat} {e : Int} (hm : 0 < m)
    (h : 0 ≤ m.log2 + e) :
    IsPackable (UnpackedFloat.mul .binary64 u (.finite .positive m e hm)) := by
  cases hu with
  | infinity => exact .infinity
  | finite hm' hlt' he' =>
    have hlog := log2_add_log2_le hm' hm
    exact isPackable_roundWithAccuracy (Nat.mul_pos hm' hm) (by omega)

theorem isPositive_mul {x y : Float} (hx : Score.isPositive x = true) {m : Nat} {e : Int}
    (hm : 0 < m) (hy : y.toModel.unpack = .finite .positive m e hm) (h : 0 ≤ m.log2 + e) :
    Score.isPositive (x * y) = true := by
  refine ((isPositive_iff.1 hx).isPackable.mul hm h).isPositive ?_
  rw [← hy]
  rfl

/-- The first factor is not below one. -/
theorem IsAtLeastOne.mul_packable {u v : UnpackedFloat} (hu : IsAtLeastOne u)
    (hv : IsPackable v) : IsPackable (UnpackedFloat.mul .binary64 u v) := by
  cases hu with
  | infinity => cases hv <;> exact .infinity
  | finite hm hle _ he =>
    cases hv with
    | infinity => exact .infinity
    | finite hm' _ he' =>
      have hlog := log2_add_log2_le hm hm'
      have h52 := (Nat.le_log2 (Nat.ne_of_gt hm)).2 hle
      exact isPackable_roundWithAccuracy (Nat.mul_pos hm hm') (by omega)

theorem IsAtLeastOne.mul {u v : UnpackedFloat} (hu : IsAtLeastOne u) (hv : IsAtLeastOne v) :
    IsAtLeastOne (UnpackedFloat.mul .binary64 u v) := by
  cases hu with
  | infinity => cases hv <;> exact .infinity
  | finite hm hle _ he =>
    cases hv with
    | infinity => exact .infinity
    | finite hm' hle' _ he' =>
      have hlog := log2_add_log2_le hm hm'
      have h52 := (Nat.le_log2 (Nat.ne_of_gt hm)).2 hle
      have h52' := (Nat.le_log2 (Nat.ne_of_gt hm')).2 hle'
      exact isAtLeastOne_roundWithAccuracy (hle.trans (Nat.le_mul_of_pos_right _ hm')) (by omega)

/-- The second factor is between a half and one. It takes no positive double to zero if its product
with the least of them is rounded up again. -/
theorem IsPackable.mul_fraction {u : UnpackedFloat} (hu : IsPackable u) {m : Nat} (hm : 0 < m)
    (hlog : m.log2 = 52) (hleast : roundWithAccuracy .binary64 .positive (1 * m) (-1074 + -53)
      .exact = .finite .positive 1 (-1074) (by decide)) :
    IsPackable (UnpackedFloat.mul .binary64 u (.finite .positive m (-53) hm)) := by
  cases hu with
  | infinity => exact .infinity
  | @finite m' e' hm' hlt' he' =>
    have hsum := log2_add_log2_le hm' hm
    by_cases hlarge : -1073 ≤ m'.log2 + e'
    · exact isPackable_roundWithAccuracy (Nat.mul_pos hm' hm) (by omega)
    · obtain rfl : e' = -1074 := by omega
      obtain rfl : m' = 1 := by
        have hlog' : m'.log2 = 0 := by omega
        have h := (Nat.log2_eq_iff (Nat.ne_of_gt hm')).1 hlog'
        omega
      show IsPackable (roundWithAccuracy .binary64 .positive (1 * m) (-1074 + -53) .exact)
      rw [hleast]
      exact .finite _ (by decide) (by decide)

theorem isPositive_mul_fraction {x y : Float} (hx : Score.isPositive x = true) {m : Nat}
    (hm : 0 < m) (hy : y.toModel.unpack = .finite .positive m (-53) hm) (hlog : m.log2 = 52)
    (hleast : roundWithAccuracy .binary64 .positive (1 * m) (-1074 + -53) .exact =
      .finite .positive 1 (-1074) (by decide)) : Score.isPositive (x * y) = true := by
  refine ((isPositive_iff.1 hx).isPackable.mul_fraction hm hlog hleast).isPositive ?_
  rw [← hy]
  rfl

theorem isAtLeastOne_ofNat {n : Nat} (hn : 0 < n) :
    IsAtLeastOne (Float.ofNat n).toModel.unpack := by
  show IsAtLeastOne (Float.ofScientific n false 0).toModel.unpack
  unfold Float.ofScientific
  split
  · next hsmall =>
    have hmod : n.toUInt64.toNat = n := by
      show n % 2 ^ 64 = n
      omega
    have hint : IsAtLeastOne n.toUInt64.toFloat.toModel.unpack := by
      show IsAtLeastOne (pack (UnpackedFloat.ofInt .binary64 n.toUInt64.toNat)).unpack
      rw [hmod]
      exact (isAtLeastOne_normalize hn .positive).unpack_pack
    have hone : Float.exactlyRepresentablePowersOfTen[0].toModel.unpack =
        .finite .positive (2 ^ 52) (-52) (by decide) := by
      simp only [Float.exactlyRepresentablePowersOfTen, List.getElem_toArray,
        List.getElem_cons_zero]
      rfl
    refine (hint.mul ?_).unpack_pack
    rw [hone]
    exact .finite _ (Nat.le_refl _) (by decide) (by decide)
  · show IsAtLeastOne (pack (UnpackedFloat.ofScientific .binary64 n 0)).unpack
    refine IsAtLeastOne.unpack_pack ?_
    have hexponent : Format.binary64.exponentBits = 11 := rfl
    have hmantissa : Format.binary64.mantissaBits = 53 := rfl
    have hsign : Sign.positive * Sign.positive = .positive := rfl
    unfold UnpackedFloat.ofScientific
    rw [dif_neg (Nat.ne_of_gt hn), hexponent, if_neg (by decide), if_neg (by omega),
      if_pos (by decide)]
    simp only [UnpackedFloat.mul, hmantissa, hsign, Nat.shiftLeft_eq]
    have hlog := log2_add_log2_le hn (Nat.two_pow_pos 53)
    rw [Nat.log2_two_pow] at hlog
    have hle : 2 ^ 52 ≤ n * 2 ^ 53 := by omega
    have hten : (10 : Nat) ^ (0 : Int).toNat = 1 := rfl
    rw [hten, Nat.mul_one]
    exact isAtLeastOne_roundWithAccuracy hle (by omega)

theorem isPositive_ofNat {n : Nat} (hn : 0 < n) : Score.isPositive (Float.ofNat n) = true :=
  isPositive_iff.2 (isAtLeastOne_ofNat hn).isAbove

theorem isPositive_ofNat_mul {n : Nat} (hn : 0 < n) {x : Float} (hx : Score.isPositive x = true) :
    Score.isPositive (Float.ofNat n * x) = true :=
  ((isAtLeastOne_ofNat hn).mul_packable (isPositive_iff.1 hx).isPackable).isPositive rfl

theorem IsAbove.zero_add {u : UnpackedFloat} (h : IsAbove u) :
    UnpackedFloat.add .binary64 (.zero .positive) u = u := by
  cases h <;> rfl

theorem IsAbove.add_zero {u : UnpackedFloat} (h : IsAbove u) :
    UnpackedFloat.add .binary64 u (.zero .positive) = u := by
  cases h <;> rfl

/-! ## The greater of two -/

theorem IsAbove.isNaN_eq_false {u : UnpackedFloat} (h : IsAbove u) : u.isNaN = false := by
  cases h <;> rfl

theorem IsAbove.lt_zero_eq_false {u : UnpackedFloat} (h : IsAbove u) :
    u.lt (.zero .positive) = false := by
  cases h <;> rfl

/-- A positive double is greater than zero, on either side. -/
theorem greaterFloat_zero {x : Float} (h : Score.isPositive x = true) :
    greaterFloat x 0.0 = x ∧ greaterFloat 0.0 x = x := by
  have habove := isPositive_iff.1 h
  have hnan : x.isNaN = false := habove.isNaN_eq_false
  have hzero : (0.0 : Float).isNaN = false := by decide +kernel
  have hlt : (0.0 : Float) < x := of_decide_eq_true h
  have hnot : ¬ x < 0.0 := by
    intro hback
    have hback' : x.toModel.unpack.lt (.zero .positive) = true := of_decide_eq_true hback
    rw [habove.lt_zero_eq_false] at hback'
    cases hback'
  rw [greaterFloat, greaterFloat, hnan, hzero, if_neg hnot, if_pos hlt]
  exact ⟨rfl, rfl⟩

theorem isPositive_greaterFloat {x y : Float} (hx : Score.isPositive x = true)
    (hy : Score.isPositive y = true) : Score.isPositive (greaterFloat x y) = true := by
  unfold greaterFloat
  split_ifs <;> assumption

end Double

instance : PointScore Float where
  isPositive_zero := by decide +kernel
  isPositive_point := by decide +kernel
  isPositive_add x y hx hy :=
    ((Double.isPositive_iff.1 hx).isPackable.add (Double.isPositive_iff.1 hy).isPackable).isPositive
      rfl
  zero_add_zero := by decide +kernel
  zero_add x hx := by
    have hsum : (0.0 + x).toModel = Float.Model.pack (.add .binary64 (.zero .positive) _) := rfl
    rw [(Double.isPositive_iff.1 hx).zero_add, Double.pack_unpack] at hsum
    exact congrArg Float.ofModel hsum
  add_zero x hx := by
    have hsum : (x + 0.0).toModel = Float.Model.pack (.add .binary64 _ (.zero .positive)) := rfl
    rw [(Double.isPositive_iff.1 hx).add_zero, Double.pack_unpack] at hsum
    exact congrArg Float.ofModel hsum

instance : CountScore Float where
  isPositive_ofCount n := Double.isPositive_ofNat n.succ_pos
  isPositive_mul_weight x field hx := by
    -- the weights 3, 2.5, 2, 1.5 and 1, with 53 digits each
    cases field with
    | title =>
      exact Double.isPositive_mul hx (m := 3 * 2 ^ 51) (e := -51) (by decide) rfl (by decide)
    | tags =>
      exact Double.isPositive_mul hx (m := 5 * 2 ^ 50) (e := -51) (by decide) rfl (by decide)
    | path =>
      exact Double.isPositive_mul hx (m := 2 ^ 52) (e := -51) (by decide) rfl (by decide)
    | description =>
      exact Double.isPositive_mul hx (m := 3 * 2 ^ 51) (e := -52) (by decide) rfl (by decide)
    | content | author =>
      exact Double.isPositive_mul hx (m := 2 ^ 52) (e := -52) (by decide) rfl (by decide)

instance : WeightScore Float where
  isPositive_count_mul n _ hw := Double.isPositive_ofNat_mul n.succ_pos hw
  isPositive_mul_factor factor hfactor w hw := by
    simp only [List.mem_cons, List.not_mem_nil, or_false] at hfactor
    obtain rfl | rfl | rfl | rfl := hfactor
    · exact Double.isPositive_mul_fraction hw (m := 0x16666666666666) (by decide) rfl (by decide)
        rfl
    · exact Double.isPositive_mul_fraction hw (m := 0x1999999999999A) (by decide) rfl (by decide)
        rfl
    · exact Double.isPositive_mul hw (m := 3 * 2 ^ 51) (e := -52) (by decide) rfl (by decide)
    · exact Double.isPositive_mul hw (m := 2 ^ 52) (e := -51) (by decide) rfl (by decide)
  greater_zero_zero := by decide +kernel
  isPositive_greater x y hx hy := by
    rcases hx with rfl | hx
    · rcases hy with rfl | hy
      · decide +kernel
      · show Score.isPositive (greaterFloat 0.0 y) = _
        rw [(Double.greaterFloat_zero hy).2, hy, Bool.or_true]
    · rcases hy with rfl | hy
      · show Score.isPositive (greaterFloat x 0.0) = _
        rw [(Double.greaterFloat_zero hx).1, hx, Bool.true_or]
      · rw [hx]
        exact Double.isPositive_greaterFloat hx hy

end DocumentSearch
