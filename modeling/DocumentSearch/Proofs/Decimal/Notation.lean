import DocumentSearch.Decimal.Notation
import DocumentSearch.Proofs.Decimal.Nearest
import DocumentSearch.Proofs.Decimal.Shortest

/-!
# Numbers as text and back

Whatever the notation, the text of a number is read as that number, and no shorter numeral is.
Notations differ in where they put the point and the exponent; the value that the text spells is
that of the digits that were chosen, and reading looks at the value only.

Results:

* `Spells.readScientific?_eq`, `Spells.readScientific?_append_eq`: what is read of a text with
  digits, a point and an exponent.
* `exists_readScientific?_eq`: a notation spells the value of the digits.
* `readScientific?_text`: the text of a finite number is read as that number.
* `exists_text_eq_of_unpack_eq`: no numeral with fewer digits is read as the number, and none with
  as many is nearer to it.
-/

namespace DocumentSearch.Decimal

/-! ## Digits -/

theorem foldl_digits (n : Nat) (t : Text) :
    t.foldl (fun n c => 10 * n + (c.toNat - '0'.toNat)) n = n * 10 ^ t.length + digitsValue t := by
  induction t generalizing n with
  | nil => simp [digitsValue]
  | cons c t ih =>
    rw [digitsValue, List.foldl_cons, List.foldl_cons, ih, ih, List.length_cons, pow_succ]
    ring

theorem digitsValue_append (s t : Text) :
    digitsValue (s ++ t) = digitsValue s * 10 ^ t.length + digitsValue t := by
  rw [digitsValue, List.foldl_append, foldl_digits]
  rfl

theorem digitsValue_replicate_zero (k : Nat) : digitsValue (List.replicate k '0') = 0 := by
  induction k with
  | zero => rfl
  | succ k ih =>
    rw [List.replicate_succ', digitsValue_append, ih, zero_mul, zero_add]
    rfl

theorem notMem_of_isDigit {t : Text} {c : Char} (h : ∀ d ∈ t, d.isDigit = true)
    (hc : c.isDigit = false) : c ∉ t := by
  intro hmem
  rw [h c hmem] at hc
  cases hc

theorem toLower_of_isDigit {c : Char} (h : c.isDigit = true) : c.toLower = c := by
  have hupper : ¬ (c.val ≥ 'A'.val ∧ c.val ≤ 'Z'.val) := by
    simp only [Char.isDigit, Bool.and_eq_true, decide_eq_true_eq, UInt32.le_iff_toNat_le,
      ge_iff_le] at h ⊢
    have hnine : '9'.val.toNat = 57 := rfl
    have hletter : 'A'.val.toNat = 65 := rfl
    omega
  exact dif_neg hupper

theorem map_toLower_of_isDigit {t : Text} (h : ∀ c ∈ t, c.isDigit = true) :
    t.map Char.toLower = t := by
  rw [List.map_congr_left fun c hc => toLower_of_isDigit (h c hc), List.map_id']

/-! ## Decimals without an exponent -/

/-- What stands before the digits of a number. -/
def signText (negative : Bool) : Text := if negative then ['-'] else []

/-- The text is that of a decimal without a sign and without an exponent: digits, with a point among
them if there is one. -/
structure Spells (t : Text) (d : Scaled) (whole fraction : Text) : Prop where
  text_eq : t = whole ++ '.' :: fraction ∨ t = whole ∧ fraction = []
  whole_ne_nil : whole ≠ []
  isDigit_of_mem : ∀ c ∈ whole ++ fraction, c.isDigit = true
  digitsValue_eq : digitsValue (whole ++ fraction) = d.digits
  exponent_eq : d.exponent = -fraction.length

namespace Spells

variable {t whole fraction : Text} {d : Scaled} (h : Spells t d whole fraction)
include h

theorem isDigit_of_mem_whole : ∀ c ∈ whole, c.isDigit = true :=
  fun c hc => h.isDigit_of_mem c (List.mem_append_left _ hc)

theorem isDigit_of_mem_fraction : ∀ c ∈ fraction, c.isDigit = true :=
  fun c hc => h.isDigit_of_mem c (List.mem_append_right _ hc)

theorem map_toLower : t.map Char.toLower = t := by
  have hwhole := map_toLower_of_isDigit h.isDigit_of_mem_whole
  have hfraction := map_toLower_of_isDigit h.isDigit_of_mem_fraction
  obtain rfl | ⟨rfl, -⟩ := h.text_eq
  · rw [List.map_append, List.map_cons, hwhole, hfraction]
    rfl
  · exact hwhole

theorem notMem_e : 'e' ∉ t := by
  have hwhole := notMem_of_isDigit (c := 'e') h.isDigit_of_mem_whole (by decide)
  have hfraction := notMem_of_isDigit (c := 'e') h.isDigit_of_mem_fraction (by decide)
  obtain rfl | ⟨rfl, -⟩ := h.text_eq
  · simp [hwhole, hfraction]
  · exact hwhole

theorem splitPoint?_eq : splitPoint? t = some (whole, fraction) := by
  have hwhole := notMem_of_isDigit (c := '.') h.isDigit_of_mem_whole (by decide)
  have hsplit : (Text.splitOnce '.' t).getD (t, []) = (whole, fraction) := by
    obtain rfl | ⟨rfl, rfl⟩ := h.text_eq
    · rw [Text.splitOnce_eq_some_iff.2 ⟨rfl, hwhole⟩, Option.getD_some]
    · rw [Text.splitOnce_eq_none_iff.2 hwhole, Option.getD_none]
  have hdigits : (whole.all Char.isDigit && fraction.all Char.isDigit &&
      !(whole ++ fraction).isEmpty) = true := by
    rw [Bool.and_eq_true, Bool.and_eq_true, List.all_eq_true, List.all_eq_true, Bool.not_eq_true',
      List.isEmpty_eq_false_iff]
    exact ⟨⟨h.isDigit_of_mem_whole, h.isDigit_of_mem_fraction⟩,
      List.append_ne_nil_of_left_ne_nil h.whole_ne_nil _⟩
  unfold splitPoint?
  rw [hsplit]
  exact if_pos hdigits

/-- The sign is told from the digits, whatever stands behind them. -/
theorem splitSign_append (negative : Bool) (rest : Text) :
    splitSign (signText negative ++ (t ++ rest)) = (negative, t ++ rest) := by
  obtain ⟨c, before, rfl⟩ := List.exists_cons_of_ne_nil h.whole_ne_nil
  have hdigit := h.isDigit_of_mem_whole c List.mem_cons_self
  obtain ⟨behind, rfl⟩ : ∃ behind, t = c :: behind := by
    obtain rfl | ⟨rfl, -⟩ := h.text_eq
    · exact ⟨_, rfl⟩
    · exact ⟨_, rfl⟩
  cases negative with
  | true => rfl
  | false =>
    have hminus : c ≠ '-' := by
      rintro rfl
      cases hdigit
    have hplus : c ≠ '+' := by
      rintro rfl
      cases hdigit
    show splitSign (c :: (behind ++ rest)) = _
    unfold splitSign
    split
    · next heq => exact absurd (List.cons.inj heq).1 hminus
    · next heq => exact absurd (List.cons.inj heq).1 hplus
    · rfl

theorem readScientific?_eq (negative : Bool) :
    readScientific? (signText negative ++ t) =
      some (nearestFloat negative d.digits d.exponent) := by
  have hsign := h.splitSign_append negative []
  rw [List.append_nil] at hsign
  rw [readScientific?, hsign]
  dsimp only
  rw [h.map_toLower, Text.splitOnce_eq_none_iff.2 h.notMem_e]
  simp only [h.splitPoint?_eq, h.digitsValue_eq, h.exponent_eq, Option.pure_def,
    Option.bind_eq_bind, Option.bind_some, zero_sub]

theorem readScientific?_append_eq (negative : Bool) {exponent : Text} {k : Int}
    (hlower : exponent.map Char.toLower = exponent) (hk : readInt? exponent = some k) :
    readScientific? (signText negative ++ (t ++ 'e' :: exponent)) =
      some (nearestFloat negative d.digits (k + d.exponent)) := by
  rw [readScientific?, h.splitSign_append]
  dsimp only
  rw [List.map_append, List.map_cons, h.map_toLower, hlower]
  have hsplit : Text.splitOnce 'e' (t ++ Char.toLower 'e' :: exponent) = some (t, exponent) :=
    Text.splitOnce_eq_some_iff.2 ⟨rfl, h.notMem_e⟩
  rw [hsplit]
  simp only [hk, h.splitPoint?_eq, h.digitsValue_eq, h.exponent_eq, Option.pure_def,
    Option.bind_eq_bind, Option.bind_some, Option.map_some, sub_eq_add_neg]

end Spells

/-! ## What a notation writes -/

/-- An exponent with its sign. -/
def Notation.exponentText (n : Notation) (k : Int) : Text :=
  (if k < 0 then ['-'] else if n.plusSign then ['+'] else []) ++ natText k.natAbs

theorem readInt?_exponentText (n : Notation) (k : Int) :
    readInt? (n.exponentText k) = some k := by
  have hplain : splitSign (natText k.natAbs) = (false, natText k.natAbs) :=
    splitSign_of_isDigit fun _ => isDigit_of_mem_natText
  have hread : readInt? (natText k.natAbs) = some (k.natAbs : Int) := by
    rw [readInt?, hplain]
    simp
  unfold Notation.exponentText
  split
  · next hneg =>
    have hread' : readInt? ('-' :: natText k.natAbs) = some (-(k.natAbs : Int)) := by
      rw [readInt?, splitSign]
      simp
    have hvalue : -(k.natAbs : Int) = k := by omega
    rw [List.singleton_append, hread', hvalue]
  · next hpos =>
    have hvalue : (k.natAbs : Int) = k := by omega
    rw [hvalue] at hread
    split
    · have hread' : readInt? ('+' :: natText k.natAbs) = some (k.natAbs : Int) := by
        rw [readInt?, splitSign]
        simp
      rw [List.singleton_append, hread', hvalue]
    · exact hread

theorem map_toLower_exponentText (n : Notation) (k : Int) :
    (n.exponentText k).map Char.toLower = n.exponentText k := by
  unfold Notation.exponentText
  rw [List.map_append, map_toLower_of_isDigit fun _ => isDigit_of_mem_natText]
  split
  · rfl
  · split <;> rfl

theorem isDigit_of_mem_replicate {k : Nat} {c : Char} (h : c ∈ List.replicate k '0') :
    c.isDigit = true := by
  rw [List.eq_of_mem_replicate h]
  rfl

/-- Without an exponent a decimal keeps its value, though not always its digits. -/
theorem exists_spells_positionalText (n : Notation) (d : Scaled) :
    ∃ d' whole fraction, d'.value = d.value ∧
      Spells (n.positionalText (natText d.digits) d.exponent) d' whole fraction := by
  have hne : natText d.digits ≠ [] := List.ne_nil_of_length_pos (length_natText_pos _)
  have hdigits : ∀ c ∈ natText d.digits, c.isDigit = true := fun _ => isDigit_of_mem_natText
  rw [Notation.positionalText]
  split
  · next hexponent =>
    -- zeros behind the digits
    generalize hk : d.exponent.toNat = k
    have hwhole : ∀ c ∈ natText d.digits ++ List.replicate k '0', c.isDigit = true := by
      intro c hc
      rcases List.mem_append.1 hc with hc | hc
      · exact hdigits c hc
      · exact isDigit_of_mem_replicate hc
    have hvalue : digitsValue (natText d.digits ++ List.replicate k '0') = d.digits * 10 ^ k := by
      rw [digitsValue_append, digitsValue_natText, digitsValue_replicate_zero,
        List.length_replicate, add_zero]
    cases n.pointZero with
    | false =>
      refine ⟨⟨d.digits * 10 ^ k, 0⟩, _, [], ?_, .inr ⟨List.append_nil _, rfl⟩,
        List.append_ne_nil_of_left_ne_nil hne _, ?_, ?_, rfl⟩
      · rw [Scaled.value_mul_pow, zero_add, ← hk, Int.toNat_of_nonneg hexponent]
      · rw [List.append_nil]
        exact hwhole
      · rw [List.append_nil, hvalue]
    | true =>
      refine ⟨⟨d.digits * 10 ^ (k + 1), -1⟩, _, ['0'], ?_, .inl rfl,
        List.append_ne_nil_of_left_ne_nil hne _, ?_, ?_, rfl⟩
      · have hone : -1 + ((k + 1 : ℕ) : ℤ) = d.exponent := by omega
        rw [Scaled.value_mul_pow, hone]
      · intro c hc
        rcases List.mem_append.1 hc with hc | hc
        · exact hwhole c hc
        · exact isDigit_of_mem_replicate (k := 1) hc
      · rw [digitsValue_append, hvalue, pow_succ, mul_assoc]
        rfl
  · split
    · next hlead =>
      -- the point among the digits
      refine ⟨d, _, _, rfl, .inl rfl, ?_, ?_, ?_, ?_⟩
      · refine List.ne_nil_of_length_pos ?_
        rw [List.length_take]
        omega
      · rw [List.take_append_drop]
        exact hdigits
      · rw [List.take_append_drop, digitsValue_natText]
      · rw [List.length_drop]
        omega
    · next hlead =>
      -- zeros before the digits
      refine ⟨d, ['0'], List.replicate (-(d.exponent + (natText d.digits).length)).toNat '0' ++
        natText d.digits, rfl, .inl rfl, List.cons_ne_nil _ _, ?_, ?_, ?_⟩
      · intro c hc
        rcases List.mem_append.1 hc with hc | hc
        · exact isDigit_of_mem_replicate (k := 1) hc
        · rcases List.mem_append.1 hc with hc | hc
          · exact isDigit_of_mem_replicate hc
          · exact hdigits c hc
      · rw [digitsValue_append, digitsValue_append, digitsValue_replicate_zero, digitsValue_natText,
          zero_mul, zero_add]
        show 0 * _ + _ = _
        rw [zero_mul, zero_add]
      · rw [List.length_append, List.length_replicate]
        omega

/-- With an exponent the digits stay as they are, and the first one stands before the point. -/
theorem spells_scientificText (d : Scaled) :
    let digits := natText d.digits
    let fraction := if digits.length ≤ 1 then [] else '.' :: digits.drop 1
    Spells (digits.take 1 ++ fraction) ⟨d.digits, -(digits.length - 1 : ℕ)⟩ (digits.take 1)
      (digits.drop 1) := by
  have hlength := length_natText_pos d.digits
  dsimp only
  refine ⟨?_, ?_, ?_, ?_, ?_⟩
  · split
    · next hone => exact .inr ⟨List.append_nil _, List.drop_eq_nil_of_le hone⟩
    · exact .inl rfl
  · refine List.ne_nil_of_length_pos ?_
    rw [List.length_take]
    omega
  · rw [List.take_append_drop]
    exact fun _ => isDigit_of_mem_natText
  · rw [List.take_append_drop, digitsValue_natText]
  · rw [List.length_drop]

/-- What is read of the text of a decimal has the value of the decimal. -/
theorem exists_readScientific?_eq (n : Notation) (d : Scaled) (negative : Bool) :
    ∃ d' : Scaled, d'.value = d.value ∧
      readScientific? (signText negative ++ n.scaledText d) =
        some (nearestFloat negative d'.digits d'.exponent) := by
  rw [Notation.scaledText]
  split
  · obtain ⟨d', whole, fraction, hvalue, h⟩ := exists_spells_positionalText n d
    exact ⟨d', hvalue, h.readScientific?_eq negative⟩
  · generalize hlead : d.exponent + (natText d.digits).length - 1 = lead
    have h := (spells_scientificText d).readScientific?_append_eq negative
      (map_toLower_exponentText n lead) (readInt?_exponentText n lead)
    have hlength := length_natText_pos d.digits
    have hexponent : lead + -((natText d.digits).length - 1 : ℕ) = d.exponent := by omega
    refine ⟨d, rfl, ?_⟩
    rw [Notation.scientificText, hlead]
    simp only [Notation.exponentText, List.append_assoc, List.cons_append] at h ⊢
    rw [h]
    simp only [hexponent]

/-! ## The text of a number -/

section Text

open Float.Model Float.Model.UnpackedFloat Double

variable {x : Float} {s : Sign}

theorem eq_ofModel_zero (hx : x.toModel.unpack = .zero s) : x = .ofModel (pack (.zero s)) := by
  rw [← hx, pack_unpack]

/-- Zero is written as a zero with its sign. -/
theorem text_zero (hx : x.toModel.unpack = .zero s) (n : Notation) :
    n.text x = signText (isNegative s) ++ n.positionalText (natText 0) 0 := by
  rw [eq_ofModel_zero hx]
  cases s <;> rfl

theorem nearestFloat_zero (hx : x.toModel.unpack = .zero s) (exponent : Int) :
    nearestFloat (isNegative s) 0 exponent = x := by
  rw [eq_ofModel_zero hx, nearestFloat]
  simp only [decide_true, Bool.true_or, if_true]
  cases s <;> rfl

/-- All other numbers are written with the digits that were chosen for them. -/
theorem text_finite {m : Nat} {e : Int} {hm : 0 < m}
    (hx : x.toModel.unpack = .finite s m e hm) (n : Notation) :
    n.text x =
      signText (isNegative s) ++ n.scaledText ((spanOf m e).shortest n.tie) := by
  have hnan : x.isNaN = false := by
    show x.toModel.unpack.isNaN = false
    rw [hx]
    rfl
  have hinf : x.isInf = false := by
    show x.toModel.unpack.isInf = false
    rw [hx]
    rfl
  have hzero : (x.toBits &&& 0x7FFFFFFFFFFFFFFF == 0) = false :=
    beq_false_of_ne (toBits_and_ne_zero hx)
  rw [Notation.text, hnan, hinf]
  simp only [hzero, toBits_eq_and_iff hx, ofBits_eq_spanOf hx, Bool.false_eq_true, if_false]
  cases s <;> rfl

/-- The text of a number is read as that number. -/
theorem readScientific?_text (hx : x.isFinite = true) (n : Notation) :
    readScientific? (n.text x) = some x := by
  have hfinite : x.toModel.unpack.isFinite = true := hx
  cases hunpack : x.toModel.unpack with
  | notANumber | infinity =>
    rw [hunpack] at hfinite
    cases hfinite
  | zero s =>
    obtain ⟨d, whole, fraction, hvalue, hspells⟩ := exists_spells_positionalText n ⟨0, 0⟩
    have hdigits : d.digits = 0 := by
      have hzero : (d.digits * 10 ^ d.exponent : ℚ) = 0 := hvalue.trans (by simp [Scaled.value])
      exact_mod_cast (mul_eq_zero.1 hzero).resolve_right (by positivity)
    rw [text_zero hunpack, hspells.readScientific?_eq, hdigits, nearestFloat_zero hunpack]
  | finite s m e hm =>
    have hproper := isProper_spanOf (isCanonical_of_unpack_eq hunpack).1 hm
    have hshortest := hproper.isShortest_shortest n.tie
    obtain ⟨d, hvalue, hread⟩ := exists_readScientific?_eq n ((spanOf m e).shortest n.tie)
      (isNegative s)
    rw [text_finite hunpack, hread, (nearestFloat_eq_iff hunpack d).2]
    rw [hvalue]
    exact hshortest.value_mem

/-- No decimal that is read as the number has fewer digits than its text, and none with so few is
nearer to the number. -/
theorem exists_text_eq_of_unpack_eq {m : Nat} {e : Int} {hm : 0 < m}
    (hx : x.toModel.unpack = .finite s m e hm) (n : Notation) :
    ∃ d : Scaled, n.text x = signText (isNegative s) ++ n.scaledText d ∧
      nearestFloat (isNegative s) d.digits d.exponent = x ∧
      ∀ d' : Scaled, nearestFloat (isNegative s) d'.digits d'.exponent = x →
        (natText d.digits).length ≤ (natText d'.digits).length ∧
        ((natText d'.digits).length ≤ (natText d.digits).length →
          |d.value - m * 2 ^ e| ≤ |d'.value - m * 2 ^ e|) := by
  have hproper := isProper_spanOf (isCanonical_of_unpack_eq hx).1 hm
  have hshortest := hproper.isShortest_shortest n.tie
  have hdouble : (spanOf m e).double = m * 2 ^ e := by
    show (spanOf m e).point (4 * m) = _
    rw [point_eq_div]
    push_cast
    ring
  refine ⟨_, text_finite hx n, (nearestFloat_eq_iff hx _).2 hshortest.value_mem, fun d' hd' => ?_⟩
  have hmem := (nearestFloat_eq_iff hx d').1 hd'
  rw [← hdouble]
  exact ⟨hshortest.length_le d' hmem, hshortest.distance_le d' hmem⟩

end Text

end DocumentSearch.Decimal
