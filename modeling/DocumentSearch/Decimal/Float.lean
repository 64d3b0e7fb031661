import DocumentSearch.Decimal.Digits

/-!
# Reading numbers

Signed integers and decimal fractions. A fraction has digits on at least one side of its point; the
point may be missing, an exponent is not part of it. The number read is the double nearest to the
decimal, which is infinite if the decimal is too large.

Results:

* `readInt?_natText`: digits without a sign are read as what they spell.
-/

namespace DocumentSearch.Decimal

/-- A sign, if there is one, and what it stands before. -/
def splitSign : Text → Bool × Text
  | '-' :: t => (true, t)
  | '+' :: t => (false, t)
  | t => (false, t)

/-- The integer that a text of digits, with or without a sign, stands for. -/
def readInt? (t : Text) : Option Int :=
  let (negative, digits) := splitSign t
  (readNat? digits).map fun n => if negative then -(n : Int) else n

theorem splitSign_of_isDigit {t : Text} (h : ∀ c ∈ t, c.isDigit = true) :
    splitSign t = (false, t) := by
  rw [splitSign]
  · intro rest heq
    exact absurd (h '-' (heq ▸ List.mem_cons_self)) (by decide)
  · intro rest heq
    exact absurd (h '+' (heq ▸ List.mem_cons_self)) (by decide)

theorem readInt?_natText (n : Nat) : readInt? (natText n) = some (n : Int) := by
  rw [readInt?, splitSign_of_isDigit fun _ => isDigit_of_mem_natText]
  simp

/-- The digits before and after the point of a decimal fraction. -/
def splitPoint? (t : Text) : Option (Text × Text) :=
  let (whole, fraction) := (Text.splitOnce '.' t).getD (t, [])
  if whole.all Char.isDigit && fraction.all Char.isDigit && !(whole ++ fraction).isEmpty then
    some (whole, fraction)
  else none

/-- The double nearest to `± digits * 10 ^ exponent`. Decimals from `10 ^ 310` up are infinite,
those below `10 ^ -330` are zero. -/
def nearestFloat (negative : Bool) (digits : Nat) (exponent : Int) : Float :=
  let magnitude := exponent + (natText digits).length
  let x :=
    if digits = 0 || magnitude < -330 then 0.0
    else if magnitude > 310 then 1.0 / 0.0
    else Float.ofScientific digits (exponent < 0) exponent.natAbs
  if negative then -x else x

/-- The double nearest to the decimal fraction that the text spells. -/
def readFloat? (t : Text) : Option Float :=
  let (negative, unsigned) := splitSign t
  (splitPoint? unsigned).map fun (whole, fraction) =>
    nearestFloat negative (digitsValue (whole ++ fraction)) (-(fraction.length : Int))

/-- The double nearest to a decimal fraction with an exponent behind the letter `e`, which may be
missing. -/
def readScientific? (t : Text) : Option Float := do
  let (negative, unsigned) := splitSign t
  let lower := unsigned.map Char.toLower
  let (decimal, exponent) ← match Text.splitOnce 'e' lower with
    | some (decimal, exponent) => (readInt? exponent).map (decimal, ·)
    | none => some (lower, 0)
  let (whole, fraction) ← splitPoint? decimal
  return nearestFloat negative (digitsValue (whole ++ fraction)) (exponent - fraction.length)

end DocumentSearch.Decimal
