/-!
# Scores

What the search asks of the numbers it scores with. The program scores with doubles; the laws of
scoring are stated for exact numbers, and both run the same code.

Doubles have no equality that sorting could rely on: zero has two signs, and a NaN differs from
itself. Their order (`total_cmp`) is therefore that of their bits, with the negative numbers turned
round: from `-∞` over `-0` and `0` to `∞`, and a NaN above all.

**Deviation.** All NaNs have the same bits here, so a NaN has no sign. In the program it has one,
and where it is negative (a weight of `-nan`, or what some processors make of `∞ - ∞`) `total_cmp`
puts it below `-∞`: a document with such a score is the last one there and the first one here.
-/

namespace DocumentSearch

/-- Numbers that documents are scored with. -/
class Score (α : Type) extends Add α, Mul α, OfScientific α where
  /-- A number of occurrences. -/
  ofCount : Nat → α
  /-- The greater of two scores. -/
  greater : α → α → α
  /-- Is the score above zero? -/
  isPositive : α → Bool
  /-- Does the second score stand at or above the first in a ranking? -/
  atMost : α → α → Bool

/-- The place of a double in the order of all doubles, which is `total_cmp` except for negative
NaNs. -/
def floatRank (x : Float) : Int :=
  let bits := x.toBits.toNat
  if bits < 0x8000000000000000 then bits else 0x7FFFFFFFFFFFFFFF - (bits : Int)

/-- The greater of two doubles (`max`); a NaN gives way to a number. -/
def greaterFloat (x y : Float) : Float :=
  if x.isNaN then y else if y.isNaN then x else if x < y then y else x

instance : Score Float where
  ofCount := Float.ofNat
  greater := greaterFloat
  isPositive x := x > 0
  atMost x y := floatRank x ≤ floatRank y

end DocumentSearch
