/-!
# The fewest digits that identify a number

A finite double stands for an interval of real numbers: all that are rounded to it. Among the
decimals in the interval the one with the fewest digits is chosen, and among those the one nearest
to the double. All arithmetic is exact. That the choice is the right one is
`Span.IsProper.isShortest_shortest`, and that the interval is the one that a reader rounds to the
double is `Double.nearestFloat_eq_iff` with `Double.ofBits_eq_spanOf`.
-/

namespace DocumentSearch.Decimal

/-- Which of two decimals that are equally near is chosen. -/
inductive Tie where
  | up
  | toEven
deriving DecidableEq, Repr

/-- The number `digits * 10 ^ exponent`. -/
structure Scaled where
  digits : Nat
  exponent : Int
deriving DecidableEq, Repr

/-- A positive number and the interval of the reals that are rounded to it, in units of
`2 ^ exponent`. The ends belong to the interval iff it is closed. -/
structure Span where
  low : Nat
  value : Nat
  high : Nat
  exponent : Int
  closed : Bool
deriving DecidableEq, Repr

/-- The interval of a positive finite double with the given bits. Right above a power of two the gap
to the number below is half the gap to the number above. -/
def Span.ofBits (bits : UInt64) : Span :=
  let biased := ((bits >>> 52) &&& 0x7FF).toNat
  let fraction := (bits &&& 0xFFFFFFFFFFFFF).toNat
  let mantissa := if biased = 0 then fraction else 0x10000000000000 + fraction
  let below := if fraction = 0 && biased > 1 then 1 else 2
  { low := 4 * mantissa - below
    value := 4 * mantissa
    high := 4 * mantissa + 2
    exponent := (max biased 1 : Int) - 1077
    closed := mantissa % 2 = 0 }

/-- `x` units of the span, counted in units of `10 ^ grid` and of a common denominator. -/
def Span.scale (s : Span) (grid : Int) (x : Nat) : Nat :=
  x * Nat.pow 2 s.exponent.toNat * Nat.pow 10 (-grid).toNat

/-- One unit of `10 ^ grid`, over the denominator of `Span.scale`. -/
def Span.unit (s : Span) (grid : Int) : Nat :=
  Nat.pow 10 grid.toNat * Nat.pow 2 (-s.exponent).toNat

/-- Is the decimal `n * 10 ^ grid` rounded to the number? -/
def Span.contains (s : Span) (grid : Int) (n : Nat) : Bool :=
  let here := n * s.unit grid
  let low := s.scale grid s.low
  let high := s.scale grid s.high
  (low < here || s.closed && low == here) && (here < high || s.closed && here == high)

/-- The least `k` with `value < 10 ^ k`. -/
def Span.magnitude (s : Span) : Int :=
  let numerator := s.scale 0 s.value
  let denominator := s.unit 0
  if denominator ≤ numerator then (Nat.toDigits 10 (numerator / denominator)).length
  else 1 - (Nat.toDigits 10 (denominator / numerator)).length

/-- The digits of the last decimal on the grid that is not above the number. -/
def Span.below (s : Span) (grid : Int) : Nat := s.scale grid s.value / s.unit grid

/-- Is the decimal behind the last one that is not above the number taken, where both are rounded to
the number? -/
def Span.roundsUp (s : Span) (tie : Tie) (grid : Int) : Bool :=
  let down := s.below grid
  match compare (2 * s.scale grid s.value) ((down + (down + 1)) * s.unit grid) with
  | .lt => false
  | .gt => true
  | .eq => tie == .up || down % 2 == 1

/-- The decimal with the given grid that is nearest to the number, if one is rounded to it. -/
def Span.onGrid? (s : Span) (tie : Tie) (grid : Int) : Option Scaled :=
  let down := s.below grid
  let up := down + 1
  match s.contains grid down, s.contains grid up with
  | true, true => some ⟨if s.roundsUp tie grid then up else down, grid⟩
  | true, false => some ⟨down, grid⟩
  | false, true => some ⟨up, grid⟩
  | false, false => none

/-- Moves the zeros at the end of the digits into the exponent. `fuel` bounds their number. -/
def Scaled.strip : Nat → Scaled → Scaled
  | fuel + 1, ⟨digits, exponent⟩ =>
    if digits % 10 = 0 then Scaled.strip fuel ⟨digits / 10, exponent + 1⟩ else ⟨digits, exponent⟩
  | 0, d => d

/-- The decimal with the fewest digits that is rounded to the number; 17 digits are always
enough. -/
def Span.shortest (s : Span) (tie : Tie) : Scaled :=
  match (List.range 17).findSome? fun (n : Nat) => s.onGrid? tie (s.magnitude - (n + 1)) with
  | some d => d.strip 17
  | none =>
    ⟨s.value * Nat.pow 2 s.exponent.toNat * Nat.pow 5 (-s.exponent).toNat, min s.exponent 0⟩

end DocumentSearch.Decimal
