/-!
# Tables of characters

A property of characters is given by closed ranges of code points in ascending order, and a map of
characters by runs of code points that all move by one distance. Both are read by finding the first
entry that does not end before the code point.

Results:

* `mem_of_inRanges`: a code point that a range table accepts lies in one of its ranges.
* `exists_of_shifted?`: a code point that a shift table moves lies on one of its runs.
-/

namespace DocumentSearch.Text

/-! ## Properties -/

/-- Does `n` lie in one of the ranges? The ranges are closed and ascending. -/
def inRanges (ranges : List (Nat × Nat)) (n : Nat) : Bool :=
  match ranges.find? (fun r => n ≤ r.2) with
  | some r => r.1 ≤ n
  | none => false

theorem mem_of_inRanges {ranges : List (Nat × Nat)} {n : Nat} (h : inRanges ranges n = true) :
    ∃ r ∈ ranges, r.1 ≤ n ∧ n ≤ r.2 := by
  unfold inRanges at h
  split at h
  · next r hr =>
    exact ⟨r, List.mem_of_find?_eq_some hr, by simpa using h, by simpa using List.find?_some hr⟩
  · simp at h

/-! ## Maps -/

/-- The code points `first`, `first + step`, …, `last`, each of which moves by `distance`. -/
structure Shift where
  first : Nat
  last : Nat
  step : Nat
  distance : Int

/-- Is `n` one of the code points that the shift moves? -/
def Shift.moves (s : Shift) (n : Nat) : Bool :=
  s.first ≤ n && n ≤ s.last && (n - s.first) % s.step == 0

/-- Where the table moves `n` to, if it moves it. The shifts are ascending and apart. -/
def shifted? (shifts : List Shift) (n : Nat) : Option Nat :=
  match shifts.find? (fun s => n ≤ s.last) with
  | some s => if s.moves n then some (n + s.distance).toNat else none
  | none => none

theorem exists_of_shifted? {shifts : List Shift} {n m : Nat} (h : shifted? shifts n = some m) :
    ∃ s ∈ shifts, s.moves n = true ∧ m = (n + s.distance).toNat := by
  unfold shifted? at h
  split at h
  · next s hs =>
    split at h
    · next hm =>
      exact ⟨s, List.mem_of_find?_eq_some hs, hm, (Option.some.inj h).symm⟩
    · simp at h
  · simp at h

end DocumentSearch.Text
