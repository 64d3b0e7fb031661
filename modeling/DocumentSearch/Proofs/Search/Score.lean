import DocumentSearch.Search.Config
import DocumentSearch.Search.Score
import Mathlib

/-!
# Laws of scores

The order of a ranking is total, for doubles as for exact numbers. The exact numbers are the
rational ones; scoring with them never rounds. What a search adds up is zero or positive, so whether
a document is a hit is decided by whether any of its points are positive.

Results:

* `OrderedScore`, `PointScore`, `CountScore`, `WeightScore`: the laws that scores obey.
* `IsPoints.isPositive_foldl_add`, `IsPoints.isPositive_foldl_ite`: when a sum of points is
  positive.
-/

namespace DocumentSearch

/-- Scores of which any two can be compared. Two scores are equal in a ranking if each of them is at
most the other. -/
class OrderedScore (α : Type) [Score α] : Prop where
  atMost_trans (x y z : α) : Score.atMost x y = true → Score.atMost y z = true →
    Score.atMost x z = true
  atMost_total (x y : α) : (Score.atMost x y || Score.atMost y x) = true

instance : OrderedScore Float where
  atMost_trans x y z := by
    simp only [Score.atMost, decide_eq_true_eq]
    omega
  atMost_total x y := by
    simp only [Score.atMost, Bool.or_eq_true, decide_eq_true_eq]
    omega

instance : Score Rat where
  ofCount n := n
  greater := max
  isPositive x := 0 < x
  atMost x y := x ≤ y

instance : OrderedScore Rat where
  atMost_trans x y z := by
    simp only [Score.atMost, decide_eq_true_eq]
    exact Rat.le_trans
  atMost_total x y := by
    simp only [Score.atMost, Bool.or_eq_true, decide_eq_true_eq]
    exact Rat.le_total

/-! ## Points -/

/-- Scores in which points can be added up, such that a sum is zero only if there is nothing to add.
Doubles obey these laws, although large sums are rounded: zero changes no number that it is added
to, and rounding takes no sum of positive numbers down to zero. -/
class PointScore (α : Type) [Score α] : Prop extends OrderedScore α where
  isPositive_zero : Score.isPositive (0.0 : α) = false
  isPositive_point : ∀ x ∈ ([1.0, 2.0, 3.0] : List α), Score.isPositive x = true
  isPositive_add (x y : α) : Score.isPositive x = true → Score.isPositive y = true →
    Score.isPositive (x + y) = true
  zero_add_zero : (0.0 + 0.0 : α) = 0.0
  zero_add (x : α) : Score.isPositive x = true → 0.0 + x = x
  add_zero (x : α) : Score.isPositive x = true → x + 0.0 = x

theorem zero_rat : (0.0 : Rat) = 0 := by decide +kernel

instance : PointScore Rat where
  isPositive_zero := by decide +kernel
  isPositive_point := by decide +kernel
  isPositive_add x y hx hy := by
    simp only [Score.isPositive, decide_eq_true_eq] at hx hy ⊢
    grind
  zero_add_zero := by decide +kernel
  zero_add x _ := by rw [zero_rat, Rat.zero_add]
  add_zero x _ := by rw [zero_rat, Rat.add_zero]

/-- The number is zero or positive. -/
def IsPoints {α : Type} [Score α] (x : α) : Prop := x = 0.0 ∨ Score.isPositive x = true

namespace IsPoints

variable {α : Type} [Score α] [PointScore α] {x y : α}

omit [PointScore α] in
theorem zero : IsPoints (0.0 : α) := .inl rfl

theorem zero_add (hx : IsPoints x) : 0.0 + x = x := by
  rcases hx with rfl | hx
  · exact PointScore.zero_add_zero
  · exact PointScore.zero_add x hx

theorem add_zero (hx : IsPoints x) : x + 0.0 = x := by
  rcases hx with rfl | hx
  · exact PointScore.zero_add_zero
  · exact PointScore.add_zero x hx

theorem isPositive_add (hx : IsPoints x) (hy : IsPoints y) :
    Score.isPositive (x + y) = (Score.isPositive x || Score.isPositive y) := by
  rcases hx with rfl | hx
  · rw [hy.zero_add, PointScore.isPositive_zero, Bool.false_or]
  · rcases hy with rfl | hy
    · rw [PointScore.add_zero x hx, hx, Bool.true_or]
    · rw [PointScore.isPositive_add x y hx hy, hx, Bool.true_or]

theorem add (hx : IsPoints x) (hy : IsPoints y) : IsPoints (x + y) := by
  rcases hx with rfl | hx
  · rwa [hy.zero_add]
  · rw [IsPoints, isPositive_add (.inr hx) hy, hx]
    exact .inr rfl

theorem isPositive_foldl_add {ι : Type} {f : ι → α} (hf : ∀ i, IsPoints (f i)) (is : List ι)
    (hx : IsPoints x) : Score.isPositive (is.foldl (fun sum i => sum + f i) x) =
      (Score.isPositive x || is.any fun i => Score.isPositive (f i)) := by
  induction is generalizing x with
  | nil => simp
  | cons i is ih =>
    rw [List.foldl_cons, ih (hx.add (hf i)), hx.isPositive_add (hf i), List.any_cons,
      Bool.or_assoc]

/-- The same where some of the numbers are passed over. -/
theorem isPositive_foldl_ite {ι : Type} {f : ι → α} {skip : ι → Prop} [DecidablePred skip]
    (hf : ∀ i, ¬ skip i → Score.isPositive (f i) = true) (is : List ι) (hx : IsPoints x) :
    Score.isPositive (is.foldl (fun sum i => if skip i then sum else sum + f i) x) =
      (Score.isPositive x || is.any fun i => !decide (skip i)) := by
  induction is generalizing x with
  | nil => simp
  | cons i is ih =>
    rw [List.foldl_cons, List.any_cons, ← Bool.or_assoc]
    by_cases hi : skip i
    · rw [if_pos hi, ih hx, decide_eq_true hi, Bool.not_true, Bool.or_false]
    · have hpos : IsPoints (f i) := .inr (hf i hi)
      rw [if_neg hi, ih (hx.add hpos), hx.isPositive_add hpos, hf i hi, decide_eq_false hi]
      rfl

end IsPoints

/-! ## Counts -/

/-- Scores in which occurrences count, with the weights by default. -/
class CountScore (α : Type) [Score α] : Prop extends PointScore α where
  isPositive_ofCount (n : Nat) : Score.isPositive (Score.ofCount (n + 1) : α) = true
  isPositive_mul_weight (x : α) (field : Field) : Score.isPositive x = true →
    Score.isPositive (x * Weights.standard.of field) = true

instance : CountScore Rat where
  isPositive_ofCount n := by
    show decide ((0 : Rat) < (n + 1 : Nat)) = true
    simp only [decide_eq_true_eq]
    positivity
  isPositive_mul_weight x field hx := by
    have hweight : (0 : Rat) < Weights.standard.of field := by cases field <;> decide +kernel
    simp only [Score.isPositive, decide_eq_true_eq] at hx ⊢
    exact mul_pos hx hweight

/-! ## Weights -/

/-- Scores that are positive wherever a positive weight is counted: however often it counts, by
whichever factor of the evaluator, and as one of two scores the greater of which is taken. Products
of positive doubles can be zero, but not these. -/
class WeightScore (α : Type) [Score α] : Prop extends PointScore α where
  isPositive_count_mul (n : Nat) (w : α) : Score.isPositive w = true →
    Score.isPositive (Score.ofCount (n + 1) * w) = true
  isPositive_mul_factor : ∀ factor ∈ ([0.7, 0.8, 1.5, 2.0] : List α), ∀ w : α,
    Score.isPositive w = true → Score.isPositive (w * factor) = true
  greater_zero_zero : Score.greater 0.0 (0.0 : α) = 0.0
  isPositive_greater (x y : α) : IsPoints x → IsPoints y →
    Score.isPositive (Score.greater x y) = (Score.isPositive x || Score.isPositive y)

instance : WeightScore Rat where
  isPositive_count_mul n w hw := by
    have hcount : (0 : Rat) < (n + 1 : Nat) := by positivity
    simp only [Score.isPositive, decide_eq_true_eq] at hw ⊢
    exact mul_pos hcount hw
  isPositive_mul_factor factor hfactor w hw := by
    have hpos : ∀ factor ∈ ([0.7, 0.8, 1.5, 2.0] : List Rat), 0 < factor := by decide +kernel
    simp only [Score.isPositive, decide_eq_true_eq] at hw ⊢
    exact mul_pos hw (hpos factor hfactor)
  greater_zero_zero := max_self _
  isPositive_greater x y _ _ := by
    simp only [Score.isPositive, Score.greater, lt_max_iff, Bool.decide_or]

end DocumentSearch
