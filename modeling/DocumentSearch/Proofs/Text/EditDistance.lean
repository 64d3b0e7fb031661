import DocumentSearch.Text.EditDistance
import Mathlib.Data.List.Infix
import Mathlib.Order.Bounds.Defs
import Mathlib.Order.MinMax

/-!
# The least number of edits

The table has an entry for every end of the first text and every end of the second one, and an entry
is made out of three others. That gives the distance a recursion on both texts, along which edits
are found; and no edit of the first text brings it nearer to the second one by more than one, so no
other edits are fewer.

Results:

* `editDistance_cons_cons`: the distance by recursion on both texts.
* `edits_editDistance`: that many edits turn one text into the other.
* `Edits.editDistance_le`: no fewer edits do.
* `isLeast_editDistance`, `exists_edits_iff`, `editDistance_triangle`: what follows.
-/

namespace DocumentSearch.Text

/-! ## The table -/

/-- The entry for a text in the row of `c :: a`, where `row` has the entries in the row of `a`. -/
def entryBelow (c : Char) (row : Text → Nat) : Text → Nat
  | [] => row [] + 1
  | d :: b =>
    min (min (row (d :: b) + 1) (entryBelow c row b + 1)) (row b + if c = d then 0 else 1)

theorem lengthRow_eq (b : Text) : lengthRow b = b.tails.map List.length := by
  induction b with
  | nil => rfl
  | cons d b ih =>
    cases b with
    | nil => rfl
    | cons e b =>
      rw [lengthRow, ih]
      rfl

theorem editRow_map_tails (c : Char) (row : Text → Nat) (b : Text) :
    editRow c b (b.tails.map row) = b.tails.map (entryBelow c row) := by
  induction b with
  | nil => rfl
  | cons d b ih =>
    cases b with
    | nil => rfl
    | cons e b =>
      simp only [List.tails_cons, List.map_cons] at ih ⊢
      rw [editRow, ih]
      rfl

theorem editRows_eq (a b : Text) :
    editRows a b = b.tails.map (a.foldr entryBelow List.length) := by
  induction a with
  | nil => exact lengthRow_eq b
  | cons c a ih =>
    rw [List.foldr_cons, ← editRow_map_tails, ← ih]
    rfl

theorem editDistance_eq (a b : Text) : editDistance a b = a.foldr entryBelow List.length b := by
  rw [editDistance, editRows_eq]
  cases b <;> rfl

@[simp] theorem editDistance_nil_left (b : Text) : editDistance [] b = b.length :=
  editDistance_eq [] b

@[simp] theorem editDistance_nil_right (a : Text) : editDistance a [] = a.length := by
  induction a with
  | nil => rfl
  | cons c a ih =>
    rw [editDistance_eq] at ih ⊢
    rw [List.foldr_cons, entryBelow, ih, List.length_cons]

theorem editDistance_cons_cons (c d : Char) (a b : Text) :
    editDistance (c :: a) (d :: b) =
      min (min (editDistance a (d :: b) + 1) (editDistance (c :: a) b + 1))
        (editDistance a b + if c = d then 0 else 1) := by
  simp only [editDistance_eq, List.foldr_cons, entryBelow]

/-! ## Edits -/

/-- One character is inserted, deleted or replaced by another one. -/
inductive Edit : Text → Text → Prop where
  | insert (before : Text) (c : Char) (behind : Text) :
      Edit (before ++ behind) (before ++ c :: behind)
  | delete (before : Text) (c : Char) (behind : Text) :
      Edit (before ++ c :: behind) (before ++ behind)
  | replace (before : Text) (c d : Char) (behind : Text) :
      Edit (before ++ c :: behind) (before ++ d :: behind)

/-- The first text becomes the second one by the given number of edits, one after the other. -/
inductive Edits : Nat → Text → Text → Prop where
  | refl (a : Text) : Edits 0 a a
  | step {n : Nat} {a b c : Text} (first : Edit a b) (rest : Edits n b c) : Edits (n + 1) a c

variable {a b c : Text} {n m : Nat}

theorem Edit.cons (h : Edit a b) (x : Char) : Edit (x :: a) (x :: b) := by
  cases h with
  | insert before c behind => exact .insert (x :: before) c behind
  | delete before c behind => exact .delete (x :: before) c behind
  | replace before c d behind => exact .replace (x :: before) c d behind

namespace Edits

theorem trans (hab : Edits n a b) (hbc : Edits m b c) : Edits (n + m) a c := by
  induction hab with
  | refl => rwa [Nat.zero_add]
  | step first _ ih =>
    rw [Nat.add_right_comm]
    exact .step first (ih hbc)

theorem cons (h : Edits n a b) (x : Char) : Edits n (x :: a) (x :: b) := by
  induction h with
  | refl => exact .refl _
  | step first _ ih => exact .step (first.cons x) ih

theorem insert (h : Edits n a b) (d : Char) : Edits (n + 1) a (d :: b) :=
  .step (.insert [] d a) (h.cons d)

theorem delete (h : Edits n a b) (c : Char) : Edits (n + 1) (c :: a) b :=
  .step (.delete [] c a) h

theorem keep (h : Edits n a b) (c d : Char) :
    Edits (n + if c = d then 0 else 1) (c :: a) (d :: b) := by
  split
  · next hcd => exact hcd ▸ h.cons c
  · exact .step (.replace [] c d a) (h.cons d)

end Edits

/-- Along the recursion, every entry is the number of edits that lead to it. -/
theorem edits_editDistance (a b : Text) : Edits (editDistance a b) a b := by
  induction a generalizing b with
  | nil =>
    induction b with
    | nil => exact .refl []
    | cons d b ih =>
      rw [editDistance_nil_left] at ih ⊢
      exact ih.insert d
  | cons c a iha =>
    induction b with
    | nil =>
      have hdelete := (iha []).delete c
      rwa [editDistance_nil_right] at hdelete ⊢
    | cons d b ihb =>
      rw [editDistance_cons_cons]
      obtain h | h := min_choice (min (editDistance a (d :: b) + 1) (editDistance (c :: a) b + 1))
        (editDistance a b + if c = d then 0 else 1)
      · obtain h' | h' := min_choice (editDistance a (d :: b) + 1) (editDistance (c :: a) b + 1)
        · rw [h, h']
          exact (iha (d :: b)).delete c
        · rw [h, h']
          exact ihb.insert d
      · rw [h]
        exact (iha b).keep c d

/-! ## No fewer edits -/

theorem editDistance_cons_right_le (a : Text) (d : Char) (b : Text) :
    editDistance a (d :: b) ≤ editDistance a b + 1 := by
  cases a with
  | nil => simp
  | cons c a =>
    rw [editDistance_cons_cons]
    omega

theorem editDistance_cons_left_le (c : Char) (a b : Text) :
    editDistance (c :: a) b ≤ editDistance a b + 1 := by
  cases b with
  | nil => simp
  | cons d b =>
    rw [editDistance_cons_cons]
    omega

theorem editDistance_le_cons_left (c : Char) (a b : Text) :
    editDistance a b ≤ editDistance (c :: a) b + 1 := by
  induction b with
  | nil =>
    simp only [editDistance_nil_right, List.length_cons]
    omega
  | cons d b ih =>
    have hinsert := editDistance_cons_right_le a d b
    rw [editDistance_cons_cons]
    omega

theorem editDistance_replace_le (c c' : Char) (a b : Text) :
    editDistance (c :: a) b ≤ editDistance (c' :: a) b + 1 := by
  induction b with
  | nil => simp
  | cons d b ih =>
    have hcost : (if c = d then 0 else 1) ≤ 1 := by split <;> omega
    rw [editDistance_cons_cons, editDistance_cons_cons]
    omega

/-- What holds of two texts, whichever third one they are compared with, holds behind the same
character. -/
theorem editDistance_cons_le {a a' : Text}
    (h : ∀ b, editDistance a b ≤ editDistance a' b + 1) (c : Char) (b : Text) :
    editDistance (c :: a) b ≤ editDistance (c :: a') b + 1 := by
  induction b with
  | nil =>
    have hnil := h []
    simp only [editDistance_nil_right, List.length_cons] at hnil ⊢
    omega
  | cons d b ih =>
    have hdelete := h (d :: b)
    have hkeep := h b
    rw [editDistance_cons_cons, editDistance_cons_cons]
    omega

theorem editDistance_append_le {a a' : Text}
    (h : ∀ b, editDistance a b ≤ editDistance a' b + 1) (before b : Text) :
    editDistance (before ++ a) b ≤ editDistance (before ++ a') b + 1 := by
  induction before generalizing b with
  | nil => exact h b
  | cons c before ih => exact editDistance_cons_le ih c b

/-- One edit of the first text takes at most one from the distance. -/
theorem Edit.editDistance_le {a a' : Text} (h : Edit a a') (b : Text) :
    editDistance a b ≤ editDistance a' b + 1 := by
  cases h with
  | insert before c behind =>
    exact editDistance_append_le (editDistance_le_cons_left c behind) before b
  | delete before c behind =>
    exact editDistance_append_le (editDistance_cons_left_le c behind) before b
  | replace before c d behind =>
    exact editDistance_append_le (editDistance_replace_le c d behind) before b

@[simp] theorem editDistance_self (a : Text) : editDistance a a = 0 := by
  induction a with
  | nil => rfl
  | cons c a ih => simp [editDistance_cons_cons, ih]

theorem Edits.editDistance_le (h : Edits n a b) : editDistance a b ≤ n := by
  induction h with
  | refl a => rw [editDistance_self]
  | @step n a a' b first _ ih =>
    have hfirst := first.editDistance_le b
    omega

/-! ## The least number -/

theorem isLeast_editDistance (a b : Text) : IsLeast {n | Edits n a b} (editDistance a b) :=
  ⟨edits_editDistance a b, fun _ h => h.editDistance_le⟩

example : editDistance "kitten".toList "sitting".toList = 3 := by decide

/-- A text can be reached by a number of edits or fewer iff it is that near. -/
theorem exists_edits_iff : (∃ k ≤ n, Edits k a b) ↔ editDistance a b ≤ n := by
  constructor
  · rintro ⟨k, hk, h⟩
    exact h.editDistance_le.trans hk
  · intro h
    exact ⟨editDistance a b, h, edits_editDistance a b⟩

theorem editDistance_triangle (a b c : Text) :
    editDistance a c ≤ editDistance a b + editDistance b c :=
  ((edits_editDistance a b).trans (edits_editDistance b c)).editDistance_le

end DocumentSearch.Text
