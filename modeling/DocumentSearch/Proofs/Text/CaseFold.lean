import DocumentSearch.Proofs.Text.LowerCase
import DocumentSearch.Text.CaseFold

/-!
# Laws of case folding

A text and its lower case are the same up to case, wherever its sigmas stand, as long as it has no
capital `İ`: that is the one character with a lower case of two characters, and it folds to itself.

Results:

* `map_foldChar_lowerBetween`: a piece of a text, without `İ`, folds as its lower case does.
* `foldChar_eq_iff`: nothing but itself folds to a line feed or to `İ`.
-/

namespace DocumentSearch.Text

/-! ## The two tables -/

/-- What no character folds to: the surrogates, two characters, and all that folds on. -/
def caseFoldStops : List Shift := surrogates :: (['\n', 'İ'].map .single ++ caseFoldShifts)

theorem caseFoldShifts_settle : Settles caseFoldShifts caseFoldStops :=
  ⟨List.mem_cons_self, by decide +kernel⟩

theorem ascendingFrom_caseFoldShifts : ascendingFrom 0 caseFoldShifts = true := by decide +kernel

/-- Characters fold to their lower case. Only Cherokee letters are folded to the capital one. -/
theorem any_same_caseFoldShifts : lowerCaseShifts.all fun s =>
    caseFoldShifts.any s.same || caseFoldShifts.any s.reverse.same := by
  decide +kernel

theorem mem_or_reverse_mem_caseFoldShifts {s : Shift} (hs : s ∈ lowerCaseShifts) :
    s ∈ caseFoldShifts ∨ s.reverse ∈ caseFoldShifts := by
  have h := List.all_eq_true.1 any_same_caseFoldShifts s hs
  simp only [Bool.or_eq_true, List.any_eq_true] at h
  rcases h with ⟨r, hr, h⟩ | ⟨r, hr, h⟩
  · exact .inl (Shift.eq_of_same h ▸ hr)
  · exact .inr (Shift.eq_of_same h ▸ hr)

/-! ## Characters -/

theorem foldChar_of_shifted? {c : Char} {n : Nat} (h : shifted? caseFoldShifts c.toNat = some n) :
    foldChar c = Char.ofNat n := by
  rw [foldChar, h]

theorem foldChar_of_shifted?_eq_none {c : Char} (h : shifted? caseFoldShifts c.toNat = none) :
    foldChar c = c := by
  rw [foldChar, h]

theorem foldChar_ofNat {n m : Nat} (h : shifted? caseFoldShifts n = some m) :
    foldChar (Char.ofNat m) = Char.ofNat m := by
  apply foldChar_of_shifted?_eq_none
  rw [caseFoldShifts_settle.toNat_ofNat h]
  exact caseFoldShifts_settle.shifted?_eq_none h
    (List.subset_cons_of_subset _ (List.subset_append_right _ _))

theorem foldChar_eq_iff {c d : Char} (hd : d ∈ ['\n', 'İ']) : foldChar c = d ↔ c = d := by
  cases h : shifted? caseFoldShifts c.toNat with
  | none => rw [foldChar_of_shifted?_eq_none h]
  | some n =>
    have hne : Char.ofNat n ≠ d := caseFoldShifts_settle.ofNat_ne h
      (List.mem_cons_of_mem _ (List.mem_append_left _ (List.mem_map_of_mem hd)))
    have hself : ['\n', 'İ'].all (fun d => foldChar d == d) = true := by decide
    rw [foldChar_of_shifted? h]
    refine iff_of_false hne fun e => hne ?_
    rw [← foldChar_of_shifted? h, e, beq_iff_eq.1 (List.all_eq_true.1 hself d hd)]

/-- A character other than `İ` is the same as its lower case, up to case. -/
theorem exists_lowerChar_eq {c : Char} (hc : c ≠ 'İ') :
    ∃ d, lowerChar c = [d] ∧ foldChar d = foldChar c := by
  rw [lowerChar, if_neg hc]
  cases h : shifted? lowerCaseShifts c.toNat with
  | none => exact ⟨c, rfl, rfl⟩
  | some n =>
    refine ⟨Char.ofNat n, rfl, ?_⟩
    have hn := lowerCaseShifts_settle.toNat_ofNat h
    obtain ⟨s, hs, hmoves, rfl⟩ := exists_of_shifted? h
    have hfirst := (lowerCaseShifts_settle.avoids s hs).1
    rcases mem_or_reverse_mem_caseFoldShifts hs with hs | hs
    · have hfold := shifted?_eq_some_of_moves ascendingFrom_caseFoldShifts hs hmoves
      rw [foldChar_of_shifted? hfold, foldChar_ofNat hfold]
    · have hfold := shifted?_eq_some_of_moves ascendingFrom_caseFoldShifts hs
        (Shift.moves_reverse hfirst hmoves)
      have hback : (((c.toNat + s.distance).toNat : Int) + s.reverse.distance).toNat = c.toNat := by
        have := (Shift.moves_eq_true_iff.1 hmoves).1
        simp only [Shift.reverse]
        omega
      rw [hback] at hfold
      have hfolded := foldChar_ofNat hfold
      rw [Char.ofNat_toNat] at hfolded
      rw [foldChar_of_shifted? (hn.symm ▸ hfold), Char.ofNat_toNat, hfolded]

/-! ## Texts -/

theorem map_foldChar_lowerBetween {t : Text} (h : 'İ' ∉ t) (before : Bool) (behind : Text) :
    (lowerBetween before behind t).map foldChar = t.map foldChar := by
  induction t generalizing before with
  | nil => rfl
  | cons c t ih =>
    rw [List.mem_cons, not_or] at h
    rw [lowerBetween, List.map_append, ih h.2]
    by_cases hc : c = 'Σ'
    · subst hc
      rw [if_pos rfl]
      split <;> rfl
    · obtain ⟨d, hd, hfold⟩ := exists_lowerChar_eq (Ne.symm h.1)
      rw [if_neg hc, hd, List.map_singleton, hfold]
      rfl

end DocumentSearch.Text
