import DocumentSearch.Proofs.Text.Scan
import Mathlib.Data.Finset.Max
import Mathlib.Order.Bounds.Basic

/-!
# How often a text can occur

Occurrences are counted from left to right, and each one that is counted rules out those that
overlap it. No other choice would count more: any set of places at which the needle occurs without
overlap can be gone through from left to right, too, and is then a packing, which has no more pieces
than the scan has hits. So two texts put together hold no fewer occurrences than the two apart.

Results:

* `packing_iff_exists_isPlacement`: packings and sets of places come to the same.
* `isGreatest_occurrences`: what is counted is the greatest number of places.
-/

namespace DocumentSearch.Text

/-- The needle occurs at each of the places, and no two of these occurrences overlap. -/
structure IsPlacement (needle t : Text) (starts : Finset Nat) : Prop where
  occurs : ∀ i ∈ starts, needle <+: t.drop i
  apart : ∀ i ∈ starts, ∀ j ∈ starts, i ≠ j → i + needle.length ≤ j ∨ j + needle.length ≤ i

namespace IsPlacement

variable {needle t : Text} {starts : Finset Nat} {i : Nat}

theorem empty (needle t : Text) : IsPlacement needle t ∅ := ⟨by simp, by simp⟩

theorem of_insert (h : IsPlacement needle t (insert i starts)) : IsPlacement needle t starts where
  occurs j hj := h.occurs j (Finset.mem_insert_of_mem hj)
  apart j hj k hk := h.apart j (Finset.mem_insert_of_mem hj) k (Finset.mem_insert_of_mem hk)

/-- A place in front of all others, at a distance from them. -/
theorem addFirst (h : IsPlacement needle t starts) (hi : needle <+: t.drop i)
    (hle : ∀ j ∈ starts, i + needle.length ≤ j) : IsPlacement needle t (insert i starts) where
  occurs := Finset.forall_mem_insert _ _ _ |>.2 ⟨hi, h.occurs⟩
  apart := by
    simp only [Finset.mem_insert]
    rintro j (rfl | hj) k (rfl | hk) hne
    · exact absurd rfl hne
    · exact .inl (hle k hk)
    · exact .inr (hle j hj)
    · exact h.apart j hj k hk hne

end IsPlacement

/-! ## Packings -/

section Packings

variable {needle t : Text}

/-- Where the needle occurs in the text, seen from a place before. -/
theorem drop_eq_of_isPrefix {m i : Nat} (hmi : m ≤ i) (hi : needle <+: t.drop i) :
    t.drop m = (t.drop m).take (i - m) ++ (needle ++ t.drop (i + needle.length)) := by
  obtain ⟨rest, hrest⟩ := hi
  have hbehind : t.drop (i + needle.length) = rest := by
    rw [← List.drop_drop, ← hrest, List.drop_left]
  have hhere : (t.drop m).drop (i - m) = t.drop i := by
    rw [List.drop_drop, Nat.add_sub_cancel' hmi]
  rw [hbehind, hrest, ← hhere, List.take_append_drop]

/-- The places of a packing, which all lie behind `m` if the packing does. -/
theorem Packing.exists_isPlacement (hne : needle ≠ []) {m k : Nat}
    (h : Packing (· = needle) (t.drop m) k) :
    ∃ starts : Finset Nat, IsPlacement needle t starts ∧ (∀ i ∈ starts, m ≤ i) ∧
      starts.card = k := by
  generalize hbehind : t.drop m = s at h
  induction h generalizing m with
  | none => exact ⟨∅, .empty needle t, by simp, rfl⟩
  | @next gap found s k hfound tail ih =>
    subst hfound
    have hi : t.drop (m + gap.length) = found ++ s := by
      rw [← List.drop_drop, hbehind, List.drop_left]
    obtain ⟨starts, hstarts, hle, hcard⟩ := ih (m := m + gap.length + found.length) (by
      rw [← List.drop_drop, hi, List.drop_left])
    have hlength := List.length_pos_iff.2 hne
    have hnew : m + gap.length ∉ starts := fun hmem => by
      have := hle _ hmem
      omega
    refine ⟨insert (m + gap.length) starts, hstarts.addFirst ⟨s, hi.symm⟩ hle, ?_, ?_⟩
    · rw [Finset.forall_mem_insert]
      exact ⟨Nat.le_add_right _ _, fun i hi => by have := hle i hi; omega⟩
    · rw [Finset.card_insert_of_notMem hnew, hcard]

/-- Places behind `m`, gone through from left to right, make a packing. -/
theorem IsPlacement.packing {starts : Finset Nat} (h : IsPlacement needle t starts) {m : Nat}
    (hm : ∀ i ∈ starts, m ≤ i) : Packing (· = needle) (t.drop m) starts.card := by
  induction starts using Finset.induction_on_min generalizing m with
  | empty => exact .none
  | insert i starts hlt ih =>
    have hi : i ∈ insert i starts := Finset.mem_insert_self i starts
    have hle : ∀ j ∈ starts, i + needle.length ≤ j := fun j hj => by
      have := hlt j hj
      have := h.apart i hi j (Finset.mem_insert_of_mem hj) (Nat.ne_of_lt this)
      omega
    have hnew : i ∉ starts := fun hmem => Nat.lt_irrefl i (hlt i hmem)
    rw [Finset.card_insert_of_notMem hnew, drop_eq_of_isPrefix (hm i hi) (h.occurs i hi)]
    exact .next rfl (ih h.of_insert hle)

/-- As many pieces stand side by side as there are places without overlap. -/
theorem packing_iff_exists_isPlacement (hne : needle ≠ []) {k : Nat} :
    Packing (· = needle) t k ↔
      ∃ starts : Finset Nat, IsPlacement needle t starts ∧ starts.card = k := by
  constructor
  · intro h
    obtain ⟨starts, hstarts, -, hcard⟩ := Packing.exists_isPlacement (m := 0) hne h
    exact ⟨starts, hstarts, hcard⟩
  · rintro ⟨starts, hstarts, rfl⟩
    exact hstarts.packing (m := 0) fun i _ => Nat.zero_le i

theorem Packing.append {P : Text → Prop} {s : Text} {j k : Nat} (hs : Packing P s j)
    (ht : Packing P t k) : Packing P (s ++ t) (j + k) := by
  induction hs with
  | none => simpa using ht.prepend _
  | next hfound _ ih =>
    rw [List.append_assoc, List.append_assoc, Nat.succ_add]
    exact .next hfound ih

end Packings

/-! ## Counting -/

section Counting

variable {needle : Text} (hne : needle ≠ [])
include hne

theorem packing_occurrences (t : Text) : Packing (· = needle) t (occurrences needle t) :=
  (scan_cuts _ hne t).packing.mono fun _ => isSame_beq_iff.1

theorem le_occurrences_of_packing {t : Text} {k : Nat} (h : Packing (· = needle) t k) :
    k ≤ occurrences needle t :=
  (scan_cuts _ hne t).length_maximal (isUniform_isSame _ hne)
    (h.mono fun _ => isSame_beq_iff.2)

/-- What is counted is the greatest number of places at which the needle occurs without overlap. So
what is counted in two texts is counted in the two put together, and there may be one more where
they meet. -/
theorem isGreatest_occurrences :
    (∀ t, IsGreatest {k | ∃ starts, IsPlacement needle t starts ∧ starts.card = k}
      (occurrences needle t)) ∧
    ∀ s t, occurrences needle s + occurrences needle t ≤ occurrences needle (s ++ t) := by
  refine ⟨fun t => ⟨?_, fun k hk => ?_⟩, fun s t => ?_⟩
  · exact (packing_iff_exists_isPlacement hne).1 (packing_occurrences hne t)
  · exact le_occurrences_of_packing hne ((packing_iff_exists_isPlacement hne).2 hk)
  · exact le_occurrences_of_packing hne
      ((packing_occurrences hne s).append (packing_occurrences hne t))

end Counting

/-- The needle overlaps itself, and the place in the middle is passed over. -/
theorem isGreatest_occurrences_overlapping :
    let needle := "aba".toList
    needle ≠ [] ∧ IsPlacement needle "ababaaba".toList {0, 5} ∧
      IsPlacement needle "ababaaba".toList {2, 5} ∧
      IsGreatest {k | ∃ starts, IsPlacement needle "ababaaba".toList starts ∧ starts.card = k} 2 ∧
      occurrences needle "abab".toList + occurrences needle "aaba".toList ≤
        occurrences needle ("abab".toList ++ "aaba".toList) := by
  intro needle
  have hne : needle ≠ [] := by decide
  have hcount : occurrences needle "ababaaba".toList = 2 := by decide +kernel
  refine ⟨hne, ⟨by decide, by decide⟩, ⟨by decide, by decide⟩, ?_, ?_⟩
  · rw [← hcount]
    exact (isGreatest_occurrences hne).1 "ababaaba".toList
  · exact (isGreatest_occurrences hne).2 "abab".toList "aaba".toList

end DocumentSearch.Text
