import DocumentSearch.Text.Basic
import Mathlib.Data.List.Induction

/-!
# Tables, first elements and sorted lists

Facts about lists that the rest of the theory asks for.

Results:

* `lookup_isSome_iff`: something is found under the keys of a table and under no others.
* `lookup_eq_some_iff_mem`: in a table with every key once, the entries are what is found.
* `find?_eq_some_iff_isFirst`: a search finds the first element with the property.
* `exists_isFirst_of_exists`: if there is one, there is a first one.
* `findSome?_range_eq_some`: what is found at a number was found at no smaller one.
* `pairwise_idxOf_eraseDups`: without repetitions, elements stand in order of first place.
* `eq_of_pairwise_of_mem_iff`: a list in strict order is determined by what is in it.
* `pairwise_mergeSort`: sorting is stable.
-/

namespace DocumentSearch

/-! ## Tables -/

section Tables

variable {α β : Type} [BEq α] [LawfulBEq α] {table : List (α × β)} {key : α}

theorem lookup_isSome_iff : (table.lookup key).isSome ↔ key ∈ table.map Prod.fst := by
  rw [Option.isSome_iff_ne_none, Ne, List.lookup_eq_none_iff]
  simp

theorem lookup_eq_none_iff_notMem : table.lookup key = none ↔ key ∉ table.map Prod.fst := by
  rw [← lookup_isSome_iff, Option.not_isSome_iff_eq_none]

theorem lookup_eq_some_iff_mem (h : (table.map Prod.fst).Nodup) {value : β} :
    table.lookup key = some value ↔ (key, value) ∈ table := by
  rw [List.lookup_eq_some_iff]
  constructor
  · rintro ⟨before, behind, rfl, -⟩
    exact List.mem_append_right _ List.mem_cons_self
  · intro hmem
    obtain ⟨before, behind, rfl⟩ := List.append_of_mem hmem
    refine ⟨before, behind, rfl, fun entry hentry => bne_iff_ne.2 fun he => ?_⟩
    rw [List.map_append, List.nodup_append] at h
    exact h.2.2 entry.1 (List.mem_map_of_mem hentry) key List.mem_cons_self he.symm

end Tables

/-! ## First elements -/

/-- The element is the first one of the list with the property. -/
def IsFirst {α : Type} (p : α → Prop) (xs : List α) (x : α) : Prop :=
  p x ∧ ∃ before behind, xs = before ++ x :: behind ∧ ∀ y ∈ before, ¬ p y

theorem find?_eq_some_iff_isFirst {α : Type} {p : α → Bool} {xs : List α} {x : α} :
    xs.find? p = some x ↔ IsFirst (fun y => p y = true) xs x := by
  simp only [List.find?_eq_some_iff_append, IsFirst, Bool.not_eq_true', Bool.not_eq_true]

/-- If there is an element with the property, there is a first one. -/
theorem exists_isFirst_of_exists {α : Type} {p : α → Prop} {xs : List α} (h : ∃ x ∈ xs, p x) :
    ∃ x, IsFirst p xs x := by
  classical
  obtain ⟨x, hmem, hx⟩ := h
  have hfound : (xs.find? fun x => decide (p x)).isSome = true :=
    List.find?_isSome.2 ⟨x, hmem, decide_eq_true hx⟩
  obtain ⟨first, hfirst⟩ := Option.isSome_iff_exists.1 hfound
  rw [find?_eq_some_iff_isFirst] at hfirst
  exact ⟨first, by simpa only [decide_eq_true_eq] using hfirst⟩

theorem eraseDups_append_singleton {α : Type} [DecidableEq α] (xs : List α) (x : α) :
    (xs ++ [x]).eraseDups = xs.eraseDups ++ if x ∈ xs then [] else [x] := by
  rw [List.eraseDups_append]
  by_cases hx : x ∈ xs <;> simp [List.removeAll, hx, List.eraseDups_cons]

/-- Without its repetitions, a list stands in the order in which its elements come up. -/
theorem pairwise_idxOf_eraseDups {α : Type} [DecidableEq α] (xs : List α) :
    xs.eraseDups.Pairwise fun a b => xs.idxOf a < xs.idxOf b := by
  induction xs using List.reverseRecOn with
  | nil => exact .nil
  | append_singleton xs x ih =>
    have hold {a : α} (ha : a ∈ xs.eraseDups) : (xs ++ [x]).idxOf a = xs.idxOf a := by
      rw [List.idxOf_append, if_pos (List.mem_eraseDups.1 ha)]
    have hearlier : xs.eraseDups.Pairwise fun a b =>
        (xs ++ [x]).idxOf a < (xs ++ [x]).idxOf b :=
      ih.imp_of_mem fun ha hb hlt => by rwa [hold ha, hold hb]
    rw [eraseDups_append_singleton]
    split
    · rwa [List.append_nil]
    · next hx =>
      refine List.pairwise_append.2 ⟨hearlier, List.pairwise_singleton _ _, fun a ha b hb => ?_⟩
      rw [List.mem_singleton.1 hb, hold ha, List.idxOf_append, if_neg hx]
      exact Nat.lt_add_left _ (List.idxOf_lt_length_of_mem (List.mem_eraseDups.1 ha))

theorem findSome?_range_eq_some {β : Type} {f : Nat → Option β} {n : Nat} {b : β}
    (h : (List.range n).findSome? f = some b) : ∃ i < n, f i = some b ∧ ∀ j < i, f j = none := by
  induction n with
  | zero => cases h
  | succ n ih =>
    rw [List.range_succ, List.findSome?_append, Option.or_eq_some_iff] at h
    rcases h with h | ⟨hnone, h⟩
    · obtain ⟨i, hi, hfound, hearlier⟩ := ih h
      exact ⟨i, by omega, hfound, hearlier⟩
    · have hlast : f n = some b := by
        rw [← h]
        cases hn : f n <;> simp [List.findSome?, hn]
      refine ⟨n, by omega, hlast, fun j hj => ?_⟩
      exact List.findSome?_eq_none_iff.1 hnone j (List.mem_range.2 hj)

/-! ## Sorted lists -/

section Sorted

variable {α : Type} {R : α → α → Prop}

/-- A list in strict order is determined by what is in it. -/
theorem eq_of_pairwise_of_mem_iff {xs ys : List α} (hasymm : ∀ {a b}, R a b → ¬ R b a)
    (hxs : xs.Pairwise R) (hys : ys.Pairwise R) (hmem : ∀ a, a ∈ xs ↔ a ∈ ys) : xs = ys := by
  have hne {a b : α} (h : R a b) : a ≠ b := by
    rintro rfl
    exact hasymm h h
  have hperm : xs.Perm ys := (List.perm_ext_iff_of_nodup (hxs.imp hne) (hys.imp hne)).2 hmem
  exact hperm.eq_of_pairwise (fun a b _ _ hab hba => absurd hba (hasymm hab)) hxs hys

/-- What is equal for the sort stays in its order. -/
theorem pairwise_mergeSort {le : α → α → Bool} (htrans : ∀ a b c, le a b → le b c → le a c)
    (htotal : ∀ a b, le a b || le b a) {xs : List α}
    (h : xs.Pairwise fun a b => le a b = true → le b a = true → R a b) :
    (xs.mergeSort le).Pairwise fun a b => le a b = true ∧ (le b a = true → R a b) := by
  have hsorted := List.pairwise_mergeSort (List.zipIdxLE_trans htrans) (List.zipIdxLE_total htotal)
    xs.zipIdx
  have hplaces : (xs.zipIdx.mergeSort (List.zipIdxLE le)).Pairwise fun a b => a.2 ≠ b.2 := by
    rw [(List.mergeSort_perm _ _).pairwise_iff fun h => Ne.symm h]
    refine List.pairwise_map.1 ?_
    rw [List.zipIdx_map_snd]
    exact List.nodup_range'
  rw [← List.mergeSort_zipIdx, List.pairwise_map]
  refine (hsorted.and hplaces).imp_of_mem ?_
  rintro ⟨a, i⟩ ⟨b, j⟩ ha hb ⟨hle, hne⟩
  simp only [List.mem_mergeSort, List.mem_zipIdx_iff_getElem?, List.getElem?_eq_some_iff] at ha hb
  obtain ⟨hi, rfl⟩ := ha
  obtain ⟨hj, rfl⟩ := hb
  simp only [List.zipIdxLE, Bool.if_false_right, Bool.and_eq_true] at hle
  have hab := of_decide_eq_true hle.1
  refine ⟨hab, fun hback => ?_⟩
  have hij : i ≤ j := by simpa [hback] using hle.2
  exact List.pairwise_iff_getElem.1 h i j hi hj (by simp only at hne; omega) hab hback

end Sorted

end DocumentSearch
