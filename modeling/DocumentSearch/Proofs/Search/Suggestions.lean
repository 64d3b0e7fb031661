import DocumentSearch.Proofs.Lists
import DocumentSearch.Proofs.Text.LowerCase
import DocumentSearch.Search.Index

/-!
# Suggestions

What is suggested for an input are the titles and tags in which it occurs, whatever their case, in
the order of the index, and of those that differ in case only the first. Only what is found can
stand in the way of what comes later, and the limit counts what is left in the end.

Results:

* `distinctFolded_eq_firstSpellings`: the loop over the candidates keeps the first spellings.
* `mem_firstSpellings_iff`, `pairwise_firstSpellings`: which spellings these are.
* `suggest_eq_take_firstSpellings`: what is suggested.
-/

namespace DocumentSearch

open Text

/-! ## First spellings -/

/-- The texts of the list whose lower case is not that of an earlier one. -/
def firstSpellings (ts : List Text) : List Text :=
  (ts.zipIdx.filter fun (t, i) => (ts.take i).all fun s => lower s != lower t).map Prod.fst

/-- The loop behind texts that it has gone through, whose lower cases it has seen. -/
theorem distinctFolded_eq {seen : List Text} (before ts : List Text)
    (hseen : ∀ x, x ∈ seen ↔ x ∈ before.map lower) :
    Index.distinctFolded seen ts =
      ((ts.zipIdx before.length).filter fun (t, i) =>
        ((before ++ ts).take i).all fun s => lower s != lower t).map Prod.fst := by
  induction ts generalizing seen before with
  | nil => rfl
  | cons t ts ih =>
    -- the text joins those behind the loop, and its lower case is among those seen from now on
    have hbehind : (before ++ [t]).length = before.length + 1 := List.length_append
    rw [Index.distinctFolded, List.zipIdx_cons]
    by_cases hold : lower t ∈ seen
    · rw [if_pos (List.contains_iff_mem.2 hold),
        List.filter_cons_of_neg (by simpa [hseen] using hold), List.append_cons, ← hbehind]
      refine ih _ fun x => ?_
      rw [List.map_append, List.mem_append, ← hseen]
      constructor
      · exact .inl
      · rintro (hx | hx)
        · exact hx
        · rwa [List.mem_singleton.1 hx]
    · rw [if_neg (mt List.contains_iff_mem.1 hold),
        List.filter_cons_of_pos (by simpa [hseen] using hold), List.map_cons, List.append_cons,
        ← hbehind]
      refine congrArg _ (ih _ fun x => ?_)
      rw [List.map_append, List.mem_append, ← hseen, List.mem_cons, or_comm, List.map_singleton,
        List.mem_singleton]

/-- The loop keeps the first spellings. -/
theorem distinctFolded_eq_firstSpellings (ts : List Text) :
    Index.distinctFolded [] ts = firstSpellings ts :=
  distinctFolded_eq [] ts (by simp)

theorem mem_firstSpellings_iff {ts : List Text} {t : Text} :
    t ∈ firstSpellings ts ↔ IsFirst (fun s => lower s = lower t) ts t := by
  simp only [firstSpellings, List.mem_map, List.mem_filter, Prod.exists,
    List.mem_zipIdx_iff_getElem?]
  constructor
  · rintro ⟨_, i, ⟨hget, hearlier⟩, rfl⟩
    obtain ⟨hi, rfl⟩ := List.getElem?_eq_some_iff.1 hget
    refine ⟨rfl, ts.take i, ts.drop (i + 1), ?_, ?_⟩
    · rw [List.getElem_cons_drop, List.take_append_drop]
    · simpa using hearlier
  · rintro ⟨-, before, behind, rfl, hbefore⟩
    refine ⟨t, before.length, ⟨by simp, ?_⟩, rfl⟩
    simpa using hbefore

theorem pairwise_firstSpellings (ts : List Text) :
    (firstSpellings ts).Pairwise fun s t => lower s ≠ lower t := by
  rw [firstSpellings, List.pairwise_map, List.pairwise_filter, List.pairwise_iff_getElem]
  intro i j hi hj hij _ hlater
  rw [List.length_zipIdx] at hi hj
  simp only [List.getElem_zipIdx, Nat.zero_add, List.all_eq_true, bne_iff_ne] at hlater ⊢
  apply hlater
  exact List.mem_take_iff_getElem.2 ⟨i, by omega, rfl⟩

/-- Every spelling stands for itself or comes after the one that stands for it. -/
theorem exists_mem_firstSpellings {ts : List Text} {t : Text} (h : t ∈ ts) :
    ∃ s ∈ firstSpellings ts, lower s = lower t := by
  obtain ⟨s, hs⟩ := exists_isFirst_of_exists (p := fun s => lower s = lower t) ⟨t, h, rfl⟩
  refine ⟨s, mem_firstSpellings_iff.2 ?_, hs.1⟩
  rwa [hs.1]

/-! ## Suggestions -/

namespace Index

variable {α : Type}

/-- The titles and tags in which the input occurs, without the white space around it and whatever
their case, document by document in the order of the index, each title before the tags. -/
def found (index : Index α) (input : Text) : List Text :=
  (index.documents.flatMap fun d => d.title :: d.tags).filter fun t =>
    occursIn (lower (trim input)) (lower t)

theorem suggest_eq (index : Index α) (input : Text) (limit : Nat) :
    index.suggest input limit =
      if trim input = [] then [] else (firstSpellings (index.found input)).take limit := by
  rw [suggest, distinctFolded_eq_firstSpellings]
  by_cases hblank : trim input = []
  · simp [hblank]
  · rw [if_neg hblank, if_neg (by simpa using lower_ne_nil hblank)]
    rfl

/-- What is suggested are the first spellings of the titles and tags that are found, up to the
limit, and nothing for blank input. So no two suggestions differ in case only, all that is found is
suggested in some case if there are fewer suggestions than the limit allows, and a greater limit
only adds suggestions at the end. -/
theorem suggest_eq_take_firstSpellings (index : Index α) (input : Text) (limit : Nat) :
    (trim input = [] → index.suggest input limit = []) ∧
    (trim input ≠ [] →
      index.suggest input limit = (firstSpellings (index.found input)).take limit ∧
      ((index.suggest input limit).length < limit →
        ∀ t ∈ index.found input, ∃ s ∈ index.suggest input limit, lower s = lower t)) ∧
    (index.suggest input limit).Pairwise (fun s t => lower s ≠ lower t) ∧
    ∀ limit', limit ≤ limit' → index.suggest input limit <+: index.suggest input limit' := by
  refine ⟨fun hblank => ?_, fun hinput => ?_, ?_, fun limit' hle => ?_⟩
  · rw [suggest_eq, if_pos hblank]
  · have hsuggest : index.suggest input limit =
        (firstSpellings (index.found input)).take limit := by rw [suggest_eq, if_neg hinput]
    refine ⟨hsuggest, fun hlength t ht => ?_⟩
    rw [hsuggest, List.length_take] at hlength
    rw [hsuggest, List.take_of_length_le (by omega)]
    exact exists_mem_firstSpellings ht
  · rw [suggest_eq]
    split
    · exact .nil
    · exact (pairwise_firstSpellings _).sublist (List.take_sublist _ _)
  · rw [suggest_eq, suggest_eq]
    split
    · exact List.prefix_rfl
    · exact List.take_prefix_take_left hle

/-- The tags `react` and `REACT` are found, but stand behind `React`; `hooks` is not found. -/
theorem suggest_eq_take_firstSpellings_react :
    let items : List Item :=
      [(Item.named "React Hooks".toList).withTags ["hooks".toList, "React".toList],
       (Item.named "react/intro".toList).withTags ["react".toList, "REACT".toList]]
    let index : Index Rat := Index.build .standard items
    let input := " REa\t".toList
    index.suggest input 4 = ["React Hooks".toList, "React".toList, "react/intro".toList] ∧
      index.suggest input 2 <+: index.suggest input 4 ∧
      ∃ s ∈ index.suggest input 4, lower s = lower "REACT".toList := by
  intro items index input
  have hsuggest : index.suggest input 4 =
      ["React Hooks".toList, "React".toList, "react/intro".toList] := by decide +kernel
  obtain ⟨-, hfound, -, -⟩ := index.suggest_eq_take_firstSpellings input 4
  obtain ⟨-, hshown⟩ := hfound (by decide)
  refine ⟨hsuggest, (index.suggest_eq_take_firstSpellings input 2).2.2.2 4 (by decide), ?_⟩
  exact hshown (by rw [hsuggest]; decide) _ (by decide +kernel)

end Index

end DocumentSearch
