import DocumentSearch.Proofs.Search.Ranking

/-!
# The Boolean algebra of searches

Texts that are joined by an operator find the intersection, the union or the difference of what the
parts find. Nothing of one part can reach into the other one, and as long as the parts leave room
below the depth limit the whole is a query, too.

Results:

* `mem_foundIds_iff`: an id is found iff the query matches the document that the item becomes.
* `foundIds_combine`: the operators on texts are the operations on sets of ids.
-/

namespace DocumentSearch

variable {α : Type}

/-- The ids of the documents that were found. -/
def foundIds (results : List (Result α)) : Set Nat := {id | ∃ r ∈ results, r.id = id}

theorem length_documentsOf (items : List Item) :
    (Index.documentsOf items).length = items.length := by
  simp [Index.documentsOf]

variable [Score α]

/-! ## What is found -/

section Found

variable [PatternReader]

/-- A limit that no list of results can reach cuts nothing off. -/
theorem mem_rank_iff {config : Config α} {items : List Item} {q : Query} {limit : Nat}
    (hlimit : items.length ≤ limit) {r : Result α} :
    r ∈ rank config q (Index.documentsOf items) limit ↔ IsHit config items q r := by
  have hle : (matching config q (Index.documentsOf items)).length ≤ limit := by
    have : (matching config q (Index.documentsOf items)).length ≤
        (Index.documentsOf items).length := List.length_filterMap_le _ _
    rw [length_documentsOf] at this
    omega
  rw [← mem_matching_iff, rank, best,
    List.take_of_length_le (by rwa [List.length_mergeSort])]
  exact List.mem_mergeSort

theorem mem_foundIds_iff (config : Config α) (items : List Item) {limit : Nat}
    (hlimit : items.length ≤ limit) {t : Text} {q : Query} (h : Query.ofText t = .ok q) (id : Nat) :
    id ∈ foundIds ((Index.build config items).searchWithLimit t limit) ↔
      ∃ item, items[id]? = some item ∧ Matches config q (Document.ofItem id item) := by
  rw [searchWithLimit_of_ofText_eq_ok _ h]
  constructor
  · rintro ⟨r, hr, rfl⟩
    obtain ⟨d, hd, hmatch, hshows⟩ := (mem_rank_iff hlimit).1 hr
    obtain ⟨item, hitem, hd'⟩ := mem_documentsOf_iff.1 hd
    rw [hshows.id_eq]
    exact ⟨item, hitem, hd' ▸ hmatch⟩
  · rintro ⟨item, hitem, hmatch⟩
    refine ⟨outcomeOf config q (Document.ofItem id item), (mem_rank_iff hlimit).2 ?_, rfl⟩
    exact ⟨_, mem_documentsOf_iff.2 ⟨item, hitem, rfl⟩, hmatch, (shows_iff _ _ _).2 rfl⟩

end Found

/-! ## What operators find -/

section Matches

variable [PatternReader] {config : Config α} {p q : Query} {d : Document}

theorem matches_ofGroups_and :
    Matches config (Operator.and.ofGroups p q) d ↔ Matches config p d ∧ Matches config q d := by
  simp [Matches, Operator.ofGroups]

theorem matches_ofGroups_or :
    Matches config (Operator.or.ofGroups p q) d ↔ Matches config p d ∨ Matches config q d := by
  simp [Matches, Operator.ofGroups]

theorem matches_ofGroups_not :
    Matches config (Operator.not.ofGroups p q) d ↔ Matches config p d ∧ ¬ Matches config q d := by
  simp [Matches, Operator.ofGroups]

theorem matches_not_group : Matches config p.group.not d ↔ ¬ Matches config p d := by
  simp [Matches]

end Matches

theorem height_ofGroups_le (op : Operator) {p q : Query} {n : Nat} (hp : p.height ≤ n)
    (hq : q.height ≤ n) : (op.ofGroups p q).height ≤ n + 3 := by
  cases op <;> simp only [Operator.ofGroups, Query.height] <;> omega

/-- Joining two texts by an operator combines what they find, and putting a text behind `NOT` finds
all the other documents. The parts can be any queries whose height leaves room for the groups and
the operator; what is made of them is a query again and not a list of words. A pattern that is
refused is no exception: it matches nothing, alone and as an operand. -/
theorem foundIds_combine [PatternReader] (config : Config α) (items : List Item) {limit : Nat}
    (hlimit : items.length ≤ limit) {a b : Text} {p q : Query} (ha : Query.ofText a = .ok p)
    (hb : Query.ofText b = .ok q) (hp : p.height ≤ 125) (hq : q.height ≤ 125) :
    let found (t : Text) := foundIds ((Index.build config items).searchWithLimit t limit)
    found (Operator.and.combine a b) = found a ∩ found b ∧
    found (Operator.or.combine a b) = found a ∪ found b ∧
    found (Operator.not.combine a b) = found a \ found b ∧
    found (exclude a) = {id | id < items.length} \ found a ∧
    (∀ op : Operator, Query.ofText (op.combine a b) = .ok (op.ofGroups p q)) ∧
    Query.ofText (exclude a) = .ok p.group.not := by
  have hcombine (op : Operator) : Query.ofText (op.combine a b) = .ok (op.ofGroups p q) := by
    refine ofText_eq_ok_iff.2 ⟨?_, height_ofGroups_le op hp hq⟩
    exact (ofText_eq_ok_iff.1 ha).1.combine (ofText_eq_ok_iff.1 hb).1 op
  have hexclude : Query.ofText (exclude a) = .ok p.group.not := by
    refine ofText_eq_ok_iff.2 ⟨(ofText_eq_ok_iff.1 ha).1.exclude, ?_⟩
    simp only [Query.height, maxDepth]
    omega
  have hfound {t : Text} {q : Query} (h : Query.ofText t = .ok q) :=
    mem_foundIds_iff config items hlimit h
  refine ⟨?_, ?_, ?_, ?_, hcombine, hexclude⟩ <;> ext id
  · rw [Set.mem_inter_iff, hfound (hcombine .and), hfound ha, hfound hb]
    cases items[id]? <;> simp [matches_ofGroups_and]
  · rw [Set.mem_union, hfound (hcombine .or), hfound ha, hfound hb]
    cases items[id]? <;> simp [matches_ofGroups_or]
  · rw [Set.mem_sdiff, hfound (hcombine .not), hfound ha, hfound hb]
    cases items[id]? <;> simp [matches_ofGroups_not]
  · rw [Set.mem_sdiff, Set.mem_ofPred_eq, hfound hexclude, hfound ha]
    by_cases hid : id < items.length
    · simp [hid, matches_not_group]
    · simp [hid]

/-- A part can end in a `NOT`, which stands alone before the parenthesis behind it. -/
theorem foundIds_combine_lone_negation :
    let _ : PatternReader := .standard
    let items : List Item := [.named "hooks".toList, .named "state".toList]
    let found (t : Text) : Set Nat :=
      foundIds ((Index.build (.standard : Config Rat) items).searchWithLimit t 2)
    let a := "hooks NOT".toList
    let b := "title:\"a b\"".toList
    Operator.or.combine a b = "(hooks NOT) OR (title:\"a b\")".toList ∧
      found (Operator.or.combine a b) = found a ∪ found b := by
  have ha : Query.ofText "hooks NOT".toList = .ok (Query.term "hooks".toList).not := by cbv
  have hb : Query.ofText "title:\"a b\"".toList =
      .ok (.field "title".toList (.phrase "a b".toList)) := by cbv
  intro _
  exact ⟨by cbv, (foundIds_combine .standard [.named "hooks".toList, .named "state".toList]
    (Nat.le_refl 2) ha hb (by decide) (by decide)).2.1⟩

end DocumentSearch
