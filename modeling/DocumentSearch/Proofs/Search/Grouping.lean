import DocumentSearch.Proofs.Lists
import DocumentSearch.Search.Grouping
import Mathlib.Data.List.Nodup

/-!
# Groups of a ranking

A grouping cuts a ranking up by kind and loses nothing of it: with the ranks that the entries keep,
the ranking can be put together again. Results can be grouped in one way only, and the loop over the
results, which looks for the group of each result among the groups so far, ends with this grouping.

Results:

* `IsGrouping.perm_ranked`: the entries of all groups are the results with their ranks.
* `isGrouping_iff`: the only grouping, kind by kind.
* `addToGroup_groupsOf`, `groupByKind_eq`: what a step of the loop and the whole loop give.
* `groupByKind_partitions_ranking`: grouping partitions the ranking.
-/

namespace DocumentSearch

variable {α : Type}

/-! ## Ranks -/

/-- The results with their ranks. -/
def ranked (results : List (Result α)) : List (Nat × Result α) := results.zipIdx.map Prod.swap

/-- The rank of the first result of a kind. -/
def firstRank (results : List (Result α)) (kind : Kind) : Nat :=
  (results.map (·.kind)).idxOf kind

variable {results : List (Result α)}

theorem mem_ranked_iff {rank : Nat} {r : Result α} :
    (rank, r) ∈ ranked results ↔ results[rank]? = some r := by
  rw [ranked, List.mem_map]
  constructor
  · rintro ⟨⟨_, _⟩, hmem, heq⟩
    cases heq
    exact List.mem_zipIdx_iff_getElem?.1 hmem
  · exact fun h => ⟨(r, rank), List.mem_zipIdx_iff_getElem?.2 h, rfl⟩

theorem map_fst_ranked (results : List (Result α)) :
    (ranked results).map Prod.fst = List.range' 0 results.length := by
  rw [ranked, List.map_map, ← List.zipIdx_map_snd]
  rfl

theorem map_snd_ranked (results : List (Result α)) : (ranked results).map Prod.snd = results := by
  rw [ranked, List.map_map]
  exact List.zipIdx_map_fst 0 results

theorem pairwise_rank_ranked (results : List (Result α)) :
    (ranked results).Pairwise fun x y => x.1 < y.1 := by
  have h : ((ranked results).map Prod.fst).Pairwise (· < ·) := by
    rw [map_fst_ranked]
    exact List.pairwise_lt_range'
  exact List.pairwise_map.1 h

theorem ranked_append_singleton (results : List (Result α)) (r : Result α) :
    ranked (results ++ [r]) = ranked results ++ [(results.length, r)] := by
  simp [ranked, List.zipIdx_append]

/-! ## Groupings -/

/-- The groups hold every result once, with its rank and among the results of its kind, and the
groups stand in the order in which their kinds come up. -/
structure IsGrouping (results : List (Result α)) (groups : List (ResultGroup α)) : Prop where
  nodup_kind : (groups.map (·.kind)).Nodup
  entries_ne_nil : ∀ g ∈ groups, g.entries ≠ []
  pairwise_firstRank :
    groups.Pairwise fun g h => firstRank results g.kind < firstRank results h.kind
  getElem?_of_mem : ∀ g ∈ groups, ∀ rank r, (rank, r) ∈ g.entries →
    results[rank]? = some r ∧ r.kind = g.kind
  pairwise_rank : ∀ g ∈ groups, g.entries.Pairwise fun x y => x.1 < y.1
  existsUnique_group : ∀ rank < results.length, ∃! g, g ∈ groups ∧ ∃ r, (rank, r) ∈ g.entries

/-- The entries of one kind. -/
def rankedOf (results : List (Result α)) (kind : Kind) : List (Nat × Result α) :=
  (ranked results).filter fun entry => entry.2.kind = kind

/-- The kinds of the results, each once and in the order in which they come up. -/
def kindsOf (results : List (Result α)) : List Kind := (results.map (·.kind)).eraseDups

/-- The groups, kind by kind. -/
def groupsOf (results : List (Result α)) : List (ResultGroup α) :=
  (kindsOf results).map fun kind => ⟨kind, rankedOf results kind⟩

theorem mem_rankedOf_iff {kind : Kind} {rank : Nat} {r : Result α} :
    (rank, r) ∈ rankedOf results kind ↔ results[rank]? = some r ∧ r.kind = kind := by
  rw [rankedOf, List.mem_filter, mem_ranked_iff, decide_eq_true_iff]

theorem pairwise_rank_rankedOf (results : List (Result α)) (kind : Kind) :
    (rankedOf results kind).Pairwise fun x y => x.1 < y.1 :=
  (pairwise_rank_ranked results).sublist List.filter_sublist

theorem mem_kindsOf_iff {kind : Kind} :
    kind ∈ kindsOf results ↔ ∃ (rank : Nat) (r : Result α),
      results[rank]? = some r ∧ r.kind = kind := by
  rw [kindsOf, List.mem_eraseDups, List.mem_map]
  constructor
  · rintro ⟨r, hr, hkind⟩
    obtain ⟨rank, hrank⟩ := List.mem_iff_getElem?.1 hr
    exact ⟨rank, r, hrank, hkind⟩
  · rintro ⟨rank, r, hrank, hkind⟩
    exact ⟨r, List.mem_of_getElem? hrank, hkind⟩

theorem pairwise_firstRank_kindsOf (results : List (Result α)) :
    (kindsOf results).Pairwise fun k k' => firstRank results k < firstRank results k' :=
  pairwise_idxOf_eraseDups _

theorem nodup_kindsOf (results : List (Result α)) : (kindsOf results).Nodup :=
  (pairwise_firstRank_kindsOf results).imp fun hlt heq => by simp [heq] at hlt

theorem isGrouping_groupsOf (results : List (Result α)) :
    IsGrouping results (groupsOf results) where
  nodup_kind := by
    have hkinds : (groupsOf results).map (·.kind) = kindsOf results := by
      rw [groupsOf, List.map_map]
      exact List.map_id _
    rw [hkinds]
    exact nodup_kindsOf results
  entries_ne_nil := by
    simp only [groupsOf, List.forall_mem_map]
    intro kind hkind
    obtain ⟨rank, r, hr⟩ := mem_kindsOf_iff.1 hkind
    exact List.ne_nil_of_mem (mem_rankedOf_iff.2 hr)
  pairwise_firstRank := List.pairwise_map.2 (pairwise_firstRank_kindsOf results)
  getElem?_of_mem := by
    simp only [groupsOf, List.forall_mem_map]
    exact fun kind _ rank r hr => mem_rankedOf_iff.1 hr
  pairwise_rank := by
    simp only [groupsOf, List.forall_mem_map]
    exact fun kind _ => pairwise_rank_rankedOf results kind
  existsUnique_group rank hrank := by
    obtain ⟨r, hr⟩ : ∃ r, results[rank]? = some r := ⟨_, List.getElem?_eq_getElem hrank⟩
    refine ⟨⟨r.kind, rankedOf results r.kind⟩, ⟨?_, r, ?_⟩, ?_⟩
    · exact List.mem_map_of_mem (mem_kindsOf_iff.2 ⟨rank, r, hr, rfl⟩)
    · exact mem_rankedOf_iff.2 ⟨hr, rfl⟩
    · rintro g ⟨hg, r', hmem⟩
      obtain ⟨kind, -, rfl⟩ := List.mem_map.1 hg
      obtain ⟨hr', rfl⟩ := mem_rankedOf_iff.1 hmem
      cases hr.symm.trans hr'
      rfl

namespace IsGrouping

variable {groups : List (ResultGroup α)} (h : IsGrouping results groups)
include h

theorem eq_of_kind_eq {g g' : ResultGroup α} (hg : g ∈ groups) (hg' : g' ∈ groups)
    (hkind : g.kind = g'.kind) : g = g' :=
  List.inj_on_of_nodup_map h.nodup_kind hg hg' hkind

theorem exists_mem_entries {rank : Nat} {r : Result α} (hr : results[rank]? = some r) :
    ∃ g ∈ groups, (rank, r) ∈ g.entries := by
  obtain ⟨hrank, -⟩ := List.getElem?_eq_some_iff.1 hr
  obtain ⟨g, ⟨hg, r', hr'⟩, -⟩ := h.existsUnique_group rank hrank
  obtain ⟨hget, -⟩ := h.getElem?_of_mem g hg rank r' hr'
  cases hr.symm.trans hget
  exact ⟨g, hg, hr'⟩

theorem mem_entries_iff {g : ResultGroup α} (hg : g ∈ groups) {rank : Nat} {r : Result α} :
    (rank, r) ∈ g.entries ↔ results[rank]? = some r ∧ r.kind = g.kind := by
  refine ⟨h.getElem?_of_mem g hg rank r, fun ⟨hr, hkind⟩ => ?_⟩
  obtain ⟨g', hg', hmem⟩ := h.exists_mem_entries hr
  obtain ⟨-, hkind'⟩ := h.getElem?_of_mem g' hg' rank r hmem
  rwa [h.eq_of_kind_eq hg hg' (hkind.symm.trans hkind')]

theorem entries_eq {g : ResultGroup α} (hg : g ∈ groups) : g.entries = rankedOf results g.kind :=
  eq_of_pairwise_of_mem_iff Nat.lt_asymm (h.pairwise_rank g hg) (pairwise_rank_rankedOf _ _)
    fun ⟨_, _⟩ => (h.mem_entries_iff hg).trans mem_rankedOf_iff.symm

theorem map_kind_eq : groups.map (·.kind) = kindsOf results := by
  refine eq_of_pairwise_of_mem_iff Nat.lt_asymm (List.pairwise_map.2 h.pairwise_firstRank)
    (pairwise_firstRank_kindsOf results) fun kind => ?_
  rw [mem_kindsOf_iff, List.mem_map]
  constructor
  · rintro ⟨g, hg, rfl⟩
    obtain ⟨⟨rank, r⟩, hr⟩ := List.exists_mem_of_ne_nil _ (h.entries_ne_nil g hg)
    exact ⟨rank, r, h.getElem?_of_mem g hg rank r hr⟩
  · rintro ⟨rank, r, hr, rfl⟩
    obtain ⟨g, hg, hmem⟩ := h.exists_mem_entries hr
    exact ⟨g, hg, (h.getElem?_of_mem g hg rank r hmem).2.symm⟩

theorem eq_groupsOf : groups = groupsOf results := by
  rw [groupsOf, ← h.map_kind_eq, List.map_map]
  conv_lhs => rw [← List.map_id groups]
  exact List.map_congr_left fun g hg => by simp [← h.entries_eq hg]

/-- The entries of all groups are the results with their ranks. -/
theorem perm_ranked : (groups.flatMap (·.entries)).Perm (ranked results) := by
  have hentries : (groups.flatMap (·.entries)).Nodup := by
    refine List.pairwise_flatMap.2 ⟨fun g hg => (h.pairwise_rank g hg).imp ?_, ?_⟩
    · rintro x _ hlt rfl
      exact Nat.lt_irrefl _ hlt
    · refine h.pairwise_firstRank.imp_of_mem fun {g g'} hg hg' hlt => ?_
      rintro ⟨rank, r⟩ hr _ hr' rfl
      have hkind := (h.getElem?_of_mem g hg rank r hr).2
      rw [← hkind, (h.getElem?_of_mem g' hg' rank r hr').2] at hlt
      exact Nat.lt_irrefl _ hlt
  have hranked : (ranked results).Nodup :=
    (pairwise_rank_ranked results).imp fun hlt heq => by simp [heq] at hlt
  rw [List.perm_ext_iff_of_nodup hentries hranked]
  rintro ⟨rank, r⟩
  rw [List.mem_flatMap, mem_ranked_iff]
  constructor
  · rintro ⟨g, hg, hmem⟩
    exact (h.getElem?_of_mem g hg rank r hmem).1
  · exact h.exists_mem_entries

/-- In the order of their ranks, the entries are the ranking. -/
theorem map_snd_mergeSort_entries :
    ((groups.flatMap (·.entries)).mergeSort fun x y => x.1 ≤ y.1).map Prod.snd = results := by
  have hsorted : ((groups.flatMap (·.entries)).mergeSort fun x y => x.1 ≤ y.1).Pairwise
      fun x y => x.1 ≤ y.1 := by
    refine (List.pairwise_mergeSort ?_ ?_ _).imp of_decide_eq_true
    · exact fun x y z hxy hyz => decide_eq_true
        (Nat.le_trans (of_decide_eq_true hxy) (of_decide_eq_true hyz))
    · exact fun x y => by simpa using Nat.le_total x.1 y.1
  have hmem {x : Nat × Result α}
      (hx : x ∈ (groups.flatMap (·.entries)).mergeSort fun x y => x.1 ≤ y.1) :
      results[x.1]? = some x.2 :=
    mem_ranked_iff.1 (h.perm_ranked.mem_iff.1 (List.mem_mergeSort.1 hx))
  have hranked :
      (groups.flatMap (·.entries)).mergeSort (fun x y => x.1 ≤ y.1) = ranked results := by
    refine List.Perm.eq_of_pairwise (fun x y hx hy hxy hyx => ?_) hsorted
      ((pairwise_rank_ranked results).imp Nat.le_of_lt)
      ((List.mergeSort_perm _ _).trans h.perm_ranked)
    have hrank : x.1 = y.1 := Nat.le_antisymm hxy hyx
    refine Prod.ext hrank (Option.some.inj ?_)
    rw [← hmem hx, hrank, mem_ranked_iff.1 hy]
  rw [hranked, map_snd_ranked]

end IsGrouping

theorem isGrouping_iff {groups : List (ResultGroup α)} :
    IsGrouping results groups ↔ groups = groupsOf results := by
  refine ⟨IsGrouping.eq_groupsOf, ?_⟩
  rintro rfl
  exact isGrouping_groupsOf results

/-! ## The loop -/

section Loop

variable {kinds : List Kind} (entries : Kind → List (Nat × Result α)) (rank : Nat) {r : Result α}

/-- A result of a kind that came up before joins the group of its kind. -/
theorem addToGroup_of_mem (hkinds : kinds.Nodup) (hr : r.kind ∈ kinds) :
    addToGroup rank r (kinds.map fun kind => ⟨kind, entries kind⟩) =
      kinds.map fun kind =>
        ⟨kind, entries kind ++ if r.kind = kind then [(rank, r)] else []⟩ := by
  induction kinds with
  | nil => cases hr
  | cons kind kinds ih =>
    obtain ⟨hkind, hkinds⟩ := List.nodup_cons.1 hkinds
    rw [List.map_cons, List.map_cons, addToGroup]
    by_cases heq : r.kind = kind
    · -- the groups behind are of other kinds
      have hothers : ∀ kind' ∈ kinds, r.kind ≠ kind' := by
        rintro kind' hkind' rfl
        exact hkind (heq ▸ hkind')
      rw [if_pos heq.symm, if_pos heq]
      refine congrArg _ (List.map_congr_left fun kind' hkind' => ?_)
      rw [if_neg (hothers kind' hkind'), List.append_nil]
    · rw [if_neg (Ne.symm heq), if_neg heq, List.append_nil,
        ih hkinds ((List.mem_cons.1 hr).resolve_left heq)]

/-- A result of a new kind makes a group of its own, behind the others. -/
theorem addToGroup_of_notMem (hr : r.kind ∉ kinds) :
    addToGroup rank r (kinds.map fun kind => ⟨kind, entries kind⟩) =
      (kinds.map fun kind => ⟨kind, entries kind⟩) ++ [⟨r.kind, [(rank, r)]⟩] := by
  induction kinds with
  | nil => rfl
  | cons kind kinds ih =>
    obtain ⟨hkind, hkinds⟩ := not_or.1 (mt List.mem_cons.2 hr)
    rw [List.map_cons, addToGroup, if_neg (Ne.symm hkind), ih hkinds, List.cons_append]

end Loop

theorem rankedOf_append_singleton (results : List (Result α)) (r : Result α) (kind : Kind) :
    rankedOf (results ++ [r]) kind =
      rankedOf results kind ++ if r.kind = kind then [(results.length, r)] else [] := by
  rw [rankedOf, ranked_append_singleton, List.filter_append]
  by_cases h : r.kind = kind <;> simp [rankedOf, h]

theorem kindsOf_append_singleton (results : List (Result α)) (r : Result α) :
    kindsOf (results ++ [r]) =
      kindsOf results ++ if r.kind ∈ kindsOf results then [] else [r.kind] := by
  rw [kindsOf, List.map_append, List.map_singleton, eraseDups_append_singleton, kindsOf]
  simp only [List.mem_eraseDups]

/-- A step of the loop takes the groups of some results to those of one result more. -/
theorem addToGroup_groupsOf (results : List (Result α)) (r : Result α) :
    addToGroup results.length r (groupsOf results) = groupsOf (results ++ [r]) := by
  simp only [groupsOf, rankedOf_append_singleton, kindsOf_append_singleton]
  by_cases hr : r.kind ∈ kindsOf results
  · rw [if_pos hr, List.append_nil, addToGroup_of_mem _ _ (nodup_kindsOf results) hr]
  · have hentries : rankedOf results r.kind = [] := by
      refine List.eq_nil_iff_forall_not_mem.2 fun ⟨rank, r'⟩ hmem => hr ?_
      exact mem_kindsOf_iff.2 ⟨rank, r', mem_rankedOf_iff.1 hmem⟩
    have hothers : ∀ kind ∈ kindsOf results, r.kind ≠ kind := by
      rintro _ hkind rfl
      exact hr hkind
    rw [if_neg hr, addToGroup_of_notMem _ _ hr, List.map_append, List.map_singleton, hentries,
      if_pos rfl, List.nil_append]
    refine congrArg (· ++ _) (List.map_congr_left fun kind hkind => ?_)
    rw [if_neg (hothers kind hkind), List.append_nil]

/-- The loop ends with the groups of all results. -/
theorem groupByKind_eq (results : List (Result α)) : groupByKind results = groupsOf results := by
  induction results using List.reverseRecOn with
  | nil => rfl
  | append_singleton results r ih =>
    rw [← addToGroup_groupsOf, ← ih, groupByKind, List.zipIdx_append, List.foldl_append]
    simp [groupByKind]

/-- Grouping partitions the ranking. The groups are the only ones of which no two are of one kind
and none is empty, which stand in the order in which their kinds come up, and which hold every
result of their kind and no other one, each with its rank and in the order of the ranks. Sorted by
rank, the entries give the ranking back. -/
theorem groupByKind_partitions_ranking (results : List (Result α)) :
    let groups := groupByKind results
    (∀ groups', IsGrouping results groups' ↔ groups' = groups) ∧
    ((groups.flatMap (·.entries)).mergeSort fun x y => x.1 ≤ y.1).map Prod.snd = results := by
  rw [groupByKind_eq]
  exact ⟨fun _ => isGrouping_iff, (isGrouping_groupsOf results).map_snd_mergeSort_entries⟩

end DocumentSearch
