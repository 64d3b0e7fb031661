import DocumentSearch.Proofs.Lists
import DocumentSearch.Proofs.Query.Text
import DocumentSearch.Proofs.Search.Evaluation
import DocumentSearch.Proofs.Search.Score
import DocumentSearch.Search.Index

/-!
# The order of results

A ranking is the one list of given results in which a greater score stands before a smaller one and
of equal scores the document with the smaller id. The search sorts by score alone; that the ids
break ties is due to the order of the index, which the sort keeps. All of it holds whatever patterns
are refused.

Results:

* `Result.isOf_ofDocument`, `Result.IsOf.eq_ofDocument`: what a result tells of a document.
* `IsRanking.unique`: results can be ranked in one way only.
* `isRanking_iff_eq_mergeSort`: sorting by score ranks results that stand in the order of the index.
* `searchWithLimit_eq_take_ranking`: a search gives the beginning of the ranking of all matches.
-/

namespace DocumentSearch

variable {α : Type}

/-! ## Results -/

namespace Result

/-- The result tells of the document what the document says. -/
structure IsOf (r : Result α) (d : Document) : Prop where
  id_eq : r.id = d.id
  name_eq : r.name = d.name
  title_eq : r.title = d.title
  path_eq : r.path = d.path
  kind_eq : r.kind = d.kind
  content_eq : r.content = d.content
  tags_eq : r.tags = d.tags
  metadata_eq : r.metadata = d.metadata

theorem isOf_ofDocument (d : Document) (score : α) (highlights : List Highlight) :
    (ofDocument d score highlights).IsOf d :=
  ⟨rfl, rfl, rfl, rfl, rfl, rfl, rfl, rfl⟩

/-- A result has nothing else to tell but its score and its highlights. -/
theorem IsOf.eq_ofDocument {r : Result α} {d : Document} (h : r.IsOf d) :
    r = ofDocument d r.score r.highlights := by
  obtain ⟨⟩ := r
  obtain ⟨rfl, rfl, rfl, rfl, rfl, rfl, rfl, rfl⟩ := h
  rfl

theorem eq_ofDocument_iff {r : Result α} {d : Document} {score : α} {highlights : List Highlight} :
    r = ofDocument d score highlights ↔
      r.IsOf d ∧ r.score = score ∧ r.highlights = highlights := by
  constructor
  · rintro rfl
    exact ⟨isOf_ofDocument d score highlights, rfl, rfl⟩
  · rintro ⟨h, rfl, rfl⟩
    exact h.eq_ofDocument

end Result

variable [Score α]

/-- The result `r` scores more than `s`, or as much and its document comes first in the index. -/
def Result.Before (r s : Result α) : Prop :=
  Score.atMost s.score r.score = true ∧ (Score.atMost r.score s.score = true → r.id < s.id)

/-- The list holds the results that were found and no others, and in the order of a ranking. -/
structure IsRanking (found : Result α → Prop) (ranking : List (Result α)) : Prop where
  mem_iff : ∀ r, r ∈ ranking ↔ found r
  sorted : ranking.Pairwise Result.Before

/-- The results stand in the order of the index. -/
def InIndexOrder (results : List (Result α)) : Prop :=
  results.Pairwise fun r s => r.id < s.id

/-! ## Rankings -/

theorem Result.Before.asymm {r s : Result α} (h : r.Before s) : ¬ s.Before r := by
  intro h'
  have := h.2 h'.1
  have := h'.2 h.1
  omega

theorem IsRanking.unique {found : Result α → Prop} {ranking ranking' : List (Result α)}
    (h : IsRanking found ranking) (h' : IsRanking found ranking') : ranking = ranking' :=
  eq_of_pairwise_of_mem_iff Result.Before.asymm h.sorted h'.sorted fun r =>
    (h.mem_iff r).trans (h'.mem_iff r).symm

section Sorting

variable [OrderedScore α]

/-- The order by which results are sorted. -/
def byScore (r s : Result α) : Bool := Score.atMost s.score r.score

/-- Sorting by score keeps the order of the index among equal scores. -/
theorem pairwise_before_mergeSort {results : List (Result α)} (h : InIndexOrder results) :
    (results.mergeSort byScore).Pairwise Result.Before := by
  refine pairwise_mergeSort ?_ ?_ (h.imp fun hlt _ _ => hlt)
  · exact fun r s u hrs hsu => OrderedScore.atMost_trans _ _ _ hsu hrs
  · exact fun r s => OrderedScore.atMost_total _ _

/-- Sorting results that stand in the order of the index gives their only ranking. -/
theorem isRanking_iff_eq_mergeSort {found : Result α → Prop} {results ranking : List (Result α)}
    (hfound : ∀ r, r ∈ results ↔ found r) (h : InIndexOrder results) :
    IsRanking found ranking ↔ ranking = results.mergeSort byScore := by
  have hsorted : IsRanking found (results.mergeSort byScore) :=
    ⟨fun r => List.mem_mergeSort.trans (hfound r), pairwise_before_mergeSort h⟩
  constructor
  · exact fun h' => h'.unique hsorted
  · rintro rfl
    exact hsorted

omit [OrderedScore α] in
theorem nodup_id_mergeSort {results : List (Result α)} (h : InIndexOrder results) :
    ((results.mergeSort byScore).map (·.id)).Nodup := by
  rw [((List.mergeSort_perm results byScore).map (·.id)).nodup_iff]
  exact List.pairwise_map.2 (h.imp Nat.ne_of_lt)

end Sorting

theorem mem_of_mem_best {results : List (Result α)} {limit : Nat} {r : Result α}
    (h : r ∈ best results limit) : r ∈ results :=
  List.mem_mergeSort.1 (List.mem_of_mem_take h)

/-! ## The documents of an index -/

theorem mem_documentsOf_iff {items : List Item} {d : Document} :
    d ∈ Index.documentsOf items ↔
      ∃ item, items[d.id]? = some item ∧ d = Document.ofItem d.id item := by
  simp only [Index.documentsOf, List.mem_map, Prod.exists, List.mem_zipIdx_iff_getElem?]
  constructor
  · rintro ⟨item, id, h, rfl⟩
    exact ⟨item, h, rfl⟩
  · rintro ⟨item, h, hd⟩
    exact ⟨item, d.id, h, hd.symm⟩

theorem pairwise_id_documentsOf (items : List Item) :
    (Index.documentsOf items).Pairwise fun d d' => d.id < d'.id := by
  rw [Index.documentsOf, List.pairwise_map]
  have h : (items.zipIdx.map Prod.snd).Pairwise (· < ·) := by
    rw [List.zipIdx_map_snd]
    exact List.pairwise_lt_range'
  exact List.pairwise_map.1 h

section Outcomes

variable [PatternReader] (config : Config α) (q : Query) (d : Document)

/-- The query matches the document. -/
def Matches : Prop := ((⟨config, []⟩ : Evaluator α).evaluate q d).isMatch = true

/-- The outcome of the query on the document, as the result that shows it. -/
def outcomeOf : Result α :=
  let outcome := (⟨config, []⟩ : Evaluator α).evaluate q d
  .ofDocument d outcome.score outcome.highlights

/-- The result shows the document with the outcome of the query on it. -/
structure Shows (r : Result α) : Prop extends r.IsOf d where
  score_eq : r.score = ((⟨config, []⟩ : Evaluator α).evaluate q d).score
  highlights_eq : r.highlights = ((⟨config, []⟩ : Evaluator α).evaluate q d).highlights

theorem shows_iff {r : Result α} : Shows config q d r ↔ r = outcomeOf config q d := by
  rw [outcomeOf, Result.eq_ofDocument_iff]
  exact ⟨fun h => ⟨h.toIsOf, h.score_eq, h.highlights_eq⟩, fun h => ⟨h.1, h.2.1, h.2.2⟩⟩

end Outcomes

section Selection

variable {documents : List Document} {select : Document → Bool} {toResult : Document → Result α}

omit [Score α] in
theorem mem_filterMap_ite_iff {r : Result α} :
    r ∈ documents.filterMap (fun d => if select d then some (toResult d) else none) ↔
      ∃ d ∈ documents, select d = true ∧ r = toResult d := by
  rw [List.mem_filterMap]
  refine exists_congr fun d => and_congr_right fun _ => ?_
  rw [Option.ite_none_right_eq_some, Option.some.injEq]
  exact and_congr_right fun _ => eq_comm

omit [Score α] in
/-- Selecting documents keeps the order of the index. -/
theorem inIndexOrder_filterMap_ite (hresult : ∀ d, (toResult d).id = d.id)
    (h : documents.Pairwise fun d d' => d.id < d'.id) :
    InIndexOrder (documents.filterMap fun d => if select d then some (toResult d) else none) := by
  refine List.Pairwise.filterMap _ ?_ h
  intro d d' hd r hr s hs
  simp only [Option.ite_none_right_eq_some, Option.some.injEq] at hr hs
  obtain ⟨-, rfl⟩ := hr
  obtain ⟨-, rfl⟩ := hs
  rwa [hresult, hresult]

end Selection

section Matching

variable [PatternReader]

theorem matching_eq (config : Config α) (q : Query) (documents : List Document) :
    matching config q documents = documents.filterMap fun d =>
      if ((⟨config, []⟩ : Evaluator α).evaluate q d).isMatch then some (outcomeOf config q d)
      else none := by
  simp only [matching, Evaluator.evaluate_forQuery]
  rfl

theorem inIndexOrder_matching (config : Config α) (q : Query) (items : List Item) :
    InIndexOrder (matching config q (Index.documentsOf items)) := by
  rw [matching_eq]
  exact inIndexOrder_filterMap_ite (fun _ => rfl) (pairwise_id_documentsOf items)

/-! ## Searches -/

/-- The result shows a document of the items that the query matches, with the outcome. -/
def IsHit (config : Config α) (items : List Item) (q : Query) (r : Result α) : Prop :=
  ∃ d ∈ Index.documentsOf items, Matches config q d ∧ Shows config q d r

theorem searchWithLimit_of_ofText_eq_ok (index : Index α) {t : Text} {q : Query}
    (h : Query.ofText t = .ok q) (limit : Nat) :
    index.searchWithLimit t limit = rank index.config q index.documents limit := by
  have hblank : (Text.trim t).isEmpty = false := by simpa using trim_ne_nil_of_ofText_eq_ok h
  simp [Index.searchWithLimit, hblank, h]

theorem mem_matching_iff {config : Config α} {items : List Item} {q : Query} {r : Result α} :
    r ∈ matching config q (Index.documentsOf items) ↔ IsHit config items q r := by
  simp only [matching_eq, mem_filterMap_ite_iff, IsHit, shows_iff]
  rfl

/-- A result shows the document that the item at the position of its id becomes. -/
theorem IsHit.exists_item {config : Config α} {items : List Item} {q : Query} {r : Result α}
    (h : IsHit config items q r) :
    ∃ item, items[r.id]? = some item ∧ Shows config q (Document.ofItem r.id item) r := by
  obtain ⟨d, hd, -, hr⟩ := h
  obtain ⟨item, hitem, hd⟩ := mem_documentsOf_iff.1 hd
  rw [← hr.id_eq] at hitem hd
  exact ⟨item, hitem, hd ▸ hr⟩

end Matching

section Searches

variable [OrderedScore α] [PatternReader]

/-- A search for a query gives the beginning of the one ranking of all its matches, for every limit.
Its results are therefore different documents of the index, each with what the item at the position
of its id becomes and with the outcome of the query on it, and a greater limit only adds results. -/
theorem searchWithLimit_eq_take_ranking (config : Config α) (items : List Item) {t : Text}
    {q : Query} (h : Query.ofText t = .ok q) :
    ∃ ranking : List (Result α),
      (∀ ranking', IsRanking (IsHit config items q) ranking' ↔ ranking' = ranking) ∧
      ∀ limit,
        let results := (Index.build config items).searchWithLimit t limit
        results = ranking.take limit ∧
        (results.map (·.id)).Nodup ∧
        (∀ r ∈ results, ∃ item, items[r.id]? = some item ∧
          Shows config q (Document.ofItem r.id item) r) ∧
        ∀ limit', limit ≤ limit' →
          results <+: (Index.build config items).searchWithLimit t limit' := by
  have hid := inIndexOrder_matching config q items
  refine ⟨_, fun ranking' => isRanking_iff_eq_mergeSort (fun _ => mem_matching_iff) hid, ?_⟩
  intro limit
  simp only [searchWithLimit_of_ofText_eq_ok _ h]
  refine ⟨rfl, ?_, ?_, fun limit' hle => List.take_prefix_take_left hle⟩
  · exact (nodup_id_mergeSort hid).sublist ((List.take_sublist _ _).map _)
  · intro r hr
    have hmem : r ∈ matching config q (Index.documentsOf items) :=
      List.mem_mergeSort.1 (List.mem_of_mem_take hr)
    exact (mem_matching_iff.1 hmem).exists_item

end Searches

/-- Of three documents the last two score the same, and more than the first one. -/
theorem searchWithLimit_ties :
    let _ : PatternReader := .standard
    let items : List Item :=
      [(Item.named ['a']).withMarkdown "hooks".toList, .named "hooks".toList, .named ['c']]
    let index : Index Rat := Index.build .standard items
    let text := "hooks OR c".toList
    (index.searchWithLimit text 2).map (·.id) = [1, 2] ∧
      (index.searchWithLimit text 3).map (·.id) = [1, 2, 0] ∧
      index.searchWithLimit text 2 <+: index.searchWithLimit text 3 := by
  have h : Query.ofText "hooks OR c".toList =
      .ok ((Query.term "hooks".toList).or (.term ['c'])) := by cbv
  intro _
  refine ⟨by cbv, by cbv, ?_⟩
  obtain ⟨ranking, -, hsearch⟩ := searchWithLimit_eq_take_ranking (.standard : Config Rat)
    [(Item.named ['a']).withMarkdown "hooks".toList, .named "hooks".toList, .named ['c']] h
  exact (hsearch 2).2.2.2 3 (by decide)

/-- A pattern that is refused matches nothing, so its negation matches everything. -/
example :
    let _ : PatternReader := { PatternReader.standard with read? := fun _ => none }
    let index : Index Rat := Index.build .standard [.named ['a'], .named ['b']]
    (index.searchWithLimit "a*".toList 2).map (·.id) = [] ∧
      (index.searchWithLimit "NOT a*".toList 2).map (·.id) = [0, 1] := by
  constructor <;> cbv

end DocumentSearch
