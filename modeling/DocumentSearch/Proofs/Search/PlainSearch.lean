import DocumentSearch.Proofs.Search.Ranking
import DocumentSearch.Proofs.Search.Salvage
import DocumentSearch.Proofs.Text.Occurrence

/-!
# The search without a query

A text that is no query is searched for word by word, and the evaluator is not asked. It would give
the same answers: a word occurs in a field, or in one of the tags, iff the evaluator finds the word
as a term of that field.

Results:

* `matches_scoped_iff`: what the evaluator says of a salvaged word in a field.
* `plainScore_eq_points`: the points of a word are those of the fields where the evaluator finds it.
* `searchWithLimit_eq_take_plain_ranking`: the results are the beginning of the ranking by points.
-/

namespace DocumentSearch

open Text

variable {α : Type} [Score α]

/-! ## A word in a field -/

/-- The query for a word in one field. -/
def Field.scoped (f : Field) (word : Text) : Query := .field f.name (.term word)

section Fields

variable [PatternReader]

instance (config : Config α) (q : Query) (d : Document) : Decidable (Matches config q d) :=
  inferInstanceAs (Decidable (_ = true))

theorem matches_scoped_iff (config : Config α) {word : Text} (h : Salvaged word) (f : Field)
    (d : Document) : Matches config (f.scoped word) d ↔ occursIn word (d.fieldText f) = true := by
  rw [Matches, Field.scoped, Evaluator.evaluate_field, Evaluator.isMatch_inField_term_iff,
    h.lower_eq, occursIn_iff]
  exact and_iff_right h.ne_nil

end Fields

/-- The tags are searched one by one or all at once, with blanks between them. -/
theorem any_occursIn_tags {word : Text} (h : Salvaged word) (d : Document) :
    (d.tags.any fun tag => occursIn word (lower tag)) = occursIn word (d.fieldText .tags) := by
  rw [Document.fieldText, lower_intercalate, occursIn_intercalate h.ne_nil h.blank_notMem,
    List.any_map]
  rfl

/-! ## Points -/

theorem isPositive_points [PointScore α] : Score.isPositive (1.0 : α) = true ∧
    Score.isPositive (2.0 : α) = true ∧ Score.isPositive (3.0 : α) = true := by
  have h := PointScore.isPositive_point (α := α)
  exact ⟨h _ (by simp), h _ (by simp), h _ (by simp)⟩

section Points

variable [PatternReader]

/-- What a field counts for a word, if the evaluator finds the word there. -/
def fieldPoints (config : Config α) (d : Document) (word : Text) (f : Field) (points : α) : α :=
  if Matches config (f.scoped word) d then points else 0.0

/-- What a document scores for a word, by the word of the evaluator. -/
def wordPoints (config : Config α) (d : Document) (word : Text) : α :=
  fieldPoints config d word .title 3.0 + fieldPoints config d word .path 2.0 +
    fieldPoints config d word .content 1.0 + fieldPoints config d word .tags 2.0

/-- What a document scores for several words. -/
def totalPoints (config : Config α) (d : Document) (words : List Text) : α :=
  words.foldl (fun sum word => sum + wordPoints config d word) 0.0

/-- The fields that count where there is no query. -/
def plainFields : List Field := [.title, .path, .content, .tags]

variable [PointScore α] (config : Config α) (d : Document) (word : Text)

omit [PointScore α] in
theorem isPoints_fieldPoints (f : Field) {points : α} (h : Score.isPositive points = true) :
    IsPoints (fieldPoints config d word f points) := by
  unfold fieldPoints
  split
  · exact .inr h
  · exact .zero

theorem isPositive_fieldPoints (f : Field) {points : α} (h : Score.isPositive points = true) :
    Score.isPositive (fieldPoints config d word f points) =
      decide (Matches config (f.scoped word) d) := by
  unfold fieldPoints
  split
  · next hmatch => simpa [hmatch] using h
  · next hmatch => simpa [hmatch] using PointScore.isPositive_zero

theorem wordPoints_spec : IsPoints (wordPoints config d word) ∧
    (Score.isPositive (wordPoints config d word) = true ↔
      ∃ f ∈ plainFields, Matches config (f.scoped word) d) := by
  obtain ⟨h1, h2, h3⟩ := isPositive_points (α := α)
  have htitle := isPoints_fieldPoints config d word .title h3
  have hpath := isPoints_fieldPoints config d word .path h2
  have hcontent := isPoints_fieldPoints config d word .content h1
  have htags := isPoints_fieldPoints config d word .tags h2
  refine ⟨((htitle.add hpath).add hcontent).add htags, ?_⟩
  rw [wordPoints, ((htitle.add hpath).add hcontent).isPositive_add htags,
    (htitle.add hpath).isPositive_add hcontent, htitle.isPositive_add hpath,
    isPositive_fieldPoints _ _ _ _ h3, isPositive_fieldPoints _ _ _ _ h2,
    isPositive_fieldPoints _ _ _ _ h1, isPositive_fieldPoints _ _ _ _ h2]
  simp [plainFields, or_assoc]

theorem isPositive_totalPoints_iff (words : List Text) :
    Score.isPositive (totalPoints config d words) = true ↔
      ∃ word ∈ words, ∃ f ∈ plainFields, Matches config (f.scoped word) d := by
  rw [totalPoints, IsPoints.isPositive_foldl_add (fun word => (wordPoints_spec config d word).1)
    words .zero, PointScore.isPositive_zero, Bool.false_or, List.any_eq_true]
  exact exists_congr fun word => and_congr_right fun _ => (wordPoints_spec config d word).2

variable {config d word} in
/-- Points are added only where the word is found. -/
theorem ite_add_eq_add_fieldPoints {x : α} (hx : IsPoints x) (f : Field) (points : α) :
    (if Matches config (f.scoped word) d then x + points else x) =
      x + fieldPoints config d word f points := by
  unfold fieldPoints
  split
  · rfl
  · exact hx.add_zero.symm

/-- The points that the search gives for a word are those of the fields in which the evaluator finds
it. -/
theorem plainScore_eq_points {word : Text} (h : Salvaged word) :
    plainScore d word = wordPoints config d word := by
  obtain ⟨h1, h2, h3⟩ := isPositive_points (α := α)
  have htitle := isPoints_fieldPoints config d word .title h3
  have hpath := isPoints_fieldPoints config d word .path h2
  have hcontent := isPoints_fieldPoints config d word .content h1
  simp only [plainScore, any_occursIn_tags h, ← matches_scoped_iff config h]
  rw [ite_add_eq_add_fieldPoints .zero, htitle.zero_add, ite_add_eq_add_fieldPoints htitle,
    ite_add_eq_add_fieldPoints (htitle.add hpath),
    ite_add_eq_add_fieldPoints ((htitle.add hpath).add hcontent)]
  rfl

/-! ## Searches -/

/-- The result shows a document in which the evaluator finds one of the salvaged words, with the
points of all of them and without highlights. -/
def IsPlainHit (config : Config α) (items : List Item) (t : Text) (r : Result α) : Prop :=
  ∃ d ∈ Index.documentsOf items,
    (∃ word ∈ salvageTerms t, ∃ f ∈ plainFields, Matches config (f.scoped word) d) ∧
      r.IsOf d ∧ r.score = totalPoints config d (salvageTerms t) ∧ r.highlights = []

theorem foldl_plainScore_eq_totalPoints (t : Text) :
    (salvageTerms t).foldl (fun sum word => sum + plainScore d word) 0.0 =
      totalPoints config d (salvageTerms t) :=
  List.foldl_ext _ _ _ fun _ _ hword =>
    congrArg _ (plainScore_eq_points config d (salvaged_of_mem_salvageTerms hword))

theorem containing_eq (t : Text) (documents : List Document) :
    containing (salvageTerms t) documents = documents.filterMap fun d =>
      if Score.isPositive (totalPoints config d (salvageTerms t)) then
        some (.ofDocument d (totalPoints config d (salvageTerms t)) [])
      else none := by
  simp only [containing, foldl_plainScore_eq_totalPoints config]

theorem mem_containing_iff {items : List Item} {t : Text} {r : Result α} :
    r ∈ containing (salvageTerms t) (Index.documentsOf items) ↔ IsPlainHit config items t r := by
  rw [containing_eq config, mem_filterMap_ite_iff]
  refine exists_congr fun d => and_congr_right fun _ => ?_
  rw [isPositive_totalPoints_iff, Result.eq_ofDocument_iff]

omit [PatternReader] [PointScore α] in
theorem inIndexOrder_containing (items : List Item) (t : Text) :
    InIndexOrder (containing (α := α) (salvageTerms t) (Index.documentsOf items)) :=
  inIndexOrder_filterMap_ite (fun _ => rfl) (pairwise_id_documentsOf items)

omit [PatternReader] in
/-- Where nothing was salvaged, there is nothing to sort. -/
theorem plainSearch_eq_best (t : Text) (documents : List Document) (limit : Nat) :
    plainSearch (α := α) t documents limit =
      best (containing (salvageTerms t) documents) limit := by
  unfold plainSearch
  split
  · next hnil =>
    have : containing (α := α) [] documents = [] := by
      simp [containing, PointScore.isPositive_zero]
    rw [hnil, this, best, List.mergeSort_nil, List.take_nil]
  · rfl

/-- A text that is no query is searched for by its words, and the results are the beginning of one
ranking. What belongs to it and what it scores there, the evaluator could have said. -/
theorem searchWithLimit_eq_take_plain_ranking (items : List Item) {t : Text} {e : QueryError}
    (hblank : trim t ≠ []) (h : Query.ofText t = .error e) :
    ∃ ranking : List (Result α),
      (∀ ranking', IsRanking (IsPlainHit config items t) ranking' ↔ ranking' = ranking) ∧
      ∀ limit, (Index.build config items).searchWithLimit t limit = ranking.take limit := by
  refine ⟨_, fun ranking' => isRanking_iff_eq_mergeSort (fun _ => mem_containing_iff config)
    (inIndexOrder_containing items t), ?_⟩
  intro limit
  have hnonempty : (trim t).isEmpty = false := by simpa using hblank
  rw [Index.searchWithLimit, hnonempty, h]
  exact plainSearch_eq_best t _ limit

end Points

/-- A parenthesis that is not closed makes words of a query. A name counts as title and as path. -/
theorem searchWithLimit_open_paren :
    let _ : PatternReader := .standard
    let items : List Item :=
      [(Item.named ['a']).withTags ["Hooks".toList, ['b']], .named "Hooks".toList]
    let text := "hooks AND (".toList
    let results := (Index.build (.standard : Config Rat) items).searchWithLimit text 2
    results.map (fun r => (r.id, r.score)) = [(1, 5), (0, 2)] ∧
      ∀ r ∈ results, IsPlainHit .standard items text r := by
  have h : Query.ofText "hooks AND (".toList = .error .unexpectedEnd := by cbv
  intro _
  obtain ⟨ranking, hranking, hsearch⟩ := searchWithLimit_eq_take_plain_ranking
    (.standard : Config Rat)
    [(Item.named ['a']).withTags ["Hooks".toList, ['b']], .named "Hooks".toList] (by decide) h
  refine ⟨by cbv, ?_⟩
  intro r hr
  rw [hsearch] at hr
  exact (((hranking ranking).2 rfl).mem_iff r).1 (List.mem_of_mem_take hr)

end DocumentSearch
