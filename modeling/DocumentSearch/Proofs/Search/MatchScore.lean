import DocumentSearch.Proofs.Search.Double
import DocumentSearch.Proofs.Search.Ranking

/-!
# Scores and matches

Some parts of a query match because they score, others score because they match, and the operators
combine scores and matches apart from each other. Where all weights are positive, both tell the same
of a document: it scores iff it matches, so no result of a search scores zero. That holds of exact
numbers and of doubles, which are rounded, but not to zero.

Results:

* `Evaluator.agrees_evaluate`: the invariant of an evaluation, for every query.
* `isPositive_score_of_mem_plainSearch`: a search without a query rests on no weights.
* `score_agrees_with_match`: scores and matches agree, and every result has a positive score.
-/

namespace DocumentSearch

variable {α : Type} [Score α]

/-! ## Outcomes -/

namespace Evaluation

/-- The outcome scores zero where the query does not match, and more than zero where it does. -/
structure Agrees (outcome : Evaluation α) : Prop where
  score_eq_zero : outcome.isMatch = false → outcome.score = 0.0
  isPositive_score : outcome.isMatch = true → Score.isPositive outcome.score = true

theorem Agrees.isPoints {outcome : Evaluation α} (h : outcome.Agrees) : IsPoints outcome.score := by
  cases hmatch : outcome.isMatch with
  | false => exact .inl (h.score_eq_zero hmatch)
  | true => exact .inr (h.isPositive_score hmatch)

theorem agrees_miss : (miss : Evaluation α).Agrees := ⟨fun _ => rfl, nofun⟩

theorem agrees_hit {score : α} (h : Score.isPositive score = true) (highlights : List Highlight) :
    (hit score highlights).Agrees :=
  ⟨nofun, fun _ => h⟩

/-- An outcome that matches iff its points are positive. -/
theorem agrees_of_isPoints {outcome : Evaluation α} (h : IsPoints outcome.score)
    (hmatch : outcome.isMatch = Score.isPositive outcome.score) : outcome.Agrees where
  score_eq_zero hmiss := h.resolve_right (Bool.eq_false_iff.1 (hmatch ▸ hmiss))
  isPositive_score hhit := hmatch ▸ hhit

variable [WeightScore α] {outcome left right : Evaluation α}

theorem Agrees.isPositive_eq_isMatch (h : outcome.Agrees) :
    Score.isPositive outcome.score = outcome.isMatch := by
  cases hmatch : outcome.isMatch with
  | false => rw [h.score_eq_zero hmatch, PointScore.isPositive_zero]
  | true => exact h.isPositive_score hmatch

theorem Agrees.both (hl : left.Agrees) (hr : right.Agrees) :
    (Evaluator.both left right).Agrees where
  score_eq_zero hmatch := if_neg (Bool.eq_false_iff.1 hmatch)
  isPositive_score hmatch := by
    obtain ⟨hleft, hright⟩ := Bool.and_eq_true_iff.1 hmatch
    have hscore : (Evaluator.both left right).score = left.score + right.score := if_pos hmatch
    rw [hscore]
    exact PointScore.isPositive_add _ _ (hl.isPositive_score hleft) (hr.isPositive_score hright)

theorem Agrees.either (hl : left.Agrees) (hr : right.Agrees) :
    (Evaluator.either left right).Agrees where
  score_eq_zero hmatch := by
    obtain ⟨hleft, hright⟩ := Bool.or_eq_false_iff.1 hmatch
    have hscore : (Evaluator.either left right).score = Score.greater left.score right.score := rfl
    rw [hscore, hl.score_eq_zero hleft, hr.score_eq_zero hright, WeightScore.greater_zero_zero]
  isPositive_score hmatch := by
    have hscore := WeightScore.isPositive_greater _ _ hl.isPoints hr.isPoints
    rw [hl.isPositive_eq_isMatch, hr.isPositive_eq_isMatch] at hscore
    exact hscore.trans hmatch

theorem agrees_opposite : (Evaluator.opposite outcome).Agrees where
  score_eq_zero hmatch := if_pos ((Bool.not_eq_false' _).mp hmatch)
  isPositive_score hmatch := by
    have hscore : (Evaluator.opposite outcome).score = 1.0 :=
      if_neg (Bool.eq_false_iff.1 ((Bool.not_eq_true' _).mp hmatch))
    rw [hscore]
    exact PointScore.isPositive_point _ (by simp)

end Evaluation

/-! ## Queries -/

/-- A match in any field counts. -/
def Weights.IsPositive (w : Weights α) : Prop := ∀ field, Score.isPositive (w.of field) = true

namespace Evaluator

open Evaluation

variable [WeightScore α] {e : Evaluator α} (d : Document)

theorem isMatch_phrase [PatternReader] (e : Evaluator α) (value : Text) :
    (e.phrase value d).isMatch = Score.isPositive (e.phrase value d).score := by
  unfold phrase
  dsimp only
  split
  · exact PointScore.isPositive_zero.symm
  · rfl

variable (hweights : e.config.weights.IsPositive)
include hweights

theorem isPositive_of_mul (field : Field) {factor : α}
    (hfactor : factor ∈ ([0.7, 0.8, 1.5, 2.0] : List α)) :
    Score.isPositive (e.config.weights.of field * factor) = true :=
  WeightScore.isPositive_mul_factor factor hfactor _ (hweights field)

variable [PatternReader]

theorem agrees_term (value : Text) : (e.term value d).Agrees := by
  have hpoints : IsPoints (e.term value d).score :=
    e.term_induction (motive := fun score _ => IsPoints score) .zero fun _ _ field count h =>
      h.add (.inr (WeightScore.isPositive_count_mul count _ (hweights field)))
  exact agrees_of_isPoints hpoints (e.isMatch_term value d)

theorem agrees_phrase (value : Text) : (e.phrase value d).Agrees := by
  have hpoints : IsPoints (e.phrase value d).score :=
    e.phrase_induction (motive := fun score _ => IsPoints score) .zero fun _ _ field h =>
      h.add (.inr (isPositive_of_mul hweights field (by simp)))
  exact agrees_of_isPoints hpoints (isMatch_phrase d e value)

theorem agrees_wildcard (pattern : Text) : (e.wildcard pattern d).Agrees := by
  unfold wildcard
  split
  · next field _ => exact agrees_hit (isPositive_of_mul hweights field (by simp)) _
  · exact agrees_miss

omit [PatternReader] in
theorem agrees_fuzzy (word : Text) (distance : Nat) : (e.fuzzy word distance d).Agrees := by
  unfold fuzzy
  dsimp only
  split
  · next field _ => exact agrees_hit (isPositive_of_mul hweights field (by simp)) _
  · exact agrees_miss

theorem agrees_inField (field : Field) (leaf : Query) : (e.inField field leaf d).Agrees := by
  unfold inField
  dsimp only
  split
  · next value =>
    split
    · exact agrees_miss
    · next hcount =>
      obtain ⟨count, hcount⟩ := Nat.exists_eq_succ_of_ne_zero hcount
      rw [hcount]
      have hpos := WeightScore.isPositive_count_mul count _ (hweights field)
      exact agrees_hit (WeightScore.isPositive_mul_factor _ (by simp) _ hpos) _
  · next value =>
    split
    · exact agrees_miss
    · exact agrees_hit (isPositive_of_mul hweights field (by simp)) _
  · next pattern =>
    split
    · exact agrees_hit (hweights field) _
    · exact agrees_miss
  · exact agrees_miss

/-- Every query scores iff it matches. Of its operands an operator needs to know no more. -/
theorem agrees_evaluate (q : Query) : (e.evaluate q d).Agrees := by
  induction q with
  | term value => exact agrees_term d hweights value
  | phrase value => exact agrees_phrase d hweights value
  | wildcard pattern => exact agrees_wildcard d hweights pattern
  | fuzzy word distance => exact agrees_fuzzy d hweights word distance
  | field name inner =>
    -- what stands in a field is not evaluated on its own
    rw [evaluate]
    split
    · next field _ => exact agrees_inField d hweights field inner
    · exact agrees_miss
  | group inner ih => exact ih
  | unary op operand ih =>
    cases op with
    | not => exact agrees_opposite
    | and | or => exact ih
  | binary op left right ihLeft ihRight =>
    cases op with
    | not => exact agrees_opposite
    | and => exact ihLeft.both ihRight
    | or => exact ihLeft.either ihRight

end Evaluator

/-! ## Results -/

theorem isPositive_score_of_mem_rank [WeightScore α] [PatternReader] {config : Config α}
    (hweights : config.weights.IsPositive) {q : Query} {documents : List Document} {limit : Nat}
    {r : Result α} (h : r ∈ rank config q documents limit) : Score.isPositive r.score = true := by
  have hmem := mem_of_mem_best h
  rw [matching_eq, mem_filterMap_ite_iff] at hmem
  obtain ⟨d, -, hmatch, rfl⟩ := hmem
  exact (Evaluator.agrees_evaluate (e := ⟨config, []⟩) d hweights q).isPositive_score hmatch

theorem isPositive_score_of_mem_plainSearch {t : Text} {documents : List Document} {limit : Nat}
    {r : Result α} (h : r ∈ plainSearch t documents limit) : Score.isPositive r.score = true := by
  unfold plainSearch at h
  split at h
  · cases h
  · have hmem := mem_of_mem_best h
    unfold containing at hmem
    dsimp only at hmem
    rw [mem_filterMap_ite_iff] at hmem
    obtain ⟨d, -, hpos, rfl⟩ := hmem
    exact hpos

/-- With positive weights, a document that a query does not match scores zero and one that it
matches scores more, whatever the query is put together from, whichever patterns were read ahead and
whichever are refused.
Every result of a search has a positive score, also where the text is no query. -/
theorem score_agrees_with_match [WeightScore α] [PatternReader] {config : Config α}
    (hweights : ∀ field, Score.isPositive (config.weights.of field) = true) :
    (∀ (compiled : Compiled) (q : Query) (d : Document),
      let outcome := (⟨config, compiled⟩ : Evaluator α).evaluate q d
      (outcome.isMatch = false → outcome.score = 0.0) ∧
        (outcome.isMatch = true → Score.isPositive outcome.score = true)) ∧
    ∀ (documents : List Document) (t : Text) (limit : Nat),
      ∀ r ∈ (⟨config, documents⟩ : Index α).searchWithLimit t limit,
        Score.isPositive r.score = true := by
  refine ⟨fun compiled q d => ?_, fun documents t limit r hr => ?_⟩
  · have h := Evaluator.agrees_evaluate (e := ⟨config, compiled⟩) d hweights q
    exact ⟨h.score_eq_zero, h.isPositive_score⟩
  · unfold Index.searchWithLimit at hr
    split at hr
    · cases hr
    · split at hr
      · exact isPositive_score_of_mem_rank hweights hr
      · exact isPositive_score_of_mem_plainSearch hr

/-- A near miss or a phrase of the title without a wildcard; and a text that is no query. -/
theorem score_agrees_with_match_hooks_guide :
    let _ : PatternReader := .standard
    let config : Config Rat := .standard
    let d := Document.ofItem 0 (.named "hooks guide".toList)
    let inTitle := Query.field "Title".toList (.phrase "hooks".toList)
    let q := (Query.fuzzy "look".toList 1).or
      (.group (inTitle.and (.not (.wildcard "vue*".toList))))
    let outcome (q : Query) := (⟨config, []⟩ : Evaluator Rat).evaluate q d
    let results := (⟨config, [d]⟩ : Index Rat).searchWithLimit "guide AND (".toList 1
    (∀ field, Score.isPositive (config.weights.of field) = true) ∧
      (outcome q).isMatch = true ∧ 0 < (outcome q).score ∧
      (outcome q.not).isMatch = false ∧ (outcome q.not).score = 0 ∧
      results.map (·.id) = [0] ∧ ∀ r ∈ results, 0 < r.score := by
  have hweights (field : Field) :
      Score.isPositive ((Config.standard : Config Rat).weights.of field) = true := by
    cases field <;> decide +kernel
  intro _
  obtain ⟨hevaluate, hsearch⟩ := score_agrees_with_match hweights
  refine ⟨hweights, by decide +kernel, ?_, by decide +kernel, ?_, by cbv, ?_⟩
  · exact of_decide_eq_true ((hevaluate [] _ _).2 (by decide +kernel))
  · exact ((hevaluate [] _ _).1 (by decide +kernel)).trans zero_rat
  · intro r hr
    exact of_decide_eq_true (hsearch _ _ _ r hr)

end DocumentSearch
